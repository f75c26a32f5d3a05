import Zaza.DispatcherSteps

/-!
How payload leaves the server.

A relay request is what a client's packet asks for when it is a Send indication
or a ChannelData message: pass this payload on to that peer. `relayRequest`
reads it off the packet and the sender's allocation. Every packet that carries
payload answers such a request or a peer's datagram (`onPacket_sent`,
`peerData_sent`), and a request for a relayed address that the server has
itself is answered by one packet to its client (`relay_local`).
-/
namespace Zaza.RelaySteps
open Zaza AllocationManager AllocationSteps AllocationInvariant TurnDispatcher DispatcherSteps

/-- The sender's allocation, the peer and the payload of a Send indication. -/
def sendRequest (host : Host) (env : Env) (m : AllocationManager) (msg : TurnMessage)
    (client : Endpoint) : Option (Allocation × Endpoint × Bytes) :=
  match m.findByClient client, msg.findAttr AttrType.xorPeerAddress,
    msg.findAttr AttrType.data with
  | some alloc, some peerAttr, some dataAttr =>
    if 8 ≤ peerAttr.value.length ∧
        alloc.hasPermission env.now (peerEndpoint host peerAttr.value).address then
      some (alloc, peerEndpoint host peerAttr.value, dataAttr.value)
    else none
  | _, _, _ => none

/-- The same of a ChannelData message, whose peer is the one its channel is
bound to. -/
def channelRequest (env : Env) (m : AllocationManager) (data : Bytes) (client : Endpoint) :
    Option (Allocation × Endpoint × Bytes) :=
  match parseChannelData data, m.findByClient client with
  | .ok ch, some alloc =>
    match alloc.channels.lookup ch.channelNumber with
    | some binding =>
      if alloc.hasPermission env.now binding.peer.address then
        some (alloc, binding.peer, ch.data)
      else none
    | none => none
  | _, _ => none

/-- What a packet asks the server to relay. -/
def relayRequest (host : Host) (env : Env) (m : AllocationManager) (data : Bytes)
    (sender : Endpoint) : Option (Allocation × Endpoint × Bytes) :=
  match parse data with
  | .ok msg =>
    if msg.msgClass = .indication ∧ msg.method = .send then sendRequest host env m msg sender
    else none
  | .error _ =>
    if byteAt data 0 &&& 0xC0 = 0x40 then channelRequest env m data sender else none

variable {host : Host} {cfg : Config} {env : Env} {d d' : TurnDispatcher} {data payload : Bytes}
  {sender peer : Endpoint} {via : Transport} {msg : TurnMessage} {out : List Sent}
  {a b : Allocation} {q : Ptr} {m : AllocationManager}

/-! ## The two forwarding paths -/

private theorem findByClient_find (client : Endpoint) :
    (m.find m.byClient client).map Prod.snd = m.findByClient client := rfl

/-- `handleSend` by its request: a Data indication to the local client, or the
raw payload to the peer. -/
theorem handleSend_eq (mcfg : ManagerConfig) :
    m.handleSend host mcfg env msg sender =
      match sendRequest host env m msg sender with
      | none => []
      | some (alloc, peer, payload) =>
        match m.find m.byRelay peer with
        | some (q, peerAlloc) =>
          if mcfg.clientSend then
            [⟨makeDataIndication zeroTid ((host.makeAddressV4 alloc.relayedAddr.address).getD 0)
              alloc.relayedAddr.port payload, peerAlloc.clientAddr,
              .toLocal sender peer alloc.relayedAddr q⟩]
          else []
        | none => if mcfg.peerSend then [⟨payload, peer, .toPeer sender peer⟩] else [] := by
  unfold handleSend sendRequest
  rw [← findByClient_find]
  cases found : m.find m.byClient sender with
  | none => rfl
  | some entry =>
    obtain ⟨p, alloc⟩ := entry
    simp only [Option.map_some]
    cases msg.findAttr AttrType.xorPeerAddress with
    | none => rfl
    | some peerAttr =>
      simp only
      by_cases short : peerAttr.value.length < 8
      · have long : ¬ 8 ≤ peerAttr.value.length := by omega
        cases msg.findAttr AttrType.data <;> simp [short, long]
      · have long : 8 ≤ peerAttr.value.length := by omega
        cases permitted : alloc.hasPermission env.now
            (peerEndpoint host peerAttr.value).address with
        | false => cases msg.findAttr AttrType.data <;> simp [short, permitted]
        | true =>
          simp only [short, ↓reduceIte, Bool.not_true, Bool.false_eq_true]
          cases msg.findAttr AttrType.data with
          | none => rfl
          | some dataAttr =>
            cases target : m.find m.byRelay (peerEndpoint host peerAttr.value) <;>
              simp [long, permitted, target]

/-- The frames for the local client: ChannelData when its allocation has a
channel for the sender, else a Data indication when the sender's address is
IPv4 text. -/
def localFrames (host : Host) (env : Env) (alloc peerAlloc : Allocation) (payload : Bytes) :
    List Bytes :=
  if peerChannel env.order peerAlloc alloc.relayedAddr ≠ 0 then
    [makeChannelData (peerChannel env.order peerAlloc alloc.relayedAddr) payload]
  else match host.makeAddressV4 alloc.relayedAddr.address with
  | none => []
  | some relayIp => [makeDataIndication zeroTid relayIp alloc.relayedAddr.port payload]

/-- `handleChannelData` by its request. -/
theorem handleChannelData_eq :
    d.handleChannelData host env data sender via =
      match channelRequest env d.manager data sender with
      | none => []
      | some (alloc, peer, payload) =>
        match d.manager.find d.manager.byRelay peer with
        | some (q, peerAlloc) => (localFrames host env alloc peerAlloc payload).map fun frame =>
            ⟨⟨frame, peerAlloc.clientAddr, .toLocal sender peer alloc.relayedAddr q⟩, via⟩
        | none => [⟨⟨payload, peer, .toPeer sender peer⟩, via⟩] := by
  unfold handleChannelData channelRequest
  cases parseChannelData data with
  | error e => rfl
  | ok ch =>
    cases d.manager.findByClient sender with
    | none => rfl
    | some alloc =>
      simp only
      cases alloc.channels.lookup ch.channelNumber with
      | none => rfl
      | some binding =>
        simp only
        cases alloc.hasPermission env.now binding.peer.address with
        | false => rfl
        | true =>
          simp only [Bool.not_true, Bool.false_eq_true, ↓reduceIte]
          cases d.manager.find d.manager.byRelay binding.peer with
          | none => rfl
          | some entry =>
            obtain ⟨q, peerAlloc⟩ := entry
            simp only [localFrames]
            by_cases bound : peerChannel env.order peerAlloc alloc.relayedAddr = 0
            · simp only [bound, ne_eq, not_true_eq_false, ↓reduceIte]
              cases host.makeAddressV4 alloc.relayedAddr.address <;> rfl
            · simp [bound]

/-- The frames for the local client, on the path the packet came: a Send indication is
always handed over in a Data indication. -/
def frames (host : Host) (env : Env) (data : Bytes) (alloc peerAlloc : Allocation)
    (payload : Bytes) : List Bytes :=
  if isChannelData data then localFrames host env alloc peerAlloc payload
  else [makeDataIndication zeroTid ((host.makeAddressV4 alloc.relayedAddr.address).getD 0)
    alloc.relayedAddr.port payload]

/-- What is sent for the relay request of a packet. -/
def relayed (host : Host) (env : Env) (m : AllocationManager) (data : Bytes)
    (sender : Endpoint) : List Datagram :=
  match relayRequest host env m data sender with
  | none => []
  | some (alloc, peer, payload) =>
    match m.find m.byRelay peer with
    | none => [⟨payload, peer, .toPeer sender peer⟩]
    | some (q, peerAlloc) => (frames host env data alloc peerAlloc payload).map fun frame =>
        ⟨frame, peerAlloc.clientAddr, .toLocal sender peer alloc.relayedAddr q⟩

theorem handleChannelData_relayed (rejected : parse data = .error e)
    (top : byteAt data 0 &&& 0xC0 = 0x40) (channel : isChannelData data = true) :
    d.handleChannelData host env data sender via =
      (relayed host env d.manager data sender).map fun datagram => ⟨datagram, via⟩ := by
  have asks : relayRequest host env d.manager data sender =
      channelRequest env d.manager data sender := by
    simp [relayRequest, rejected, top]
  rw [handleChannelData_eq, relayed, asks]
  cases channelRequest env d.manager data sender with
  | none => rfl
  | some asked =>
    obtain ⟨alloc, peer, payload⟩ := asked
    simp only
    cases d.manager.find d.manager.byRelay peer with
    | none => rfl
    | some entry => simp only [frames, channel, ↓reduceIte, List.map_map, Function.comp_def]

theorem handleSend_relayed (parsed : parse data = .ok msg)
    (isSend : msg.msgClass = .indication ∧ msg.method = .send) :
    m.handleSend host cfg.manager env msg sender = relayed host env m data sender := by
  have asks : relayRequest host env m data sender = sendRequest host env m msg sender := by
    simp [relayRequest, parsed, isSend]
  have plain : isChannelData data = false := by
    simp [isChannelData, parse_top parsed]
  rw [handleSend_eq, relayed, asks]
  cases sendRequest host env m msg sender with
  | none => rfl
  | some asked =>
    obtain ⟨alloc, peer, payload⟩ := asked
    simp only
    cases m.find m.byRelay peer with
    | none => rfl
    | some entry =>
      simp only [frames, plain]
      rfl

/-- The first channel, in the map's own order, to a peer is one the allocation binds to it. -/
theorem channelTo_bound {order : IterOrder} {entry : UInt16 × ChannelBinding}
    (found : ((b.channels.iterate order).find? fun entry =>
      entry.2.peer.address = peer.address ∧ entry.2.peer.port = peer.port) = some entry) :
    b.channels.lookup entry.1 = some entry.2 ∧ entry.2.peer = peer := by
  have matching := List.find?_some found
  simp only [decide_eq_true_eq] at matching
  refine ⟨UnorderedMap.mem_iterate.mp (List.mem_of_find?_eq_some found), ?_⟩
  rw [← Endpoint.mk.injEq] at matching
  exact matching

/-! ## Requests -/

/-- A request comes from a client whose allocation permits the peer. -/
theorem relayRequest_permitted
    (request : relayRequest host env m data sender = some (a, peer, payload)) :
    m.findByClient sender = some a ∧ a.hasPermission env.now peer.address = true := by
  unfold relayRequest at request
  split at request
  · split at request
    · unfold sendRequest at request
      split at request
      · rename_i found _ _
        split at request
        · rename_i allowed
          obtain ⟨rfl, rfl, rfl⟩ := by simpa using request
          exact ⟨found, allowed.2⟩
        · simp at request
      · simp at request
    · simp at request
  · split at request
    · unfold channelRequest at request
      split at request
      · rename_i found
        split at request
        · split at request
          · rename_i allowed
            obtain ⟨rfl, rfl, rfl⟩ := by simpa using request
            exact ⟨found, allowed⟩
          · simp at request
        · simp at request
      · simp at request
    · simp at request

/-- Where payload for a peer goes: to the peer, or to the client whose relayed address the
peer's is. -/
def Leads (m : AllocationManager) (peer dest : Endpoint) : Prop :=
  (m.find m.byRelay peer = none ∧ dest = peer) ∨
    ∃ q b, m.find m.byRelay peer = some (q, b) ∧ dest = b.clientAddr

/-- The packet answers the relay request of `data`: on the transport that one came
in on, raw to the peer, or to the client behind the peer's relayed address. -/
def AnswersRequest (host : Host) (env : Env) (m : AllocationManager) (data : Bytes)
    (sender : Endpoint) (via : Transport) (sent : Sent) : Prop :=
  sent.via = via ∧ ∃ a peer payload,
    relayRequest host env m data sender = some (a, peer, payload) ∧
    ((m.find m.byRelay peer = none ∧ sent = ⟨⟨payload, peer, .toPeer sender peer⟩, via⟩) ∨
      ∃ q b, m.find m.byRelay peer = some (q, b) ∧ sent.dest = b.clientAddr ∧
        sent.purpose = .toLocal sender peer a.relayedAddr q)

/-- A relay request is answered with the raw payload, or with one of two frames
for the local client: ChannelData only when it came as ChannelData itself. -/
inductive Relayed (env : Env) (m : AllocationManager) (data : Bytes) (sender : Endpoint)
    (a : Allocation) (peer : Endpoint) (payload : Bytes) : Datagram → Prop where
  | raw (outside : m.find m.byRelay peer = none) :
      Relayed env m data sender a peer payload ⟨payload, peer, .toPeer sender peer⟩
  | indication (q : Ptr) (b : Allocation) (ip : UInt32)
      (inside : m.find m.byRelay peer = some (q, b))
      (unbound : byteAt data 0 &&& 0xC0 = 0x40 → peerChannel env.order b a.relayedAddr = 0) :
      Relayed env m data sender a peer payload
        ⟨makeDataIndication zeroTid ip a.relayedAddr.port payload, b.clientAddr,
          .toLocal sender peer a.relayedAddr q⟩
  | channel (q : Ptr) (b : Allocation) (inside : m.find m.byRelay peer = some (q, b))
      (framed : byteAt data 0 &&& 0xC0 = 0x40)
      (bound : peerChannel env.order b a.relayedAddr ≠ 0) :
      Relayed env m data sender a peer payload
        ⟨makeChannelData (peerChannel env.order b a.relayedAddr) payload, b.clientAddr,
          .toLocal sender peer a.relayedAddr q⟩

theorem relayed_mem (member : datagram ∈ relayed host env m data sender) :
    ∃ a peer payload, relayRequest host env m data sender = some (a, peer, payload) ∧
      Relayed env m data sender a peer payload datagram := by
  unfold relayed at member
  cases request : relayRequest host env m data sender with
  | none => simp [request] at member
  | some asked =>
    obtain ⟨a, peer, payload⟩ := asked
    refine ⟨a, peer, payload, rfl, ?_⟩
    simp only [request] at member
    cases found : m.find m.byRelay peer with
    | none =>
      simp only [found, List.mem_singleton] at member
      subst member
      exact .raw found
    | some entry =>
      obtain ⟨q, b⟩ := entry
      simp only [found, List.mem_map] at member
      obtain ⟨frame, inside, rfl⟩ := member
      have top : isChannelData data = true ↔ byteAt data 0 &&& 0xC0 = 0x40 :=
        isChannelData_iff data
      unfold frames at inside
      split at inside
      · rename_i channel
        unfold localFrames at inside
        split at inside
        · rename_i bound
          obtain rfl := List.mem_singleton.mp inside
          exact .channel q b found (top.mp channel) bound
        · rename_i unbound
          split at inside
          · simp at inside
          · obtain rfl := List.mem_singleton.mp inside
            exact .indication q b _ found fun _ => not_not.mp unbound
      · rename_i plain
        obtain rfl := List.mem_singleton.mp inside
        exact .indication q b _ found fun channel => absurd (top.mpr channel) plain

private theorem challenge_sent
    (taken : d.challenge cfg env msg sender via code reason = .ok (d', out))
    (member : sent ∈ out) : sent.purpose = .reply ∧ sent.dest = sender := by
  unfold challenge at taken
  split at taken
  · simp at taken
  · obtain ⟨_, rfl⟩ := Prod.mk.inj (Except.ok.inj taken)
    obtain rfl := List.mem_singleton.mp member
    exact ⟨rfl, rfl⟩

/-- Everything a message other than an indication is answered with is a reply to its
sender. -/
theorem handleStun_reply (class_ne : msg.msgClass ≠ .indication)
    (taken : d.handleStun host cfg env msg data sender via = .ok (d', out))
    (member : sent ∈ out) : sent.purpose = .reply ∧ sent.dest = sender := by
  simp only [handleStun, if_neg class_ne] at taken
  cases verdict : ({ d with currentTransport := some via } : TurnDispatcher).authResult host cfg env
      msg data sender <;> simp only [verdict] at taken
  case missingCredentials | staleNonce | badIntegrity | credentialsExpired =>
    exact challenge_sent taken member
  case wrongCredentials =>
    obtain ⟨_, rfl⟩ := Prod.mk.inj (Except.ok.inj taken)
    obtain rfl := List.mem_singleton.mp member
    exact ⟨rfl, rfl⟩
  case ok =>
    split at taken
    · obtain ⟨_, rfl⟩ := Prod.mk.inj (Except.ok.inj taken)
      obtain rfl := List.mem_singleton.mp member
      exact ⟨rfl, rfl⟩
    · obtain ⟨_, rfl⟩ := Prod.mk.inj (Except.ok.inj taken)
      simp at member

/-- What becomes of a packet: a message other than an indication goes to the credentials
check, and for everything else its relay request is answered, if it is one. -/
theorem onPacket_cases (taken : d.onPacket host cfg env data sender via = .ok (d', out)) :
    (∃ msg, parse data = .ok msg ∧ msg.msgClass ≠ .indication ∧
      d.handleStun host cfg env msg data sender via = .ok (d', out)) ∨
    ((∀ msg, parse data = .ok msg → msg.msgClass = .indication) ∧
      out = (relayed host env d.manager data sender).map fun datagram => ⟨datagram, via⟩) := by
  cases parsed : parse data with
  | error e =>
    refine .inr ⟨fun msg accepted => (by cases accepted), ?_⟩
    have channel := isChannelData_iff data
    unfold onPacket at taken
    rw [parsed] at taken
    split at taken
    · rename_i empty
      have silent : byteAt data 0 &&& 0xC0 ≠ 0x40 := by
        simp [byteAt, List.length_eq_zero_iff.mp empty]
      obtain ⟨_, rfl⟩ := Prod.mk.inj (Except.ok.inj taken)
      simp [relayed, relayRequest, parsed, silent]
    · split at taken
      · rename_i top
        obtain ⟨_, rfl⟩ := Prod.mk.inj (Except.ok.inj taken)
        exact handleChannelData_relayed parsed top (channel.mpr top)
      · rename_i silent
        have empty : out = [] := by
          split at taken <;> exact (Prod.mk.inj (Except.ok.inj taken)).2.symm
        simp [relayed, relayRequest, parsed, silent, empty]
  | ok msg =>
    rw [onPacket_of_parse parsed] at taken
    by_cases indication : msg.msgClass = .indication
    · refine .inr ⟨fun msg' accepted => (by rwa [← Except.ok.inj accepted]), ?_⟩
      simp only [handleStun, if_pos indication] at taken
      split at taken
      · rename_i isSend
        obtain ⟨_, rfl⟩ := Prod.mk.inj (Except.ok.inj taken)
        simp only [callback]
        rw [handleSend_relayed parsed ⟨indication, isSend⟩]
      · rename_i other
        obtain ⟨_, rfl⟩ := Prod.mk.inj (Except.ok.inj taken)
        simp [relayed, relayRequest, parsed, other]
    · exact .inl ⟨msg, rfl, indication, taken⟩

/-- What `onPacket` sends answers a message other than an indication, or is the
answer to a relay request. -/
theorem onPacket_relayed (taken : d.onPacket host cfg env data sender via = .ok (d', out))
    (member : sent ∈ out) :
    (∃ msg, msg.msgClass ≠ .indication ∧
      d.handleStun host cfg env msg data sender via = .ok (d', out)) ∨
    sent.via = via ∧ ∃ a peer payload,
      relayRequest host env d.manager data sender = some (a, peer, payload) ∧
      Relayed env d.manager data sender a peer payload sent.toDatagram := by
  rcases onPacket_cases taken with ⟨msg, _, class_ne, stun⟩ | ⟨_, rfl⟩
  · exact .inl ⟨msg, class_ne, stun⟩
  · obtain ⟨datagram, inside, rfl⟩ := List.mem_map.mp member
    exact .inr ⟨rfl, relayed_mem inside⟩

/-- What `onPacket` sends is a reply to the sender or answers the packet's relay request. -/
theorem onPacket_sent (taken : d.onPacket host cfg env data sender via = .ok (d', out))
    (member : sent ∈ out) :
    (sent.purpose = .reply ∧ sent.dest = sender) ∨
      AnswersRequest host env d.manager data sender via sent := by
  rcases onPacket_relayed taken member with
    ⟨msg, class_ne, answered⟩ | ⟨rfl, a, peer, payload, request, relayed⟩
  · exact .inl (handleStun_reply class_ne answered member)
  · refine .inr ⟨rfl, a, peer, payload, request, ?_⟩
    obtain ⟨datagram, onto⟩ := sent
    cases relayed with
    | raw outside => exact .inl ⟨outside, rfl⟩
    | indication q b ip inside unbound => exact .inr ⟨q, b, inside, rfl, rfl⟩
    | channel q b inside framed bound => exact .inr ⟨q, b, inside, rfl, rfl⟩

/-! ## What is sent for a request -/

/-- A request for a relayed address the server has itself is answered by one
packet, to that allocation's client and on the sender's transport: a Data
indication or, on the ChannelData path, a frame on the client's channel. -/
theorem relay_local (cfg : Config) (via : Transport)
    (request : relayRequest host env d.manager data sender = some (a, peer, payload))
    (found : d.manager.find d.manager.byRelay peer = some (q, b))
    (text : host.makeAddressV4 a.relayedAddr.address = some ip) :
    ∃ d' frame, d.onPacket host cfg env data sender via =
        .ok (d', [⟨⟨frame, b.clientAddr, .toLocal sender peer a.relayedAddr q⟩, via⟩]) ∧
      (frame = makeDataIndication zeroTid ip a.relayedAddr.port payload ∨
        peerChannel env.order b a.relayedAddr ≠ 0 ∧
          frame = makeChannelData (peerChannel env.order b a.relayedAddr) payload) := by
  unfold relayRequest at request
  cases parsed : parse data with
  | ok msg =>
    simp only [parsed] at request
    split at request
    · rename_i kind
      obtain ⟨indication, isSend⟩ := kind
      refine ⟨{ d with currentTransport := some via }, _, ?_, .inl rfl⟩
      rw [onPacket_of_parse parsed, handleStun]
      simp only [indication, isSend, ↓reduceIte, callback, handleSend_eq, request, found,
        Config.manager, text, Option.getD_some, List.map_cons, List.map_nil]
    · simp at request
  | error e =>
    simp only [parsed] at request
    split at request
    · rename_i channel
      have sent : d.onPacket host cfg env data sender via =
          .ok (d, (localFrames host env a b payload).map fun frame =>
            ⟨⟨frame, b.clientAddr, .toLocal sender peer a.relayedAddr q⟩, via⟩) := by
        rw [onPacket_of_channel channel, handleChannelData_eq]
        simp only [request, found]
      by_cases bound : peerChannel env.order b a.relayedAddr = 0
      · refine ⟨d, _, ?_, .inl rfl⟩
        rw [sent]
        simp [localFrames, bound, text]
      · refine ⟨d, _, ?_, .inr ⟨bound, rfl⟩⟩
        rw [sent]
        simp [localFrames, bound]
    · simp at request

/-- A peer's datagram is passed on exactly when an allocation with the relayed
address permits the peer and a transport is known, and then on that transport
to the allocation's client. -/
theorem peerData_sent (mcfg : ManagerConfig) (sending : mcfg.clientSend = true) :
    (∃ sent ∈ d.callback (d.manager.handlePeerData host mcfg env data peer relayAddr),
      sent.purpose = purpose ∧ sent.dest = dest ∧ sent.via = via) ↔
    ∃ q b, d.manager.find d.manager.byRelay relayAddr = some (q, b) ∧
      b.hasPermission env.now peer.address = true ∧ d.currentTransport = some via ∧
      purpose = .fromPeer peer q ∧ dest = b.clientAddr := by
  unfold callback handlePeerData
  cases d.currentTransport with
  | none => simp
  | some current =>
    cases found : d.manager.find d.manager.byRelay relayAddr with
    | none => simp
    | some entry =>
      obtain ⟨q, b⟩ := entry
      cases permitted : b.hasPermission env.now peer.address with
      | false => simp [permitted]
      | true =>
        -- Either frame goes to the same client for the same purpose.
        have sends : ∀ frame, (∃ sent ∈ ([⟨frame, b.clientAddr, .fromPeer peer q⟩] :
              List Datagram).map (fun datagram => (⟨datagram, current⟩ : Sent)),
              sent.purpose = purpose ∧ sent.dest = dest ∧ sent.via = via) ↔
            ∃ q' b', some (q, b) = some (q', b') ∧
              b'.hasPermission env.now peer.address = true ∧ some current = some via ∧
              purpose = .fromPeer peer q' ∧ dest = b'.clientAddr := by
          intro frame
          simp only [List.map_cons, List.map_nil, List.mem_singleton, exists_eq_left]
          constructor
          · rintro ⟨rfl, rfl, rfl⟩
            exact ⟨q, b, rfl, permitted, rfl, rfl, rfl⟩
          · rintro ⟨q', b', same, _, onto, rfl, rfl⟩
            obtain ⟨rfl, rfl⟩ := Prod.mk.inj (Option.some.inj same)
            exact ⟨rfl, rfl, Option.some.inj onto⟩
        simp only [permitted, sending, Bool.not_true, Bool.false_eq_true, ↓reduceIte]
        cases b.findChannelByPeer env.order env.now peer <;> exact sends _

end Zaza.RelaySteps
