import Zaza.RelayDelivery
import Zaza.Replies
import Zaza.StreamFrames
import Zaza.StreamServer

/-!
What the server writes to its streams.

Everything it says in its own name is a frame: replies are short, and a payload
handed to a local client is wrapped in a Data indication or a ChannelData
message, which is a frame as long as its length fits sixteen bits. A payload for
an outside peer is sent raw, through the same `send` that finds a session by the
text of its endpoint.
-/
namespace Zaza.StreamSafety
open Zaza AllocationManager AllocationSteps AllocationInvariant TurnDispatcher DispatcherSteps
open RelaySteps StreamFrames StunCodec

/-! ## Messages -/

/-- A message with a body of at most `size` bytes, which its length field counts. -/
def Built (size : Nat) (resp : Bytes) : Prop :=
  ∃ (method : Method) (msgClass : MessageClass) (tid : TransactionId) (body : Bytes),
    body.length ≤ size ∧ resp = bytes16 (MessageBuilder.encodeType method msgClass) ++
      (bytes16 body.length.toUInt16 ++ ([0x21, 0x12, 0xA4, 0x42] ++ (tid.toList ++ body)))

theorem Built.isStunFrame (built : Built size resp) (small : size ≤ 65535) :
    IsStunFrame resp := by
  obtain ⟨method, msgClass, tid, body, short, shape⟩ := built
  exact isStunFrame_of_header method msgClass tid body (by omega) shape

theorem built_addAttrs (method : Method) (msgClass : MessageClass) (tid : TransactionId)
    {attrs : List Attribute} (fits : encodedSize attrs ≤ size) (small : size ≤ 65535) :
    Built size (addAttrs (MessageBuilder.new method msgClass tid) attrs).build := by
  refine ⟨method, msgClass, tid, attrs.flatMap encodeAttr, ?_, ?_⟩
  · rwa [encodeAttrs_length]
  · rw [build_addAttrs method msgClass tid (by omega), encodeAttrs_length, encodeMessage]

theorem built_makeError (tid : TransactionId) (code : UInt16) {reason : String}
    (short : reason.toList.length ≤ 30) : Built 40 (makeError tid code reason) := by
  have size := Replies.error_size tid code reason (by simpa [ascii] using short)
  rw [← Call.error_build]
  exact built_addAttrs _ _ _ size (by decide)

variable {host : Host} {cfg : Config} {env : Env} {m : AllocationManager} {msg : TurnMessage}
  {sender : Endpoint}

/-- Every handler answers shortly. -/
theorem handleRequest_built : Built 40 (handleRequest host cfg env m msg sender).2 := by
  rw [Replies.handleRequest_call]
  exact built_addAttrs _ _ _ Replies.short_requestCall.1 (by decide)

/-- Signing a short message gives a message again. -/
theorem Built.signResponse (built : Built 40 resp) (username password : Bytes) :
    IsStunFrame (signResponse host cfg resp username password) := by
  have plain := built.isStunFrame (by decide)
  unfold TurnDispatcher.signResponse
  split
  · exact plain
  · split
    · exact plain
    · obtain ⟨method, msgClass, tid, body, short, shape⟩ := built
      have size : resp.length - 20 + 4 + 20 = body.length + 24 := by
        rw [shape]
        simp
        omega
      simp only [size]
      generalize (host.hmacSha1 _ _) = mi
      apply isStunFrame_of_header method msgClass tid
        (body ++ ([0x00, 0x08, 0x00, 0x14] ++ mi.toList))
      · simp
        omega
      · rw [shape, setLength_header]
        simp [Nat.add_comm]

/-! ## Replies -/

theorem drawNonce_length {store : NonceStore} {bufs : List (Vector UInt8 16)}
    (drawn : drawNonce store bufs = .ok nonce) : nonce.length = 32 := by
  induction bufs with
  | nil => simp [drawNonce] at drawn
  | cons buf bufs ih =>
    simp only [drawNonce] at drawn
    split at drawn
    · exact ih drawn
    · obtain rfl := Except.ok.inj drawn
      simp [hex, List.length_flatMap]

/-- Rounding up does not pass a multiple of four. -/
theorem rounded_le (bound : n ≤ 4 * k) : n + padding n ≤ 4 * k := by
  unfold padding
  split <;> omega

/-- A challenge is a frame when the realm leaves room for the rest. -/
theorem challenge_frame (realm : cfg.realm.length % 65536 ≤ 65472) {d d' : TurnDispatcher}
    {reason : String} (short : reason.toList.length ≤ 12)
    (done : d.challenge cfg env msg sender via code reason = .ok (d', out))
    (member : sent ∈ out) : IsStunFrame sent.data := by
  unfold challenge NonceManager.generate at done
  cases drawn : drawNonce d.nonces env.randBytes with
  | error e => simp [drawn] at done
  | ok nonce =>
    simp only [drawn] at done
    obtain ⟨_, rfl⟩ := Prod.mk.inj (Except.ok.inj done)
    obtain rfl := List.mem_singleton.mp member
    have size := drawNonce_length drawn
    obtain ⟨value, length, error⟩ : ∃ value : Bytes, value.length = 4 + reason.toList.length ∧
        ∀ b : MessageBuilder, b.addErrorCode code (ascii reason) =
          b.addAttr AttrType.errorCode value := by
      refine ⟨[0x00, 0x00, (code / 100).toUInt8 &&& 0x07, (code % 100).toUInt8] ++ ascii reason,
        ?_, fun _ => rfl⟩
      simp only [ascii, List.length_append, List.length_map, List.length_cons, List.length_nil]
    generalize cut : cfg.realm.take (cfg.realm.length % 65536) = realmCut
    have cutLength : realmCut.length = cfg.realm.length % 65536 := by
      rw [← cut, List.length_take]
      exact Nat.min_eq_left (Nat.mod_le _ _)
    have fits : encodedSize [⟨AttrType.errorCode, value⟩, ⟨AttrType.realm, realmCut⟩,
        ⟨AttrType.nonce, nonce⟩] ≤ 65532 := by
      have errorRounded := rounded_le (show value.length ≤ 4 * 4 by omega)
      have realmRounded := rounded_le (show realmCut.length ≤ 4 * 16368 by omega)
      have nonceRounded := rounded_le (show nonce.length ≤ 4 * 8 by omega)
      simp only [encodedSize, attrSize, List.map_cons, List.map_nil, List.sum_cons, List.sum_nil]
      omega
    have built := built_addAttrs msg.method .errorResponse msg.transactionId fits (by decide)
    rw [error, addAttr_cut _ AttrType.realm, cut]
    exact built.isStunFrame (by decide)

/-- Whatever a message other than an indication is answered with is a frame. -/
theorem reply_frame (realm : cfg.realm.length % 65536 ≤ 65472) {d d' : TurnDispatcher}
    (class_ne : msg.msgClass ≠ .indication)
    (taken : d.handleStun host cfg env msg data sender via = .ok (d', out))
    (member : sent ∈ out) : IsStunFrame sent.data := by
  simp only [handleStun, if_neg class_ne] at taken
  cases verdict : ({ d with currentTransport := some via } : TurnDispatcher).authResult host cfg env
      msg data sender <;> simp only [verdict] at taken
  case missingCredentials | badIntegrity | credentialsExpired | staleNonce =>
    exact challenge_frame realm (by decide) taken member
  case wrongCredentials =>
    obtain ⟨_, rfl⟩ := Prod.mk.inj (Except.ok.inj taken)
    obtain rfl := List.mem_singleton.mp member
    exact (built_makeError _ _ (by decide)).isStunFrame (by decide)
  case ok =>
    split at taken
    · obtain ⟨_, rfl⟩ := Prod.mk.inj (Except.ok.inj taken)
      obtain rfl := List.mem_singleton.mp member
      exact handleRequest_built.signResponse _ _
    · obtain ⟨_, rfl⟩ := Prod.mk.inj (Except.ok.inj taken)
      simp at member

/-! ## Payload -/

/-- A Data indication is a frame when its payload leaves room for the address. -/
theorem isFrame_dataIndication (tid : TransactionId) (ip : UInt32) (port : UInt16)
    (small : payload.length ≤ 65516) : IsFrame (makeDataIndication tid ip port payload) := by
  have fits : encodedSize [⟨AttrType.xorPeerAddress, MessageBuilder.xorAddress ip port⟩,
      ⟨AttrType.data, payload⟩] ≤ 65532 := by
    have rounded := rounded_le (show payload.length ≤ 4 * 16379 by omega)
    have address : attrSize ⟨AttrType.xorPeerAddress, MessageBuilder.xorAddress ip port⟩ = 12 := by
      simp [attrSize, MessageBuilder.xorAddress, padding]
    simp only [encodedSize, List.map_cons, List.map_nil, List.sum_cons, List.sum_nil, address]
    simp only [attrSize]
    omega
  exact .inl ((built_addAttrs .data .indication tid fits (by decide)).isStunFrame (by decide))

variable {d d' : TurnDispatcher} {data : Bytes} {via : Transport} {out : List Sent} {sent : Sent}
  {a b : Allocation} {peer : Endpoint} {payload : Bytes} {q : Ptr}

/-! ## Channel numbers -/

/-- Every binding knows its own number. -/
theorem numbered_of_reachable (reached : Reachable (turnServer host cfg) d) :
    ∀ p a, Live d.manager p a → ∀ num binding, a.channels.lookup num = some binding →
      binding.channelNumber = num := by
  refine live_of_reachable (fun m client username realm port expiresAt => ?_)
    (fun env a a' write numbered => ?_) reached
  · intro num binding found
    simp [fresh] at found
  · cases write with
    | refresh expiresAt => exact numbered
    | permit ip allowed => exact numbered
    | bind num ip port valid allowed free =>
      intro num' binding found
      simp only [Allocation.bind] at found
      by_cases new : num' = num
      · subst new
        rw [AList.lookup_insert] at found
        obtain rfl := Option.some.inj found
        rfl
      · rw [AList.lookup_insert_ne new] at found
        exact numbered num' binding found

/-- A channel number of a live allocation can start a frame. -/
theorem channel_range (reached : Reachable (turnServer host cfg) d) (lives : Live d.manager q b)
    (found : b.channels.lookup num = some binding) : 0x4000 ≤ num ∧ num ≤ 0x7FFF := by
  obtain ⟨low, high⟩ := ((RelaySafety.clean_of_reachable reached q b lives).channels num binding
    found).1
  exact ⟨low, UInt16.le_trans high (by decide)⟩

/-! ## One step -/

/-- What a client asks to be passed on does not end up in a stream unframed: an
outside peer has no session under its endpoint, and a local client that has one
is handed no more than a frame holds. -/
def RequestFramed (host : Host) (env : Env) (s : StreamServer) (data : Bytes) (sender : Endpoint)
    (via : Transport) : Prop :=
  ∀ a peer payload,
    relayRequest host env s.dispatcher.manager data sender = some (a, peer, payload) →
    match s.dispatcher.manager.find s.dispatcher.manager.byRelay peer with
    | none => (s.table via).lookup (endpointKey peer) = none
    | some (_, b) => (s.table via).lookup (endpointKey b.clientAddr) = none ∨
        payload.length ≤ 65516 ∨ (byteAt data 0 &&& 0xC0 = 0x40 ∧
          peerChannel env.order b a.relayedAddr ≠ 0 ∧ payload.length ≤ 65532)

/-- The same of a peer's datagram that is passed on to a client. -/
def PeerDataFramed (env : Env) (s : StreamServer) (data : Bytes) (peer relayAddr : Endpoint) :
    Prop :=
  ∀ via q b, s.dispatcher.currentTransport = some via →
    s.dispatcher.manager.find s.dispatcher.manager.byRelay relayAddr = some (q, b) →
    b.hasPermission env.now peer.address = true →
    (s.table via).lookup (endpointKey b.clientAddr) = none ∨ data.length ≤ 65516 ∨
      ((b.findChannelByPeer env.order env.now peer).isSome ∧ data.length ≤ 65532)

def EventFramed (host : Host) (env : Env) (s : StreamServer) : Event → Prop
  | .packet data sender via => RequestFramed host env s data sender via
  | .peerData data peer relayAddr => PeerDataFramed env s data peer relayAddr

theorem packet_framed {s : StreamServer} (realm : cfg.realm.length % 65536 ≤ 65472)
    (reached : Reachable (turnServer host cfg) s.dispatcher)
    (framed : RequestFramed host env s data sender via)
    (taken : s.dispatcher.onPacket host cfg env data sender via = .ok (d', out))
    (member : sent ∈ out) :
    (s.table sent.via).lookup (endpointKey sent.dest) = none ∨ IsFrame sent.data := by
  rcases onPacket_relayed taken member with
    ⟨msg, class_ne, answered⟩ | ⟨rfl, a, peer, payload, request, relayed⟩
  · exact .inr (.inl (reply_frame realm class_ne answered member))
  · have condition := framed a peer payload request
    obtain ⟨datagram, onto⟩ := sent
    cases relayed with
    | raw outside =>
      simp only [outside] at condition
      exact .inl condition
    | indication q b ip inside unbound =>
      simp only [inside] at condition
      rcases condition with absent | small | ⟨channel, bound, _⟩
      · exact .inl absent
      · exact .inr (isFrame_dataIndication _ _ _ small)
      · exact absurd (unbound channel) bound
    | channel q b inside channel bound =>
      simp only [inside] at condition
      obtain ⟨binding, found, _⟩ := RelayDelivery.peerChannel_bound bound
      have lives := ((serverInv_of_reachable reached).tables.relay_exact inside).2
      have valid := channel_range reached lives found
      rcases condition with absent | small | ⟨_, _, small⟩
      · exact .inl absent
      · exact .inr (.inr (isChannelFrame_makeChannelData valid (by omega)).1)
      · exact .inr (.inr (isChannelFrame_makeChannelData valid small).1)

theorem peerData_framed {s : StreamServer} (cfg : Config)
    (reached : Reachable (turnServer host cfg) s.dispatcher)
    (framed : PeerDataFramed env s data peer relayAddr)
    (member : sent ∈ s.dispatcher.callback
      (s.dispatcher.manager.handlePeerData host cfg.manager env data peer relayAddr)) :
    (s.table sent.via).lookup (endpointKey sent.dest) = none ∨ IsFrame sent.data := by
  unfold callback at member
  split at member
  · simp at member
  · rename_i via current
    obtain ⟨datagram, inside, rfl⟩ := List.mem_map.mp member
    unfold handlePeerData at inside
    split at inside
    · simp at inside
    · rename_i q b found
      split at inside
      · simp at inside
      · rename_i permitted
        have condition := framed via q b current found (by simpa using permitted)
        simp only [Config.manager, Bool.not_true, Bool.false_eq_true, ↓reduceIte] at inside
        split at inside
        · rename_i channel bound
          obtain rfl := List.mem_singleton.mp inside
          have lives := ((serverInv_of_reachable reached).tables.relay_exact found).2
          obtain ⟨num, listed⟩ : ∃ num, b.channels.lookup num = some channel := by
            unfold Allocation.findChannelByPeer at bound
            obtain ⟨entry, hit, rfl⟩ := Option.map_eq_some_iff.mp bound
            exact ⟨entry.1, UnorderedMap.mem_iterate.mp (List.mem_of_find?_eq_some hit)⟩
          have valid := channel_range reached lives listed
          rw [← numbered_of_reachable reached q b lives num channel listed] at valid
          rcases condition with absent | small | ⟨_, small⟩
          · exact .inl absent
          · exact .inr (.inr (isChannelFrame_makeChannelData valid (by omega)).1)
          · exact .inr (.inr (isChannelFrame_makeChannelData valid small).1)
        · rename_i unbound
          obtain rfl := List.mem_singleton.mp inside
          rcases condition with absent | small | ⟨bound, _⟩
          · exact .inl absent
          · exact .inr (isFrame_dataIndication _ _ _ small)
          · simp [unbound] at bound

/-- Whatever the dispatcher sends in such a step is a frame, or finds no session. -/
theorem step_framed {s : StreamServer} {event : Event}
    (realm : cfg.realm.length % 65536 ≤ 65472)
    (reached : Reachable (turnServer host cfg) s.dispatcher)
    (framed : EventFramed host env s event)
    (taken : (turnServer host cfg).step s.dispatcher (event, env) = .ok (d', out))
    (member : sent ∈ out) :
    (s.table sent.via).lookup (endpointKey sent.dest) = none ∨ IsFrame sent.data := by
  cases event with
  | packet data sender via => exact packet_framed realm reached framed taken member
  | peerData data peer relayAddr =>
    obtain ⟨_, rfl⟩ := Prod.mk.inj (Except.ok.inj taken)
    exact peerData_framed cfg reached framed member

/-! ## Runs -/

theorem framed_append (framed : Framed stream) (frame : IsFrame f) : Framed (stream ++ f) := by
  obtain ⟨frames, each, rfl⟩ := framed
  refine ⟨frames ++ [f], ?_, by simp⟩
  intro g member
  rcases List.mem_append.mp member with old | new
  · exact each g old
  · rwa [List.mem_singleton.mp new]

/-- Every stream so far is a sequence of frames. -/
def AllFramed (s : StreamServer) : Prop :=
  ∀ session ∈ s.sessions, Framed session.written.flatten

/-- A change of sessions that leaves what was written alone. -/
theorem AllFramed.modify {s : StreamServer} (framed : AllFramed s) (i : Nat)
    (change : StreamSession → StreamSession)
    (keeps : ∀ session, Framed session.written.flatten → Framed (change session).written.flatten) :
    ∀ session ∈ s.sessions.modify i change, Framed session.written.flatten := by
  intro session member
  obtain ⟨j, bound, rfl⟩ := List.getElem_of_mem member
  rw [List.getElem_modify]
  split
  · exact keeps _ (framed _ (List.getElem_mem _))
  · exact framed _ (List.getElem_mem _)

@[simp] theorem send_dispatcher (s : StreamServer) (sent : Sent) :
    (s.send sent).dispatcher = s.dispatcher := by
  unfold StreamServer.send
  split <;> rfl

@[simp] theorem send_table (s : StreamServer) (sent : Sent) (via : Transport) :
    (s.send sent).table via = s.table via := by
  unfold StreamServer.send
  split <;> cases via <;> rfl

theorem AllFramed.send {s : StreamServer} (framed : AllFramed s)
    (fine : (s.table sent.via).lookup (endpointKey sent.dest) = none ∨ IsFrame sent.data) :
    AllFramed (s.send sent) := by
  unfold StreamServer.send
  split
  · exact framed
  · rename_i i located
    rcases fine with absent | frame
    · simp [absent] at located
    · refine framed.modify i _ fun session whole => ?_
      simpa using framed_append whole frame

theorem AllFramed.sendAll {s : StreamServer} (framed : AllFramed s)
    (fine : ∀ sent ∈ out, (s.table sent.via).lookup (endpointKey sent.dest) = none ∨
      IsFrame sent.data) : AllFramed (out.foldl StreamServer.send s) := by
  induction out generalizing s with
  | nil => exact framed
  | cons sent out ih =>
    refine ih (framed.send (fine sent List.mem_cons_self)) fun later member => ?_
    rw [send_table]
    exact fine later (List.mem_cons_of_mem _ member)

@[simp] theorem removeSession_sessions (s : StreamServer) (session : StreamSession) :
    (s.removeSession session).sessions = s.sessions ∧
      (s.removeSession session).dispatcher = s.dispatcher := by
  unfold StreamServer.removeSession
  split <;> exact ⟨rfl, rfl⟩

theorem AllFramed.setReads {s : StreamServer} (framed : AllFramed s) (i : Nat)
    (reads : Option ReadState) : AllFramed (s.setReads i reads) :=
  framed.modify i _ fun _ whole => whole

theorem AllFramed.removeSession {s : StreamServer} (framed : AllFramed s)
    (session : StreamSession) : AllFramed (s.removeSession session) := by
  unfold AllFramed
  rwa [(removeSession_sessions s session).1]

/-- The transports' own bookkeeping writes nothing. -/
theorem AllFramed.socket {s : StreamServer} (framed : AllFramed s) (event : SocketEvent) :
    AllFramed (s.socket event) := by
  unfold StreamServer.socket
  split
  · rename_i kind sender
    intro session member
    have known : session ∈ s.sessions ∨ session.written = [] := by
      cases kind <;> simp only [StreamServer.accept, List.mem_append, List.mem_singleton] at member
      all_goals
        rcases member with old | rfl
        · exact .inl old
        · exact .inr rfl
    rcases known with old | new
    · exact framed session old
    · exact ⟨[], by simp, by simp [new]⟩
  · split
    · split
      · simp only
        split
        · exact (framed.setReads _ _).removeSession _
        · exact framed.setReads _ _
      · exact framed
    · exact framed
  · split
    · split
      · exact framed.setReads _ _
      · exact framed
    · exact framed
  · split
    · exact (framed.setReads _ _).removeSession _
    · exact framed
  · split
    · exact framed.removeSession _
    · exact framed
  · exact framed

@[simp] theorem socket_dispatcher (s : StreamServer) (event : SocketEvent) :
    (s.socket event).dispatcher = s.dispatcher := by
  unfold StreamServer.socket
  split
  · rename_i kind sender
    cases kind <;> rfl
  · split
    · split
      · simp only
        split
        · exact (removeSession_sessions _ _).2
        · rfl
      · rfl
    · rfl
  · split
    · split <;> rfl
    · rfl
  · split
    · exact (removeSession_sessions _ _).2
    · rfl
  · split
    · exact (removeSession_sessions _ _).2
    · rfl
  · rfl

/-- An event that reaches the dispatcher leaves the tables of sessions alone. -/
theorem socket_table {s : StreamServer} {event : SocketEvent}
    (reaches : s.packet event = some e) (via : Transport) :
    (s.socket event).table via = s.table via := by
  cases event with
  | byte i b =>
    simp only [StreamServer.socket]
    split
    · split <;> cases via <;> rfl
    · rfl
  | datagram data sender dtls => rfl
  | peerData data peer relayAddr => rfl
  | accept | handshake | readError | writeError => simp [StreamServer.packet] at reaches

/-- What one step can do: the bookkeeping alone, or a step of the dispatcher and
the sending of what it sends. -/
theorem stream_step {t : Transition StreamServer (SocketEvent × Env) (List Sent)}
    (taken : (streamServer host cfg).Takes t) :
    (t.before.packet t.input.1 = none ∧ t.after = t.before.socket t.input.1) ∨
    ∃ event dispatcher, t.before.packet t.input.1 = some event ∧
      (turnServer host cfg).step t.before.dispatcher (event, t.input.2) =
        .ok (dispatcher, t.output) ∧
      t.after = t.output.foldl StreamServer.send
        { t.before.socket t.input.1 with dispatcher } := by
  unfold Machine.Takes streamServer at taken
  simp only at taken
  split at taken
  · simp at taken
  · split at taken
    · rename_i quiet
      exact .inl ⟨quiet, (Prod.mk.inj (Except.ok.inj taken)).1.symm⟩
    · rename_i event reaches
      split at taken
      · simp at taken
      · rename_i dispatcher out stepped
        obtain ⟨after, rfl⟩ := Prod.mk.inj (Except.ok.inj taken)
        exact .inr ⟨event, dispatcher, reaches, stepped, after.symm⟩

theorem sendAll_dispatcher (s : StreamServer) (out : List Sent) :
    (out.foldl StreamServer.send s).dispatcher = s.dispatcher := by
  induction out generalizing s with
  | nil => rfl
  | cons sent out ih => rw [List.foldl_cons, ih, send_dispatcher]

/-- The step's condition, at the state before it. -/
def StepFramed (host : Host) (t : Transition StreamServer (SocketEvent × Env) (List Sent)) : Prop :=
  ∀ event, t.before.packet t.input.1 = some event → EventFramed host t.input.2 t.before event

/-- **When streams carry only frames.** In every run in which no relay request
names an outside peer that has a session on the request's own transport, and
none hands a client with a session more than a frame holds, everything written
to every session is a sequence of complete frames; the realm must leave a
challenge room in its length field. -/
theorem streams_framed (host : Host) (cfg : Config) (realm : cfg.realm.length % 65536 ≤ 65472)
    (run : Run (streamServer host cfg) ts s) (framed : ∀ t ∈ ts, StepFramed host t) :
    ∀ session ∈ s.sessions, Framed session.written.flatten := by
  -- The dispatcher behind the sockets is one the dispatcher alone can reach.
  have inv : Reachable (turnServer host cfg) s.dispatcher ∧ AllFramed s := by
    refine run.invariant_when
      (fun s => Reachable (turnServer host cfg) s.dispatcher ∧ AllFramed s) (StepFramed host)
      ⟨⟨[], .start⟩, by simp [AllFramed, streamServer, StreamServer.init]⟩ ?_ framed
    rintro t ⟨reached, before⟩ taken meets
    rcases stream_step taken with ⟨_, after⟩ | ⟨event, dispatcher, reaches, stepped, after⟩
    · rw [after]
      exact ⟨by rwa [socket_dispatcher], before.socket _⟩
    · obtain ⟨ts', run'⟩ := reached
      rw [after, sendAll_dispatcher]
      refine ⟨⟨_, .step run' stepped⟩, ?_⟩
      refine AllFramed.sendAll (s := { t.before.socket t.input.1 with dispatcher })
        (before.socket t.input.1) fun sent member => ?_
      have fine := step_framed realm ⟨ts', run'⟩ (meets event reaches) stepped member
      rwa [← socket_table reaches] at fine
  exact inv.2

/-- Bytes that arrive at a session. -/
def arrive (session : Nat) (data : Bytes) : List (SocketEvent × Env) :=
  data.map fun b => (.byte session b, Deployment.surroundings 0)

/-- A client connects over TCP and is challenged. -/
theorem streams_framed_challenge :
    ∃ ts s, Run (streamServer Deployment.host Deployment.config) ts s ∧
      (∀ t ∈ ts, StepFramed Deployment.host t) ∧ (∃ session ∈ s.sessions, session.written ≠ []) ∧
      ∀ session ∈ s.sessions, Framed session.written.flatten := by
  obtain ⟨ts, s, run, check⟩ := Run.of_exec (streamServer Deployment.host Deployment.config)
    ((.accept .tcp Deployment.aliceAddr, Deployment.surroundings 0) ::
      arrive 0 (MessageBuilder.new .allocate .request (Vector.replicate 12 0)).build)
    (fun ts s => (ts.all fun t => match t.before.packet t.input.1 with
        | some (.packet data sender _) => (relayRequest Deployment.host t.input.2
            t.before.dispatcher.manager data sender).isNone
        | some (.peerData ..) => false
        | none => true) && s.sessions.any fun session => session.written ≠ []) (by decide +kernel)
  obtain ⟨quiet, written⟩ := Bool.and_eq_true_iff.mp check
  have framed : ∀ t ∈ ts, StepFramed Deployment.host t := by
    intro t member event reaches
    have asks := List.all_eq_true.mp quiet t member
    cases event with
    | packet data sender via =>
      intro a peer payload request
      simp [reaches, request] at asks
    | peerData data peer relayAddr => simp [reaches] at asks
  exact ⟨ts, s, run, framed, by simpa using written,
    streams_framed Deployment.host Deployment.config (by decide) run framed⟩

/-- A CreatePermission of the first account for the address of the second. -/
def permitBob : Bytes :=
  Deployment.unsigned .createPermission .request 3
    (Deployment.credentials Deployment.alice ++
      [⟨AttrType.xorPeerAddress, MessageBuilder.xorAddress 0xC6336402 0⟩])

def permitBobMac : Vector UInt8 20 :=
  #v[232, 254, 116, 208, 183, 125, 44, 120, 221, 71, 198, 240, 231, 110, 143, 49, 11, 89, 106, 235]

/-- The deployment's host, which knows this packet's digest too. -/
def streamHost : Host :=
  { Deployment.host with
    hmacSha1 := fun key data =>
      if key = Deployment.alice.key.toList ∧ data = permitBob then permitBobMac
      else Deployment.host.hmacSha1 key data }

/-- The first account's Send indication to the second client's own endpoint. -/
def sendToClient : Bytes :=
  (addAttrs (MessageBuilder.new .send .indication (Vector.replicate 12 4))
    [⟨AttrType.xorPeerAddress, MessageBuilder.xorAddress 0xC6336402 4000⟩,
      ⟨AttrType.data, [104, 105]⟩]).build

/-- Two clients connect over TCP. The first allocates, permits the address of the
second and sends to its endpoint. -/
def rawIntoStream : List (SocketEvent × Env) :=
  [(.accept .tcp Deployment.aliceAddr, Deployment.surroundings 0),
    (.accept .tcp Deployment.bobAddr, Deployment.surroundings 0)] ++
  arrive 0 (MessageBuilder.new .allocate .request (Vector.replicate 12 0)).build ++
  arrive 0 (Deployment.signed (Deployment.allocateBy Deployment.alice 1)
    Deployment.allocateAliceMac) ++
  arrive 0 (Deployment.signed permitBob permitBobMac) ++
  arrive 0 sendToClient

/-- A frame is at least as long as the shorter header. -/
theorem framed_length (framed : Framed stream) : stream = [] ∨ 4 ≤ stream.length := by
  obtain ⟨frames, each, rfl⟩ := framed
  cases frames with
  | nil => exact .inl rfl
  | cons f frames =>
    have size : 4 ≤ f.length := by
      rcases each f List.mem_cons_self with ⟨_, size⟩ | ⟨_, _, size⟩ <;> omega
    refine .inr ?_
    rw [List.flatten_cons, List.length_append]
    omega

/-- The second client has sent nothing, and two bytes of the first one's choice
stand in its stream. -/
theorem raw_payload_in_stream : ¬ ∀ host cfg ts s, Run (streamServer host cfg) ts s →
    ∀ session ∈ s.sessions, Framed session.written.flatten := by
  intro all
  obtain ⟨ts, s, run, check⟩ := Run.of_exec (streamServer streamHost Deployment.config)
    rawIntoStream (fun _ s => s.sessions.any fun session => session.written = [[104, 105]])
    (by decide +kernel)
  obtain ⟨session, member, written⟩ := by simpa using check
  rcases framed_length (all _ _ ts s run session member) with empty | long
  · simp [written] at empty
  · simp [written] at long

end Zaza.StreamSafety
