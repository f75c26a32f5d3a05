import Zaza.ChannelExpiry

/-!
Three copies of one decision.

Data for a client is framed as ChannelData when its allocation has a channel for the
source, and as a Data indication otherwise. `handlePeerData` decides by the channels
that have not expired; `handleSend` never looks at them; `handleChannelData` looks at
all of them, and gives up where the relay address is no IPv4 text. So the shortcuts
between two allocations of the server deliver what the general path would exactly where
these differences do not show (`local_agrees_iff`).
-/
namespace Zaza.LocalDelivery
open Zaza AllocationManager AllocationSteps AllocationInvariant TurnDispatcher DispatcherSteps
open RelaySteps StunCodec ChannelExpiry

variable {host : Host} {cfg : Config} {env : Env} {d : TurnDispatcher} {data payload : Bytes}
  {client peer : Endpoint} {via : Transport} {msg : TurnMessage} {a b : Allocation} {q : Ptr}
  {order : IterOrder} {now : TimePoint} {num : UInt16} {binding : ChannelBinding}

/-- The bytes and the destination of what is sent. -/
def packets (datagrams : List Datagram) : List (Bytes × Endpoint) :=
  datagrams.map fun datagram => (datagram.data, datagram.dest)

/-- A Send indication with this peer and payload. -/
structure AsksToSend (host : Host) (msg : TurnMessage) (peer : Endpoint) (payload : Bytes) :
    Prop where
  addressed : ∃ peerAttr, msg.findAttr AttrType.xorPeerAddress = some peerAttr ∧
    8 ≤ peerAttr.value.length ∧ peerEndpoint host peerAttr.value = peer
  filled : (msg.findAttr AttrType.data).map Attribute.value = some payload

/-- A ChannelData message with this payload, on a channel to this peer. -/
def AsksOnChannel (a : Allocation) (data : Bytes) (peer : Endpoint) (payload : Bytes) : Prop :=
  ∃ num binding, parseChannelData data = .ok ⟨num, payload⟩ ∧
    a.channels.lookup num = some binding ∧ binding.peer = peer

/-- The frame of the general path: ChannelData on an unexpired channel of the receiver,
else a Data indication. -/
def generalFrame (host : Host) (env : Env) (a b : Allocation) (payload : Bytes) : Bytes :=
  match b.findChannelByPeer env.order env.now a.relayedAddr with
  | some ch => makeChannelData ch.channelNumber payload
  | none => makeDataIndication zeroTid ((host.makeAddressV4 a.relayedAddr.address).getD 0)
      a.relayedAddr.port payload

/-- The receiver's first channel to the sender has not expired; or there is none, and the
sender's relayed address is IPv4 text. -/
def backLive (host : Host) (env : Env) (a b : Allocation) : Bool :=
  match backBinding env.order b a.relayedAddr with
  | some (_, back) => env.now < back.expiresAt
  | none => (host.makeAddressV4 a.relayedAddr.address).isSome

/-! ## The two lookups -/

/-- Without a binding to the peer there is no unexpired one. -/
theorem findChannelByPeer_none (now : TimePoint) (unbound : backBinding order b peer = none) :
    b.findChannelByPeer order now peer = none := by
  unfold backBinding at unbound
  rw [Allocation.findChannelByPeer, Option.map_eq_none_iff, List.find?_eq_none]
  intro entry member
  have other := List.find?_eq_none.mp unbound entry member
  simp only [decide_eq_true_eq] at other ⊢
  exact fun ⟨address, port, _⟩ => other ⟨address, port⟩

/-- The first binding to the peer is the one that is found, unless it has expired. -/
theorem findChannelByPeer_first (bound : backBinding order b peer = some (num, binding))
    (live : now < binding.expiresAt) : b.findChannelByPeer order now peer = some binding := by
  unfold backBinding at bound
  obtain ⟨matching, front, behind, split, earlier⟩ := List.find?_eq_some_iff_append.mp bound
  simp only [decide_eq_true_eq] at matching
  have first : (b.channels.iterate order).find? (fun entry =>
      entry.2.peer.address = peer.address ∧ entry.2.peer.port = peer.port ∧
        now < entry.2.expiresAt) = some (num, binding) := by
    refine List.find?_eq_some_iff_append.mpr ⟨?_, front, behind, split, fun entry member => ?_⟩
    · simpa only [decide_eq_true_eq] using ⟨matching.1, matching.2, live⟩
    · have other := earlier entry member
      simp only [Bool.not_eq_true', decide_eq_false_iff_not] at other ⊢
      exact fun ⟨address, port, _⟩ => other ⟨address, port⟩
  rw [Allocation.findChannelByPeer, first]
  rfl

/-- What is found is a binding to the peer that has not expired. -/
theorem findChannelByPeer_found (found : b.findChannelByPeer order now peer = some binding) :
    ∃ num, b.channels.lookup num = some binding ∧ now < binding.expiresAt := by
  obtain ⟨entry, hit, rfl⟩ := Option.map_eq_some_iff.mp found
  have matching := List.find?_some hit
  simp only [decide_eq_true_eq] at matching
  exact ⟨entry.1, UnorderedMap.mem_iterate.mp (List.mem_of_find?_eq_some hit), matching.2.2⟩

/-! ## The frames -/

theorem indication_ne_channel (valid : 0x4000 ≤ num ∧ num ≤ 0x7FFF) (ip : UInt32)
    (port : UInt16) : makeDataIndication zeroTid ip port payload ≠ makeChannelData num payload := by
  intro same
  have kinds := congrArg isChannelData same
  rw [dataIndication_not_channel, (makeChannelData_is_channel valid payload).1] at kinds
  cases kinds

/-- A channel that is found can start a frame. -/
theorem findChannelByPeer_range (reached : Reachable (turnServer host cfg) d)
    (lives : Live d.manager q b)
    (found : b.findChannelByPeer order now peer = some binding) :
    0x4000 ≤ binding.channelNumber ∧ binding.channelNumber ≤ 0x7FFF := by
  obtain ⟨num, listed, _⟩ := findChannelByPeer_found found
  rw [StreamSafety.numbered_of_reachable reached q b lives num binding listed]
  exact StreamSafety.channel_range reached lives listed

/-- `handleSend`'s frame is the general one exactly if no unexpired channel is found. -/
theorem send_frame_iff (reached : Reachable (turnServer host cfg) d)
    (lives : Live d.manager q b) :
    makeDataIndication zeroTid ((host.makeAddressV4 a.relayedAddr.address).getD 0)
        a.relayedAddr.port payload = generalFrame host env a b payload ↔
      b.findChannelByPeer env.order env.now a.relayedAddr = none := by
  unfold generalFrame
  cases found : b.findChannelByPeer env.order env.now a.relayedAddr with
  | none => exact iff_of_true rfl rfl
  | some ch =>
    have valid := findChannelByPeer_range reached lives found
    exact iff_of_false (indication_ne_channel valid _ _) (by simp)

/-- `handleChannelData`'s frame is the general one exactly if its first binding to the
sender is live, or there is none to be found. -/
theorem channel_frame_iff (reached : Reachable (turnServer host cfg) d)
    (lives : Live d.manager q b) :
    localFrames host env a b payload = [generalFrame host env a b payload] ↔
      backLive host env a b = true := by
  unfold localFrames backLive
  cases bound : backBinding env.order b a.relayedAddr with
  | none =>
    have unbound := findChannelByPeer_none env.now bound
    simp only [peerChannel_none bound, ne_eq, not_true_eq_false, ↓reduceIte, generalFrame, unbound]
    cases host.makeAddressV4 a.relayedAddr.address with
    | none => simp
    | some ip => simp
  | some entry =>
    obtain ⟨num, back⟩ := entry
    obtain ⟨listed, _⟩ := backBinding_bound bound
    have valid := StreamSafety.channel_range reached lives listed
    have nonzero : num ≠ 0 := by
      rintro rfl
      exact absurd valid.1 (by decide)
    have numbered := StreamSafety.numbered_of_reachable reached q b lives num back listed
    simp only [peerChannel_some bound, ne_eq, nonzero, not_false_eq_true, ↓reduceIte,
      List.cons.injEq, and_true, decide_eq_true_eq]
    by_cases live : env.now < back.expiresAt
    · refine iff_of_true ?_ live
      rw [generalFrame, findChannelByPeer_first bound live]
      simp only [numbered]
    · refine iff_of_false (fun same => ?_) live
      unfold generalFrame at same
      cases found : b.findChannelByPeer env.order env.now a.relayedAddr with
      | none =>
        simp only [found] at same
        exact indication_ne_channel valid _ _ same.symm
      | some ch =>
        simp only [found] at same
        obtain ⟨num', listed', live'⟩ := findChannelByPeer_found found
        have numbered' := StreamSafety.numbered_of_reachable reached q b lives num' ch listed'
        -- The two frames start with their numbers, and one number has one binding.
        have numbers := congrArg (word16 · 0) same
        simp only [(makeChannelData_is_channel valid payload).2,
          (makeChannelData_is_channel (findChannelByPeer_range reached lives found) payload).2]
          at numbers
        rw [numbers, numbered', listed'] at listed
        obtain rfl := Option.some.inj listed
        exact live live'

/-! ## The paths -/

/-- The general path: one packet for the receiver's client. -/
theorem packets_peerData (host : Host) (cfg : Config) (payload : Bytes)
    (receiver : d.manager.find d.manager.byRelay b.relayedAddr = some (q, b))
    (permits : b.hasPermission env.now a.relayedAddr.address = true) :
    packets (d.manager.handlePeerData host cfg.manager env payload a.relayedAddr b.relayedAddr) =
      [(generalFrame host env a b payload, b.clientAddr)] := by
  unfold handlePeerData generalFrame
  rw [receiver]
  simp only [permits, Config.manager, Bool.not_true, Bool.false_eq_true, ↓reduceIte]
  cases b.findChannelByPeer env.order env.now a.relayedAddr <;> rfl

/-- The shortcut of a Send indication: always a Data indication. -/
theorem packets_send (cfg : Config) (mine : d.manager.findByClient client = some a)
    (maySend : a.hasPermission env.now b.relayedAddr.address = true)
    (receiver : d.manager.find d.manager.byRelay b.relayedAddr = some (q, b))
    (asks : AsksToSend host msg b.relayedAddr payload) :
    packets (d.manager.handleSend host cfg.manager env msg client) =
      [(makeDataIndication zeroTid ((host.makeAddressV4 a.relayedAddr.address).getD 0)
        a.relayedAddr.port payload, b.clientAddr)] := by
  obtain ⟨peerAttr, addressed, long, names⟩ := asks.addressed
  obtain ⟨dataAttr, filled, rfl⟩ := Option.map_eq_some_iff.mp asks.filled
  have request : sendRequest host env d.manager msg client =
      some (a, b.relayedAddr, dataAttr.value) := by
    simp only [sendRequest, mine, addressed, filled, names, maySend, long, and_self, ↓reduceIte]
  rw [handleSend_eq, request]
  simp only [receiver, Config.manager, ↓reduceIte]
  rfl

/-- The shortcut of a ChannelData message. -/
theorem packets_channelData (mine : d.manager.findByClient client = some a)
    (maySend : a.hasPermission env.now b.relayedAddr.address = true)
    (receiver : d.manager.find d.manager.byRelay b.relayedAddr = some (q, b))
    (asks : AsksOnChannel a data b.relayedAddr payload) :
    packets ((d.handleChannelData host env data client via).map Sent.toDatagram) =
      (localFrames host env a b payload).map fun frame => (frame, b.clientAddr) := by
  obtain ⟨num, binding, parsed, bound, names⟩ := asks
  have request : channelRequest env d.manager data client = some (a, b.relayedAddr, payload) := by
    simp only [channelRequest, parsed, mine, bound, names, maySend, ↓reduceIte]
  rw [handleChannelData_eq, request]
  simp only [receiver, packets, List.map_map]
  rfl

/-- **When the local shortcut agrees with the general path.** In every reachable state, for
two live allocations that may send to each other: what `handleSend` hands to the receiver's
client is what `handlePeerData` would, exactly if the receiver has no unexpired channel for
the sender; and what `handleChannelData` hands to it is, exactly if the receiver's first
channel for the sender has not expired, or there is none and the relay address is IPv4 text.
The general path gives one packet, ChannelData on an unexpired channel or else a Data
indication. -/
theorem local_agrees_iff (host : Host) (cfg : Config) (env : Env) (d : TurnDispatcher)
    (client : Endpoint) (a b : Allocation) (q : Ptr) (payload : Bytes)
    (reached : Reachable (turnServer host cfg) d) (mine : d.manager.findByClient client = some a)
    (lives : Live d.manager q b)
    (maySend : a.hasPermission env.now b.relayedAddr.address = true)
    (permits : b.hasPermission env.now a.relayedAddr.address = true) :
    (∀ msg, AsksToSend host msg b.relayedAddr payload →
      (packets (d.manager.handleSend host cfg.manager env msg client) =
          packets (d.manager.handlePeerData host cfg.manager env payload a.relayedAddr
            b.relayedAddr) ↔
        b.findChannelByPeer env.order env.now a.relayedAddr = none)) ∧
    (∀ data via, AsksOnChannel a data b.relayedAddr payload →
      (packets ((d.handleChannelData host env data client via).map Sent.toDatagram) =
          packets (d.manager.handlePeerData host cfg.manager env payload a.relayedAddr
            b.relayedAddr) ↔
        backLive host env a b = true)) ∧
    packets (d.manager.handlePeerData host cfg.manager env payload a.relayedAddr
        b.relayedAddr) = [(generalFrame host env a b payload, b.clientAddr)] := by
  have receiver := (serverInv_of_reachable reached).tables.live_relay lives
  have general := packets_peerData host cfg payload receiver permits
  refine ⟨fun msg asks => ?_, fun data via asks => ?_, general⟩
  · rw [packets_send cfg mine maySend receiver asks, general, List.cons.injEq, Prod.mk.injEq]
    simp only [and_true]
    exact send_frame_iff reached lives
  · rw [packets_channelData mine maySend receiver asks, general,
      ← channel_frame_iff reached lives]
    have single : [(generalFrame host env a b payload, b.clientAddr)] =
        [generalFrame host env a b payload].map fun frame => (frame, b.clientAddr) := rfl
    rw [single]
    refine List.map_inj_right fun frame frame' same => ?_
    exact (Prod.mk.inj same).1

/-- Both accounts have a channel to the other's relayed address. -/
def bothBind : List (Event × Env) :=
  Deployment.aliceBinds ++ [(.packet (Deployment.signed Deployment.bindBob Deployment.bindBobMac)
    Deployment.bobAddr .udp, Deployment.atSecond 1)]

/-- A state in which each of the two may send to the other, and each has a channel. -/
theorem both_bound : ∃ d a b q, Reachable (turnServer Deployment.channelHost Deployment.config) d ∧
    d.manager.findByClient Deployment.aliceAddr = some a ∧ Live d.manager q b ∧
    b.relayedAddr = ⟨Deployment.config.relayAddress, 50001⟩ ∧
    a.hasPermission (Deployment.atSecond 2).now b.relayedAddr.address = true ∧
    b.hasPermission (Deployment.atSecond 2).now a.relayedAddr.address = true ∧
    (a.channels.lookup 0x4001).map ChannelBinding.peer = some b.relayedAddr ∧
    (b.findChannelByPeer .listed (Deployment.atSecond 2).now a.relayedAddr).isSome ∧
    backLive Deployment.channelHost (Deployment.atSecond 2) a b = true := by
  obtain ⟨ts, d, run, check⟩ := Run.of_exec (turnServer Deployment.channelHost Deployment.config)
    bothBind (fun _ d => (d.manager.findByClient Deployment.aliceAddr).any fun a =>
      (d.manager.find d.manager.byRelay ⟨Deployment.config.relayAddress, 50001⟩).any fun entry =>
        a.hasPermission (Deployment.atSecond 2).now Deployment.config.relayAddress &&
        entry.2.hasPermission (Deployment.atSecond 2).now a.relayedAddr.address &&
        (a.channels.lookup 0x4001).map ChannelBinding.peer =
          some ⟨Deployment.config.relayAddress, 50001⟩ &&
        (entry.2.findChannelByPeer .listed (Deployment.atSecond 2).now a.relayedAddr).isSome &&
        backLive Deployment.channelHost (Deployment.atSecond 2) a entry.2) (by decide +kernel)
  obtain ⟨a, mine, check⟩ := (Option.any_eq_true _ _).mp check
  obtain ⟨⟨q, b⟩, found, check⟩ := (Option.any_eq_true _ _).mp check
  obtain ⟨relayed, lives⟩ :=
    (serverInv_of_reachable (⟨ts, run⟩ : Reachable _ d)).tables.relay_exact found
  simp only [Bool.and_eq_true, decide_eq_true_eq] at check
  obtain ⟨⟨⟨⟨maySend, permits⟩, bound⟩, back⟩, live⟩ := check
  exact ⟨d, a, b, q, ⟨ts, run⟩, mine, lives, relayed, by rw [relayed]; exact maySend, permits,
    by rw [relayed]; exact bound, back, live⟩

/-- A ChannelData message arrives as the general path would deliver it. -/
theorem local_agrees_iff_channel : ∃ d a b q,
    Reachable (turnServer Deployment.channelHost Deployment.config) d ∧
      d.manager.findByClient Deployment.aliceAddr = some a ∧ Live d.manager q b ∧
      packets ((d.handleChannelData Deployment.channelHost (Deployment.atSecond 2)
          Deployment.onChannel Deployment.aliceAddr .udp).map Sent.toDatagram) =
        packets (d.manager.handlePeerData Deployment.channelHost Deployment.config.manager
          (Deployment.atSecond 2) [104, 105] a.relayedAddr b.relayedAddr) := by
  obtain ⟨d, a, b, q, reached, mine, lives, _, maySend, permits, bound, _, live⟩ := both_bound
  obtain ⟨binding, found, names⟩ := Option.map_eq_some_iff.mp bound
  have agrees := (local_agrees_iff Deployment.channelHost Deployment.config
    (Deployment.atSecond 2) d Deployment.aliceAddr a b q [104, 105] reached mine lives maySend
    permits).2.1 Deployment.onChannel .udp
  exact ⟨d, a, b, q, reached, mine, lives,
    (agrees ⟨0x4001, binding, by decide, found, names⟩).mpr live⟩

/-- The first account's Send indication to the second, as it is parsed. -/
def sendMessage : TurnMessage :=
  ⟨.indication, .send, 20, Vector.replicate 12 4,
    [⟨AttrType.xorPeerAddress, MessageBuilder.xorAddress Deployment.relayIp 50001⟩,
      ⟨AttrType.data, [104, 105]⟩]⟩

/-- A Send indication arrives as a Data indication, although the receiver has a channel. -/
theorem send_ignores_channel : ¬ ∀ host cfg env d client a b q payload,
    Reachable (turnServer host cfg) d → d.manager.findByClient client = some a →
    Live d.manager q b → a.hasPermission env.now b.relayedAddr.address = true →
    b.hasPermission env.now a.relayedAddr.address = true → payload.length ≤ 65516 →
    ∀ msg, AsksToSend host msg b.relayedAddr payload →
      packets (d.manager.handleSend host cfg.manager env msg client) =
        packets (d.manager.handlePeerData host cfg.manager env payload a.relayedAddr
          b.relayedAddr) := by
  intro agrees
  obtain ⟨d, a, b, q, reached, mine, lives, relayed, maySend, permits, _, back, _⟩ := both_bound
  have receiver := (serverInv_of_reachable reached).tables.live_relay lives
  have canonical : Deployment.channelHost.addressToString Deployment.relayIp =
      Deployment.config.relayAddress := by decide +kernel
  have asks : AsksToSend Deployment.channelHost sendMessage b.relayedAddr [104, 105] :=
    ⟨⟨_, rfl, by decide, by rw [peerEndpoint_xorAddress, canonical, relayed]⟩, rfl⟩
  have same := agrees _ _ (Deployment.atSecond 2) d _ a b q _ reached mine lives maySend permits
    (by decide) sendMessage asks
  rw [packets_send Deployment.config mine maySend receiver asks,
    packets_peerData _ Deployment.config _ receiver permits, List.cons.injEq,
    Prod.mk.injEq] at same
  have none := (send_frame_iff reached lives).mp same.1.1
  rw [show (Deployment.atSecond 2).order = .listed from rfl] at none
  simp [none] at back

end Zaza.LocalDelivery
