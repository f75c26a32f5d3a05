import Zaza.RelaySafety

/-!
Relay to relay, end to end: what one client addresses to the relayed address of
another is handed to that client byte for byte, in the sender's name.

`Asks` reads the request out of the packet that comes in and `Carries` reads the
delivery out of the packet that goes out, both with the server's own decoders.
Between them stand the lookups in both tables, the reverse lookup of a channel
and the two encoders.
-/
namespace Zaza.RelayDelivery
open Zaza StunCodec AllocationManager AllocationSteps AllocationInvariant TurnDispatcher
open DispatcherSteps RelaySteps RelaySafety

/-- The packet asks for `payload` to be passed on to `peer`: a Send indication,
or ChannelData on a channel the allocation binds to that peer. -/
inductive Asks (host : Host) (a : Allocation) (peer : Endpoint) (payload data : Bytes) : Prop where
  | send (msg : TurnMessage) (peerAttr dataAttr : Attribute) (parsed : parse data = .ok msg)
      (kind : msg.msgClass = .indication ∧ msg.method = .send)
      (addressed : msg.findAttr AttrType.xorPeerAddress = some peerAttr)
      (long : 8 ≤ peerAttr.value.length) (names : peerEndpoint host peerAttr.value = peer)
      (filled : msg.findAttr AttrType.data = some dataAttr) (holds : dataAttr.value = payload)
  | channel (ch : UInt16) (binding : ChannelBinding)
      (parsed : parseChannelData data = .ok ⟨ch, payload⟩)
      (bound : a.channels.lookup ch = some binding) (names : binding.peer = peer)

/-- The packet carries `payload` in the name of `source` to the client of an
allocation: a Data indication, or ChannelData on a channel that the allocation
binds to the source. -/
inductive Carries (host : Host) (b : Allocation) (source : Endpoint) (payload data : Bytes) :
    Prop where
  | indication (msg : TurnMessage) (peerAttr dataAttr : Attribute) (parsed : parse data = .ok msg)
      (kind : msg.msgClass = .indication ∧ msg.method = .data)
      (addressed : msg.findAttr AttrType.xorPeerAddress = some peerAttr)
      (long : 8 ≤ peerAttr.value.length) (names : peerEndpoint host peerAttr.value = source)
      (filled : msg.findAttr AttrType.data = some dataAttr) (holds : dataAttr.value = payload)
  | channel (ch : UInt16) (binding : ChannelBinding)
      (parsed : parseChannelData data = .ok ⟨ch, payload⟩)
      (bound : b.channels.lookup ch = some binding) (names : binding.peer = source)

variable {host : Host} {cfg : Config} {env : Env} {d : TurnDispatcher} {a b : Allocation}
  {sender peer : Endpoint} {data payload : Bytes}

/-! ## In -/

/-- Every frame with a valid channel number is told apart from STUN. -/
theorem channelData_top (parsed : parseChannelData data = .ok frame) :
    byteAt data 0 &&& 0xC0 = 0x40 := by
  have range : 0x4000 ≤ word16 data 0 ∧ word16 data 0 ≤ 0x4FFF := by
    by_contra outside
    have outside : word16 data 0 < 0x4000 ∨ word16 data 0 > 0x4FFF := by
      simpa only [not_and_or, UInt16.not_le] using outside
    unfold parseChannelData at parsed
    split at parsed
    · simp at parsed
    · simp [outside] at parsed
  have low : 0x4000 ≤ (word16 data 0).toNat := UInt16.le_iff_toNat_le.mp range.1
  have high : (word16 data 0).toNat ≤ 0x4FFF := UInt16.le_iff_toNat_le.mp range.2
  rw [word16, toNat_be16] at low high
  have first := (byteAt data 0).toNat_lt
  have second := (byteAt data (0 + 1)).toNat_lt
  have lead : 0x40 ≤ (byteAt data 0).toNat ∧ (byteAt data 0).toNat < 0x50 := by omega
  have masked : ∀ n < 0x50, 0x40 ≤ n → n &&& 0xC0 = 0x40 := by decide
  apply UInt8.toNat_inj.mp
  rw [UInt8.toNat_and]
  exact masked _ lead.2 lead.1

/-- What a packet asks for is its relay request, once the peer is permitted. -/
theorem relayRequest_of_asks {m : AllocationManager} (found : m.findByClient sender = some a)
    (permitted : a.hasPermission env.now peer.address = true)
    (asks : Asks host a peer payload data) :
    relayRequest host env m data sender = some (a, peer, payload) := by
  cases asks with
  | send msg peerAttr dataAttr parsed kind addressed long names filled holds =>
    subst names holds
    simp [relayRequest, parsed, kind, sendRequest, found, addressed, filled, long, permitted]
  | channel ch binding parsed bound names =>
    subst names
    have top := channelData_top parsed
    have rejected : ∃ e, parse data = .error e := by
      unfold parse
      split
      · exact ⟨_, rfl⟩
      · rw [if_pos (by rw [top]; decide)]
        exact ⟨_, rfl⟩
    obtain ⟨e, rejected⟩ := rejected
    simp [relayRequest, rejected, top, channelRequest, parsed, found, bound, permitted]

/-! ## Out -/

/-- A Data indication carries its payload in the name of the address in it. -/
theorem carries_dataIndication (tid : TransactionId) (ip : UInt32) (port : UInt16)
    (small : payload.length ≤ 65516) :
    Carries host b ⟨host.addressToString ip, port⟩ payload
      (makeDataIndication tid ip port payload) := by
  have fits : encodedSize [⟨AttrType.xorPeerAddress, MessageBuilder.xorAddress ip port⟩,
      ⟨AttrType.data, payload⟩] ≤ 65535 := by
    have address : (MessageBuilder.xorAddress ip port).length = 8 := rfl
    simp only [encodedSize, List.map_cons, List.map_nil, List.sum_cons, List.sum_nil, attrSize,
      address, padding]
    split <;> split <;> omega
  have parsed := parse_encodeMessage .data .indication tid [] fits
  rw [List.append_nil, ← build_addAttrs _ _ _ fits] at parsed
  exact .indication _ ⟨AttrType.xorPeerAddress, _⟩ ⟨AttrType.data, payload⟩ parsed ⟨rfl, rfl⟩
    rfl (by simp [MessageBuilder.xorAddress]) (peerEndpoint_xorAddress _ ip port) rfl rfl

/-- The channel found for a peer is bound to it. -/
theorem peerChannel_bound (nonzero : peerChannel order b peer ≠ 0) :
    ∃ binding, b.channels.lookup (peerChannel order b peer) = some binding ∧
      binding.peer = peer := by
  unfold peerChannel at nonzero ⊢
  split at nonzero
  · rename_i entry found
    exact ⟨entry.2, channelTo_bound found⟩
  · exact absurd rfl nonzero

/-- **Relay-to-relay delivery is exact.** In every reachable state of a server
whose relay address is IPv4 text, when a client whose allocation permits that
address asks for a payload of at most 65516 bytes to be passed on to the
relayed address of a live allocation, exactly one packet is sent, to that
allocation's client; it decodes to the same payload, and its source is the
sender's relayed address. -/
theorem relay_delivery (host : Host) (cfg : Config) (law : host.AddressesRoundTrip)
    (canonical : cfg.relayAddress = host.addressToString ip)
    (reached : Reachable (turnServer host cfg) d)
    (mine : d.manager.findByClient sender = some a)
    (permitted : a.hasPermission env.now cfg.relayAddress = true)
    (lives : Live d.manager q b) (small : payload.length ≤ 65516)
    (asks : Asks host a b.relayedAddr payload data) :
    ∃ d' sent, d.onPacket host cfg env data sender via = .ok (d', [sent]) ∧
      sent.dest = b.clientAddr ∧ Carries host b a.relayedAddr payload sent.data := by
  have inv := (serverInv_of_reachable reached).tables
  obtain ⟨p, located⟩ := findByClient_eq_some.mp mine
  have relayed : a.relayedAddr = ⟨host.addressToString ip, a.relayedAddr.port⟩ := by
    rw [← canonical, ← show a.relayedAddr.address = cfg.relayAddress from
      (inv.relayed p a (live_of_find located)).1]
  have address : b.relayedAddr.address = cfg.relayAddress := (inv.relayed q b lives).1
  have request := relayRequest_of_asks mine (by rwa [address]) asks
  have text : host.makeAddressV4 a.relayedAddr.address = some ip := by
    rw [relayed]
    exact law ip
  obtain ⟨d', frame, sends, shape⟩ := relay_local cfg via request
    (inv.live_relay lives) text
  refine ⟨d', _, sends, rfl, ?_⟩
  rcases shape with rfl | ⟨nonzero, rfl⟩
  · rw [relayed]
    exact carries_dataIndication zeroTid ip _ small
  · obtain ⟨binding, bound, names⟩ := peerChannel_bound nonzero
    have valid := ((clean_of_reachable reached q b lives).channels _ binding bound).1
    have parsed : parseChannelData (makeChannelData _ payload ++ []) = .ok _ :=
      parseChannelData_makeChannelData valid (by omega) []
    rw [List.append_nil] at parsed
    exact .channel _ binding parsed bound names

/-- One account's Send indication reaches the other. -/
theorem relay_delivery_sample :
    ∃ d a b, Reachable (turnServer Deployment.host Deployment.config) d ∧
      d.manager.findByClient Deployment.aliceAddr = some a ∧ Live d.manager 1 b ∧
      ∃ d' sent, d.onPacket Deployment.host Deployment.config (Deployment.surroundings 0)
          (Deployment.sendToBob [104, 105]) Deployment.aliceAddr .udp = .ok (d', [sent]) ∧
        sent.dest = b.clientAddr ∧
        Carries Deployment.host b a.relayedAddr [104, 105] sent.data := by
  obtain ⟨ts, d, run, check⟩ := Run.of_exec (turnServer Deployment.host Deployment.config)
    (Deployment.bothAllocate .udp)
    (fun _ d =>
      (d.manager.findByClient Deployment.aliceAddr).any (fun a => a.hasPermission
        (Deployment.surroundings 0).now Deployment.config.relayAddress) &&
      d.manager.heap[1]?.any (·.relayedAddr = ⟨Deployment.config.relayAddress, 50001⟩) &&
      d.manager.byClient.lookup (endpointKey Deployment.bobAddr) = some 1) (by decide +kernel)
  simp only [Bool.and_eq_true, Option.any_eq_true, decide_eq_true_eq] at check
  obtain ⟨⟨⟨a, mine, permitted⟩, b, held, relayed⟩, known⟩ := check
  have canonical : Deployment.config.relayAddress =
      Deployment.host.addressToString Deployment.relayIp := by decide +kernel
  have fits : encodedSize [⟨AttrType.xorPeerAddress,
      MessageBuilder.xorAddress Deployment.relayIp 50001⟩, ⟨AttrType.data, [104, 105]⟩] ≤
      65535 := by
    decide
  have parsed := parse_encodeMessage .send .indication (Vector.replicate 12 4) [] fits
  rw [List.append_nil, ← build_addAttrs _ _ _ fits] at parsed
  have asks : Asks Deployment.host a b.relayedAddr [104, 105] (Deployment.sendToBob [104, 105]) :=
    .send _ _ _ parsed ⟨rfl, rfl⟩ rfl (by decide)
      ((peerEndpoint_xorAddress _ _ _).trans (by rw [relayed, canonical])) rfl rfl
  exact ⟨d, a, b, ⟨ts, run⟩, mine, ⟨held, _, known⟩,
    relay_delivery Deployment.host Deployment.config Host.posix_roundTrip canonical ⟨ts, run⟩ mine
      permitted ⟨held, _, known⟩ (by decide) asks⟩

end Zaza.RelayDelivery
