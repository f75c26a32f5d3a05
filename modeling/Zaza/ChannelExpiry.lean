import Zaza.StreamSafety

/-!
Channels that have expired.

A ChannelBind keeps a channel for 600 seconds and a permission for 300, and
CreatePermission renews the permission alone. `handleChannelData` looks into the
channel map itself, for the way out and for the way to a local client, and asks
only for the permission; so a channel goes on working for as long as its permission
is renewed. Data is passed on by live channels alone exactly if the bindings the
handler picks have not expired yet (`channels_unexpired_iff`).
-/
namespace Zaza.ChannelExpiry
open Zaza AllocationManager AllocationSteps AllocationInvariant TurnDispatcher DispatcherSteps
open RelaySteps StunCodec

variable {host : Host} {cfg : Config} {env : Env} {d : TurnDispatcher} {data : Bytes}
  {sender peer : Endpoint} {via : Transport} {m : AllocationManager} {b : Allocation}
  {order : IterOrder} {num : UInt16} {binding : ChannelBinding}

/-- The binding `handleChannelData` takes for the way to a local client: the first, in
the map's own order, to the sender's relayed address. -/
def backBinding (order : IterOrder) (b : Allocation) (peer : Endpoint) :
    Option (UInt16 × ChannelBinding) :=
  (b.channels.iterate order).find? fun entry =>
    entry.2.peer.address = peer.address ∧ entry.2.peer.port = peer.port

theorem peerChannel_none (unbound : backBinding order b peer = none) :
    peerChannel order b peer = 0 := by
  unfold backBinding at unbound
  rw [peerChannel, unbound]

theorem peerChannel_some (bound : backBinding order b peer = some (num, binding)) :
    peerChannel order b peer = num := by
  unfold backBinding at bound
  rw [peerChannel, bound]

theorem backBinding_bound (bound : backBinding order b peer = some (num, binding)) :
    b.channels.lookup num = some binding ∧ binding.peer = peer :=
  channelTo_bound bound

theorem findChannelByNumber_eq_some {a : Allocation} {now : TimePoint} :
    a.findChannelByNumber now num = some binding ↔
      a.channels.lookup num = some binding ∧ now < binding.expiresAt := by
  unfold Allocation.findChannelByNumber
  cases found : a.channels.lookup num with
  | none => simp
  | some held =>
    by_cases expired : now ≥ held.expiresAt
    · simp only [if_pos expired, reduceCtorEq, Option.some.injEq, false_iff]
      rintro ⟨rfl, live⟩
      exact Nat.not_lt.mpr expired live
    · simp only [if_neg expired, Option.some.injEq]
      constructor
      · rintro rfl
        exact ⟨rfl, Nat.not_le.mp expired⟩
      · exact fun same => same.1

/-- What is passed on for a ChannelData message goes out by channels that have not
expired: the one it came on, and the one a local client is handed it on. -/
structure Honours (now : TimePoint) (m : AllocationManager) (data : Bytes) (sender : Endpoint)
    (out : List Sent) : Prop where
  incoming : out ≠ [] → ∃ ch a, parseChannelData data = .ok ch ∧ m.findByClient sender = some a ∧
    (a.findChannelByNumber now ch.channelNumber).isSome
  outgoing : ∀ sent ∈ out, ∀ client peer source q, sent.purpose = .toLocal client peer source q →
    isChannelData sent.data → ∃ b binding, m.heap[q]? = some b ∧ sent.dest = b.clientAddr ∧
      b.findChannelByNumber now (word16 sent.data 0) = some binding ∧ binding.peer = source

/-- A message that is passed on finds its channel unexpired, and for a local client the
channel back as well. Nothing is passed on without a permission, nor to a local client
without a channel when the relay address is not IPv4 text. -/
def unexpired (host : Host) (env : Env) (m : AllocationManager) (data : Bytes)
    (sender : Endpoint) : Bool :=
  match parseChannelData data, m.findByClient sender with
  | .ok ch, some a =>
    match a.channels.lookup ch.channelNumber with
    | none => true
    | some binding =>
      if a.hasPermission env.now binding.peer.address then
        match m.find m.byRelay binding.peer with
        | none => env.now < binding.expiresAt
        | some (_, b) =>
          match backBinding env.order b a.relayedAddr with
          | some (_, back) => env.now < binding.expiresAt && env.now < back.expiresAt
          | none => (host.makeAddressV4 a.relayedAddr.address).isNone ||
              env.now < binding.expiresAt
      else true
  | _, _ => true

/-! ## One message -/

theorem dataIndication_not_channel (tid : TransactionId) (ip : UInt32) (port : UInt16)
    (payload : Bytes) : isChannelData (makeDataIndication tid ip port payload) = false := by
  have top : byteAt (makeDataIndication tid ip port payload) 0 &&& 0xC0 = 0x00 :=
    encodeType_top .data .indication
  unfold isChannelData
  split
  · rfl
  · rw [top]
    rfl

theorem makeChannelData_is_channel (valid : 0x4000 ≤ num ∧ num ≤ 0x7FFF) (payload : Bytes) :
    isChannelData (makeChannelData num payload) = true ∧
      word16 (makeChannelData num payload) 0 = num := by
  have top : byteAt (makeChannelData num payload) 0 &&& 0xC0 = 0x40 := channel_top valid
  refine ⟨?_, be16_bytes16 num⟩
  rw [isChannelData, if_neg (by simp [makeChannelData]), top]
  rfl

/-- Nothing is passed on, so nothing by an expired channel. -/
theorem honours_nil (now : TimePoint) (m : AllocationManager) (data : Bytes) (sender : Endpoint) :
    Honours now m data sender [] :=
  ⟨fun some => absurd rfl some, by simp⟩

section Found
variable {ch : ChannelDataMessage} {a : Allocation}
  (parsed : parseChannelData data = .ok ch) (mine : m.findByClient sender = some a)
  (found : a.channels.lookup ch.channelNumber = some binding)
include parsed mine found

/-- One packet goes out: the channel it came on must not have expired. -/
theorem incoming_iff (sent : Sent) :
    ([sent] ≠ [] → ∃ ch a, parseChannelData data = .ok ch ∧ m.findByClient sender = some a ∧
      (a.findChannelByNumber env.now ch.channelNumber).isSome) ↔
      env.now < binding.expiresAt := by
  constructor
  · intro honoured
    obtain ⟨ch', a', parsed', mine', live⟩ := honoured (by simp)
    obtain rfl := Except.ok.inj (parsed.symm.trans parsed')
    obtain rfl := Option.some.inj (mine.symm.trans mine')
    obtain ⟨binding', found', live⟩ :=
      (Option.isSome_iff_exists.mp live).imp fun _ => findChannelByNumber_eq_some.mp
    obtain rfl := Option.some.inj (found.symm.trans found')
    exact live
  · intro live _
    exact ⟨ch, a, parsed, mine, by rw [findChannelByNumber_eq_some.mpr ⟨found, live⟩]; rfl⟩

/-- A packet that is no ChannelData message for a local client. -/
theorem honours_plain_iff (sent : Sent) (plain : ∀ client peer source q,
    sent.purpose = .toLocal client peer source q → isChannelData sent.data = false) :
    Honours env.now m data sender [sent] ↔ env.now < binding.expiresAt := by
  rw [← incoming_iff parsed mine found sent]
  constructor
  · exact Honours.incoming
  · intro honoured
    refine ⟨honoured, fun sent' member client peer source q purpose channel => ?_⟩
    obtain rfl := List.mem_singleton.mp member
    rw [plain client peer source q purpose] at channel
    cases channel

/-- A ChannelData message for a local client. -/
theorem honours_channel_iff {back : ChannelBinding} {q : Ptr}
    (object : m.heap[q]? = some b) (bound : b.channels.lookup num = some back)
    (valid : 0x4000 ≤ num ∧ num ≤ 0x7FFF) (payload : Bytes) :
    Honours env.now m data sender [⟨⟨makeChannelData num payload, b.clientAddr,
        .toLocal sender binding.peer back.peer q⟩, via⟩] ↔
      env.now < binding.expiresAt ∧ env.now < back.expiresAt := by
  obtain ⟨channel, number⟩ := makeChannelData_is_channel valid payload
  rw [← incoming_iff parsed mine found]
  constructor
  · intro honoured
    refine ⟨honoured.incoming, ?_⟩
    obtain ⟨b', back', object', _, live, _⟩ :=
      honoured.outgoing _ List.mem_cons_self sender binding.peer back.peer q rfl channel
    obtain rfl := Option.some.inj (object.symm.trans object')
    rw [number] at live
    obtain ⟨bound', live⟩ := findChannelByNumber_eq_some.mp live
    obtain rfl := Option.some.inj (bound.symm.trans bound')
    exact live
  · rintro ⟨honoured, live⟩
    refine ⟨honoured, fun sent member client peer source q' purpose _ => ?_⟩
    obtain rfl := List.mem_singleton.mp member
    obtain ⟨-, -, rfl, rfl⟩ := Purpose.toLocal.inj purpose
    refine ⟨b, back, object, rfl, ?_, rfl⟩
    rw [number]
    exact findChannelByNumber_eq_some.mpr ⟨bound, live⟩

end Found

/-- **One message**, in a reachable state: it is passed on by live channels exactly if
the bindings it finds have not expired. -/
theorem honours_iff (reached : Reachable (turnServer host cfg) d) :
    Honours env.now d.manager data sender (d.handleChannelData host env data sender via) ↔
      unexpired host env d.manager data sender = true := by
  rw [handleChannelData_eq]
  unfold channelRequest unexpired
  cases parsed : parseChannelData data with
  | error e => exact iff_of_true (honours_nil _ _ _ _) rfl
  | ok ch =>
    cases mine : d.manager.findByClient sender with
    | none => exact iff_of_true (honours_nil _ _ _ _) rfl
    | some a =>
      simp only
      cases found : a.channels.lookup ch.channelNumber with
      | none => exact iff_of_true (honours_nil _ _ _ _) rfl
      | some binding =>
        simp only
        cases permitted : a.hasPermission env.now binding.peer.address with
        | false => exact iff_of_true (honours_nil _ _ _ _) rfl
        | true =>
          simp only [↓reduceIte]
          cases target : d.manager.find d.manager.byRelay binding.peer with
          | none =>
            rw [decide_eq_true_eq]
            exact honours_plain_iff parsed mine found _ fun _ _ _ _ purpose => by cases purpose
          | some entry =>
            obtain ⟨q, b⟩ := entry
            simp only [localFrames]
            cases bound : backBinding env.order b a.relayedAddr with
            | none =>
              simp only [peerChannel_none bound, ne_eq, not_true_eq_false, ↓reduceIte]
              cases host.makeAddressV4 a.relayedAddr.address with
              | none => exact iff_of_true (honours_nil _ _ _ _) rfl
              | some relayIp =>
                rw [Option.isNone_some, Bool.false_or, decide_eq_true_eq]
                exact honours_plain_iff parsed mine found _
                  fun _ _ _ _ _ => dataIndication_not_channel _ _ _ _
            | some entry =>
              obtain ⟨num, back⟩ := entry
              obtain ⟨listed, same⟩ := backBinding_bound bound
              obtain ⟨_, object⟩ := find_eq_some.mp target
              have lives := ((serverInv_of_reachable reached).tables.relay_exact target).2
              have valid := StreamSafety.channel_range reached lives listed
              have nonzero : num ≠ 0 := by
                rintro rfl
                exact absurd valid.1 (by decide)
              simp only [peerChannel_some bound, ne_eq, nonzero, not_false_eq_true, ↓reduceIte,
                List.map_cons, List.map_nil, Bool.and_eq_true, decide_eq_true_eq]
              rw [← same]
              exact honours_channel_iff parsed mine found object listed valid ch.data

/-! ## Runs -/

/-- A ChannelData packet is handled without touching the state. -/
theorem output_channelData {t : Transition TurnDispatcher (Event × Env) (List Sent)}
    (taken : (turnServer host cfg).Takes t) (event : t.input.1 = .packet data sender via)
    (channel : isChannelData data = true) :
    t.output = t.before.handleChannelData host t.input.2 data sender via := by
  have top := (isChannelData_iff data).mp channel
  unfold Machine.Takes turnServer at taken
  simp only [event] at taken
  rw [onPacket_of_channel top] at taken
  exact (Prod.mk.inj (Except.ok.inj taken)).2.symm

/-- **When ChannelData honours channel expiry**, along a run: every ChannelData message
is passed on by unexpired channels only, the one it came on and the one a local client is
handed it on, if and only if the bindings that each of them finds have not expired. -/
theorem channels_unexpired_iff (host : Host) (cfg : Config) {ts} {d : TurnDispatcher}
    (run : Run (turnServer host cfg) ts d) :
    (∀ t ∈ ts, ∀ data sender via, t.input.1 = .packet data sender via →
      isChannelData data = true →
        Honours t.input.2.now t.before.manager data sender t.output) ↔
    ∀ t ∈ ts, ∀ data sender via, t.input.1 = .packet data sender via →
      isChannelData data = true →
        unexpired host t.input.2 t.before.manager data sender = true := by
  have each : ∀ t ∈ ts, ∀ data sender via, t.input.1 = .packet data sender via →
      isChannelData data = true →
        (Honours t.input.2.now t.before.manager data sender t.output ↔
          unexpired host t.input.2 t.before.manager data sender = true) := by
    intro t member data sender via event channel
    rw [output_channelData (run.takes member) event channel]
    exact honours_iff (run.reachable_before member)
  constructor
  · intro honoured t member data sender via event channel
    exact (each t member data sender via event channel).mp
      (honoured t member data sender via event channel)
  · intro live t member data sender via event channel
    exact (each t member data sender via event channel).mpr
      (live t member data sender via event channel)

end Zaza.ChannelExpiry

/-! The deployment with channels between the two relayed addresses. -/
namespace Zaza.Deployment
open Zaza StunCodec

/-- A ChannelBind of an account for a port of the relay address. -/
def bindBy (account : Account) (tid : UInt8) (num port : UInt16) : Bytes :=
  unsigned .channelBind .request tid (credentials account ++
    [⟨AttrType.channelNumber, bytes16 num ++ [0, 0]⟩,
      ⟨AttrType.xorPeerAddress, MessageBuilder.xorAddress relayIp port⟩])

/-- The first account binds 0x4001 to the relayed address of the second. -/
def bindAlice : Bytes := bindBy alice 5 0x4001 50001

/-- The second account binds 0x4002 to the relayed address of the first. -/
def bindBob : Bytes := bindBy bob 6 0x4002 50000

def bindAliceMac : Vector UInt8 20 :=
  #v[208, 25, 173, 188, 245, 219, 92, 155, 159, 56, 198, 225, 248, 39, 208, 20, 238, 195, 80, 156]

def bindBobMac : Vector UInt8 20 :=
  #v[154, 3, 204, 226, 248, 6, 218, 108, 182, 61, 199, 36, 166, 16, 41, 253, 222, 65, 248, 124]

/-- The digests of these packets and of their answers. -/
def bindMacs : List ((Bytes × Bytes) × Vector UInt8 20) :=
  [((alice.key.toList, bindAlice), bindAliceMac),
    ((alice.key.toList, unsigned .channelBind .successResponse 5 []),
      #v[0, 156, 112, 196, 211, 131, 72, 29, 59, 253, 69, 84, 128, 226, 197, 189, 36, 222, 244,
        248]),
    ((bob.key.toList, bindBob), bindBobMac),
    ((bob.key.toList, unsigned .channelBind .successResponse 6 []),
      #v[133, 175, 161, 25, 6, 80, 186, 115, 80, 215, 243, 76, 235, 55, 15, 73, 167, 44, 93, 194])]

def channelHost : Host :=
  { host with
    hmacSha1 := fun key data => (bindMacs.lookup (key, data)).getD (host.hmacSha1 key data) }

/-- The surroundings at a second of the server's life. -/
def atSecond (second : Nat) : Env := { surroundings 0 with now := second * 1000000000 }

/-- Both accounts allocate, and the first binds a channel to the second. -/
def aliceBinds : List (Event × Env) :=
  bothAllocate .udp ++ [(.packet (signed bindAlice bindAliceMac) aliceAddr .udp, atSecond 1)]

/-- Two bytes on that channel. -/
def onChannel : Bytes := makeChannelData 0x4001 [104, 105]

end Zaza.Deployment

namespace Zaza.ChannelExpiry
open Zaza

/-- Every ChannelData message along these transitions finds its bindings unexpired. -/
def allUnexpired (ts : List (Transition TurnDispatcher (Event × Env) (List Sent))) : Bool :=
  ts.all fun t =>
    match t.input.1 with
    | .packet data sender _ => !isChannelData data ||
        unexpired Deployment.channelHost t.input.2 t.before.manager data sender
    | .peerData _ _ _ => true

/-- Data on a channel that has just been bound is passed on to the second client. -/
theorem channels_unexpired_iff_fresh :
    ∃ ts d, Run (turnServer Deployment.channelHost Deployment.config) ts d ∧
      (∃ t ∈ ts, ∃ sent ∈ t.output, sent.dest = Deployment.bobAddr) ∧
      ∀ t ∈ ts, ∀ data sender via, t.input.1 = .packet data sender via →
        isChannelData data = true →
          Honours t.input.2.now t.before.manager data sender t.output := by
  obtain ⟨ts, d, run, check⟩ := Run.of_exec (turnServer Deployment.channelHost Deployment.config)
    (Deployment.aliceBinds ++
      [(.packet Deployment.onChannel Deployment.aliceAddr .udp, Deployment.atSecond 2)])
    (fun ts _ => allUnexpired ts &&
      (ts.any fun t => t.output.any fun sent => sent.dest = Deployment.bobAddr))
    (by decide +kernel)
  obtain ⟨live, arrives⟩ := (Bool.and_eq_true _ _).mp check
  refine ⟨ts, d, run, by simpa using arrives,
    (channels_unexpired_iff Deployment.channelHost Deployment.config run).mpr ?_⟩
  intro t member data sender via event channel
  have kept := List.all_eq_true.mp live t member
  simpa [event, channel] using kept

/-- The channel is bound at 1 s and expires at 601 s. The permission is renewed at 400 s;
data that comes on the channel at 650 s is passed on. -/
theorem expired_channel_forwards : ¬ ∀ host cfg ts d, Run (turnServer host cfg) ts d →
    ∀ t ∈ ts, ∀ data sender via, t.input.1 = .packet data sender via →
      isChannelData data = true →
        Honours t.input.2.now t.before.manager data sender t.output := by
  intro honoured
  obtain ⟨ts, d, run, check⟩ := Run.of_exec (turnServer Deployment.channelHost Deployment.config)
    (Deployment.aliceBinds ++
      [(.packet (Deployment.signed Deployment.permitRelay Deployment.permitRelayMac)
          Deployment.aliceAddr .udp, Deployment.atSecond 400),
        (.packet Deployment.onChannel Deployment.aliceAddr .udp, Deployment.atSecond 650)])
    (fun ts _ => !allUnexpired ts) (by decide +kernel)
  have live : allUnexpired ts = true := by
    refine List.all_eq_true.mpr fun t member => ?_
    cases event : t.input.1 with
    | peerData data peer relayAddr => simp
    | packet data sender via =>
      cases channel : isChannelData data with
      | false => simp [channel]
      | true =>
        have kept := honoured _ _ ts d run t member data sender via event channel
        rw [output_channelData (run.takes member) event channel,
          honours_iff (run.reachable_before member)] at kept
        simp [channel, kept]
  rw [live] at check
  cases check

end Zaza.ChannelExpiry
