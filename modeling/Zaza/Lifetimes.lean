import Zaza.Replies
import Zaza.FailedRequests

/-!
What a client is told about its allocation, and what the server stores.

The response of Allocate or Refresh is put together from local variables, the tables
are written to from the same ones. `Replies` says what is in the response; here it is
read back and compared with the tables after the call: the lifetime with the expiry,
the relayed address with the entry it is found under, the mapped address with the
client's own.
-/
namespace Zaza.Lifetimes
open Zaza StunCodec AllocationManager AllocationSteps AllocationInvariant Replies FailedRequests

/-- The LIFETIME of a message: the first attribute of the type, if it has four bytes. -/
def lifetimeOf (msg : TurnMessage) : Option UInt32 :=
  match msg.findAttr AttrType.lifetime with
  | none => none
  | some lt =>
    if lt.value.length < 4 then none
    else some (be32 (byteAt lt.value 0) (byteAt lt.value 1) (byteAt lt.value 2)
      (byteAt lt.value 3))

/-- The lifetime a request is granted: what it asks for up to an hour, ten minutes when it
asks for nothing, and `zero` when it asks for zero. -/
structure Granted (msg : TurnMessage) (zero lifetime : UInt32) : Prop where
  capped : ∀ r, lifetimeOf msg = some r → r ≠ 0 → lifetime.toNat = min r.toNat 3600
  default : lifetimeOf msg = none → lifetime = 600
  zero : lifetimeOf msg = some 0 → lifetime = zero

variable {host : Host} {cfg : ManagerConfig} {env : Env} {m m' : AllocationManager}
  {msg : TurnMessage} {client : Endpoint} {username realm : Bytes} {p : Ptr} {a a' : Allocation}

/-- `requestedLifetime` by the value it reads. -/
theorem requestedLifetime_eq (msg : TurnMessage) :
    requestedLifetime msg = (lifetimeOf msg).elim Allocation.kDefaultLifetime
      fun r => if r = 0 then 0 else min r Allocation.kMaxLifetime := by
  unfold requestedLifetime lifetimeOf
  cases msg.findAttr AttrType.lifetime with
  | none => rfl
  | some lt =>
    simp only
    split
    · rfl
    · rfl

theorem toNat_min_hour (r : UInt32) : (min r Allocation.kMaxLifetime).toNat = min r.toNat 3600 := by
  have cap : Allocation.kMaxLifetime.toNat = 3600 := rfl
  have unfolded : min r Allocation.kMaxLifetime =
      if r ≤ Allocation.kMaxLifetime then r else Allocation.kMaxLifetime := rfl
  rw [unfolded]
  split
  · rename_i below
    have small := UInt32.le_iff_toNat_le.mp below
    omega
  · rename_i above
    have large := UInt32.lt_iff_toNat_lt.mp (UInt32.not_le.mp above)
    omega

theorem min_hour_ne_zero {r : UInt32} (nonzero : r ≠ 0) : min r Allocation.kMaxLifetime ≠ 0 := by
  intro zero
  have value := toNat_min_hour r
  have positive : r.toNat ≠ 0 := fun none => nonzero (UInt32.toNat_inj.mp none)
  rw [zero, UInt32.toNat_zero] at value
  omega

/-- A Refresh is granted zero when it asks for it. -/
theorem requestedLifetime_granted (msg : TurnMessage) : Granted msg 0 (requestedLifetime msg) := by
  rw [requestedLifetime_eq]
  refine ⟨fun r asked nonzero => ?_, fun none => ?_, fun asked => ?_⟩
  · rw [asked, Option.elim_some, if_neg nonzero, toNat_min_hour]
  · rw [none]
    rfl
  · rw [asked]
    rfl

/-- An Allocate that asks for zero is granted the default. -/
theorem grantedLifetime_granted (msg : TurnMessage) : Granted msg 600 (grantedLifetime msg) := by
  rw [grantedLifetime, requestedLifetime_eq]
  refine ⟨fun r asked nonzero => ?_, fun none => ?_, fun asked => ?_⟩
  · rw [asked, Option.elim_some, if_neg nonzero, if_neg (min_hour_ne_zero nonzero), toNat_min_hour]
  · rw [none]
    rfl
  · rw [asked]
    rfl

/-! ## The calls that succeed -/

theorem responseClass_call (c : Call) : responseClass c.build = c.msgClass := by
  refine @responseClass_build _ c.method c.msgClass ?_
  rw [addAttrs_cut, addAttrs_small _ _ fun attr member => ?_]
  · rfl
  · obtain ⟨original, _, rfl⟩ := List.mem_map.mp member
    exact cutAttr_small original

/-- An Allocate that succeeds adds a fresh allocation; its response is made of the values
that are stored. -/
theorem handleAllocate_success (realm : Bytes)
    (success : (allocateCall host cfg env m msg client username).msgClass = .successResponse) :
    m.byClient.lookup (endpointKey client) = none ∧ ∃ port,
      allocateCall host cfg env m msg client username =
        allocated host cfg msg client port (grantedLifetime msg) ∧
      (handleAllocate host cfg env m msg client username realm).1 =
        m.create (fresh cfg m client username realm port
          (env.now + seconds (grantedLifetime msg))) (m.usedPorts.insert port true) := by
  unfold handleAllocate
  unfold allocateCall at success ⊢
  by_cases taken : (m.byClient.lookup (endpointKey client)).isSome
  · rw [if_pos taken] at success
    cases success
  rw [if_neg taken] at success
  simp only [if_neg taken]
  refine ⟨by simpa using taken, ?_⟩
  cases transport : msg.findAttr AttrType.requestedTransport with
  | none =>
    rw [transport] at success
    cases success
  | some rt =>
    simp only [transport] at success
    simp only
    by_cases refused : rt.value.length < 4 ∨ byteAt rt.value 0 ≠ 17
    · rw [if_pos refused] at success
      cases success
    rw [if_neg refused] at success
    simp only [if_neg refused]
    by_cases quota : m.userCount env.order username ≥ cfg.maxAllocPerUser
    · rw [if_pos quota] at success
      cases success
    rw [if_neg quota] at success
    simp only [if_neg quota]
    rcases tryPorts_spec cfg env.draws 1000 0 m.usedPorts with full | ⟨port, free, _⟩
    · rw [allocatePort, full] at success
      cases success
    · rw [allocatePort, free]
      exact ⟨port, rfl, rfl⟩

/-- A Refresh that succeeds is about the client's own allocation. -/
theorem handleRefresh_success (env : Env)
    (success : (refreshCall m msg client username).msgClass = .successResponse) :
    refreshCall m msg client username = refreshed msg (requestedLifetime msg) ∧
      ∃ p a, m.find m.byClient client = some (p, a) ∧
        (handleRefresh env m msg client username).1 =
          if requestedLifetime msg = 0 then m.release client a
          else m.store p { a with expiresAt := env.now + seconds (requestedLifetime msg) } := by
  unfold handleRefresh
  unfold refreshCall at success ⊢
  cases found : m.find m.byClient client with
  | none =>
    rw [found] at success
    cases success
  | some entry =>
    obtain ⟨p, a⟩ := entry
    simp only [found] at success
    simp only
    by_cases foreign : a.username ≠ username
    · rw [if_pos foreign] at success
      cases success
    · refine ⟨if_neg foreign, p, a, rfl, ?_⟩
      rw [if_neg foreign]

/-! ## The tables after the call -/

theorem find_create (alloc : Allocation) (usedPorts : UnorderedMap UInt16 Bool) :
    (m.create alloc usedPorts).findByClient alloc.clientAddr = some alloc ∧
      (m.create alloc usedPorts).findByRelay alloc.relayedAddr = some alloc := by
  constructor
  · refine findByClient_eq_some.mpr ⟨m.heap.length, find_eq_some.mpr ⟨AList.lookup_insert _, ?_⟩⟩
    exact List.getElem?_concat_length
  · refine findByRelay_eq_some.mpr ⟨m.heap.length, find_eq_some.mpr ⟨AList.lookup_insert _, ?_⟩⟩
    exact List.getElem?_concat_length

/-- A write through the client's pointer is seen by the client and at its relayed
address, and nowhere else. -/
theorem find_touched (inv : Inv cfg m) (found : m.find m.byClient client = some (p, a))
    (a' : Allocation) :
    (m.store p a').findByClient client = some a' ∧
      (m.store p a').findByRelay a.relayedAddr = some a' ∧
      (∀ e, e ≠ client → (m.store p a').findByClient e = m.findByClient e) ∧
      ∀ e, e ≠ a.relayedAddr → (m.store p a').findByRelay e = m.findByRelay e := by
  have held := (find_eq_some.mp found).2
  refine ⟨findByClient_store a' found, ?_, fun e other => ?_, fun e other => ?_⟩
  · exact findByRelay_eq_some.mpr ⟨p, find_store a' (inv.live_relay (live_of_find found))⟩
  · have apart : m.byClient.lookup (endpointKey e) ≠ some p := by
      intro known
      have exact := inv.client_exact (find_eq_some.mpr ⟨known, held⟩)
      exact other (exact.symm.trans (inv.client_exact found))
    exact congrArg (Option.map Prod.snd) (find_store_ne a' apart)
  · have apart : m.byRelay.lookup (endpointKey e) ≠ some p := by
      intro known
      exact other (inv.relay_exact (find_eq_some.mpr ⟨known, held⟩)).1.symm
    exact congrArg (Option.map Prod.snd) (find_store_ne a' apart)

theorem find_released (client : Endpoint) (a : Allocation) :
    (m.release client a).findByClient client = none ∧
      (m.release client a).findByRelay a.relayedAddr = none ∧
      (m.release client a).usedPorts.lookup a.relayedAddr.port = none := by
  refine ⟨?_, ?_, AList.lookup_erase _ _⟩
  · simp [findByClient, AllocationManager.find, AllocationManager.release, AList.lookup_erase]
  · simp [findByRelay, AllocationManager.find, AllocationManager.release, AList.lookup_erase]

/-! ## What is told -/

/-- The response is read as a message with the request's transaction id and this LIFETIME. -/
structure Tells (msg : TurnMessage) (resp : Bytes) (reply : TurnMessage) (lifetime : UInt32) :
    Prop where
  parsed : parse resp = .ok reply
  tid : reply.transactionId = msg.transactionId
  lifetime : lifetimeOf reply = some lifetime

/-- An address attribute of the message is read as this endpoint. -/
def Names (host : Host) (reply : TurnMessage) (type : AttrType) (e : Endpoint) : Prop :=
  ∃ attr, reply.findAttr type = some attr ∧ peerEndpoint host attr.value = e

/-- A message with one LIFETIME of the builder's. -/
theorem lifetimeOf_bytes32 {reply : TurnMessage} {lifetime : UInt32}
    (found : reply.findAttr AttrType.lifetime = some ⟨AttrType.lifetime, bytes32 lifetime⟩) :
    lifetimeOf reply = some lifetime := by
  rw [lifetimeOf, found]
  exact congrArg some (be32_bytes32 lifetime)

theorem tells_allocated (roundTrip : host.AddressesRoundTrip) (relayIp clientIp : UInt32)
    (relayText : cfg.relayAddress = host.addressToString relayIp) (port relayPort : UInt16)
    (lifetime : UInt32) :
    ∃ reply, Tells msg (allocated host cfg msg ⟨host.addressToString clientIp, port⟩ relayPort
        lifetime).build reply lifetime ∧
      Names host reply AttrType.xorRelayedAddress ⟨cfg.relayAddress, relayPort⟩ ∧
      Names host reply AttrType.xorMappedAddress ⟨host.addressToString clientIp, port⟩ := by
  have small := @allocated_size host msg ⟨host.addressToString clientIp, port⟩ cfg relayPort
    lifetime
  obtain ⟨reply, parsed, _, _, tid, attrs, _⟩ :=
    (Call.read_back_iff _).mpr (small.trans_le (by decide))
  rw [List.append_nil] at attrs
  have found (type : AttrType) : reply.findAttr type = findAttr (allocated host cfg msg
      ⟨host.addressToString clientIp, port⟩ relayPort lifetime).attrs type := by
    rw [TurnMessage.findAttr, attrs]
  refine ⟨reply, ⟨parsed, tid, lifetimeOf_bytes32 (found _)⟩, ⟨_, found _, ?_⟩, ⟨_, found _, ?_⟩⟩
  · rw [relayText, roundTrip]
    exact peerEndpoint_xorAddress host relayIp relayPort
  · rw [roundTrip]
    exact peerEndpoint_xorAddress host clientIp port

theorem tells_refreshed (msg : TurnMessage) (lifetime : UInt32) :
    ∃ reply, Tells msg (refreshed msg lifetime).build reply lifetime := by
  obtain ⟨reply, parsed, _, _, tid, attrs, _⟩ :=
    (Call.read_back_iff _).mpr ((refreshed_size msg lifetime).trans_le (by decide))
  rw [List.append_nil] at attrs
  refine ⟨reply, parsed, tid, lifetimeOf_bytes32 ?_⟩
  rw [TurnMessage.findAttr, attrs]
  rfl

/-- The response to an Allocate that succeeds, against the tables it leaves. -/
theorem allocate_told (roundTrip : host.AddressesRoundTrip) {relayIp clientIp : UInt32}
    {port : UInt16} {resp : Bytes}
    (relayText : cfg.relayAddress = host.addressToString relayIp)
    (address : client = ⟨host.addressToString clientIp, port⟩)
    (called : m.handleAllocate host cfg env msg client username realm = (m', resp))
    (success : responseClass resp = .successResponse) :
    ∃ reply lifetime alloc, Tells msg resp reply lifetime ∧ Granted msg 600 lifetime ∧
      m.findByClient client = none ∧ m'.findByClient client = some alloc ∧
      Names host reply AttrType.xorRelayedAddress alloc.relayedAddr ∧
      m'.findByRelay alloc.relayedAddr = some alloc ∧
      Names host reply AttrType.xorMappedAddress client ∧
      alloc.expiresAt = env.now + seconds lifetime := by
  have answered := @handleAllocate_call host env m msg client cfg username realm
  rw [called] at answered
  simp only at answered
  rw [answered, responseClass_call] at success
  obtain ⟨absent, relayPort, call, after⟩ := handleAllocate_success realm success
  rw [called] at after
  simp only at after
  obtain ⟨byClient, byRelay⟩ := @find_create m (fresh cfg m client username realm relayPort
    (env.now + seconds (grantedLifetime msg))) (m.usedPorts.insert relayPort true)
  rw [← after] at byClient byRelay
  subst address
  obtain ⟨reply, tells, relayed, mapped⟩ := @tells_allocated host cfg msg roundTrip relayIp
    clientIp relayText port relayPort (grantedLifetime msg)
  rw [← call, ← answered] at tells
  have unknown : m.findByClient ⟨host.addressToString clientIp, port⟩ = none := by
    simp [findByClient, AllocationManager.find, absent]
  exact ⟨reply, _, _, tells, grantedLifetime_granted msg, unknown, byClient, relayed, byRelay,
    mapped, rfl⟩

/-- The response to a Refresh that succeeds, and what has been done to the allocation. -/
theorem refresh_told {resp : Bytes}
    (called : m.handleRefresh env msg client username = (m', resp))
    (success : responseClass resp = .successResponse) :
    ∃ reply lifetime p alloc, Tells msg resp reply lifetime ∧ Granted msg 0 lifetime ∧
      m.find m.byClient client = some (p, alloc) ∧
      m' = if lifetime = 0 then m.release client alloc
        else m.store p { alloc with expiresAt := env.now + seconds lifetime } := by
  have answered := @handleRefresh_call env m msg client username
  rw [called] at answered
  simp only at answered
  rw [answered, responseClass_call] at success
  obtain ⟨call, p, alloc, found, after⟩ := handleRefresh_success env success
  rw [called] at after
  obtain ⟨reply, tells⟩ := tells_refreshed msg (requestedLifetime msg)
  rw [← call, ← answered] at tells
  exact ⟨reply, _, p, alloc, tells, requestedLifetime_granted msg, found, after⟩

/-- **What a client is told is what the server has stored.** The success response of an
Allocate carries the relayed address its new allocation is found under, the client's own
address and a lifetime by which the allocation expires; that of a Refresh carries the
lifetime its allocation is given, or zero, and then the allocation is gone and its port
is free. -/
theorem told_is_stored (host : Host) (cfg : Config) (roundTrip : host.AddressesRoundTrip)
    (relayIp : UInt32) (relayText : cfg.relayAddress = host.addressToString relayIp)
    (d : TurnDispatcher) (reached : Reachable (turnServer host cfg) d) (env : Env)
    (msg : TurnMessage) (clientIp : UInt32) (port : UInt16) (username realm : Bytes) :
    (∀ client m' resp, client = ⟨host.addressToString clientIp, port⟩ →
      d.manager.handleAllocate host cfg.manager env msg client username realm = (m', resp) →
      responseClass resp = .successResponse →
        ∃ reply lifetime alloc, Tells msg resp reply lifetime ∧ Granted msg 600 lifetime ∧
          d.manager.findByClient client = none ∧ m'.findByClient client = some alloc ∧
          Names host reply AttrType.xorRelayedAddress alloc.relayedAddr ∧
          m'.findByRelay alloc.relayedAddr = some alloc ∧
          Names host reply AttrType.xorMappedAddress client ∧
          alloc.expiresAt = env.now + seconds lifetime) ∧
    (∀ client m' resp, client = ⟨host.addressToString clientIp, port⟩ →
      d.manager.handleRefresh env msg client username = (m', resp) →
      responseClass resp = .successResponse →
        ∃ reply lifetime p alloc, Tells msg resp reply lifetime ∧ Granted msg 0 lifetime ∧
          d.manager.find d.manager.byClient client = some (p, alloc) ∧
          (0 < lifetime → ∃ alloc',
            alloc' = { alloc with expiresAt := env.now + seconds lifetime } ∧
            m' = d.manager.store p alloc' ∧ m'.findByClient client = some alloc' ∧
            m'.findByRelay alloc.relayedAddr = some alloc' ∧
            (∀ e, e ≠ client → m'.findByClient e = d.manager.findByClient e) ∧
            ∀ e, e ≠ alloc.relayedAddr → m'.findByRelay e = d.manager.findByRelay e) ∧
          (lifetimeOf msg = some 0 → lifetime = 0 ∧ m'.findByClient client = none ∧
            m'.findByRelay alloc.relayedAddr = none ∧
            m'.usedPorts.lookup alloc.relayedAddr.port = none)) := by
  have inv := (DispatcherSteps.serverInv_of_reachable reached).tables
  constructor
  · intro client m' resp address called success
    exact allocate_told roundTrip relayText address called success
  · intro client m' resp _ called success
    obtain ⟨reply, lifetime, p, alloc, tells, granted, found, after⟩ :=
      refresh_told called success
    refine ⟨reply, lifetime, p, alloc, tells, granted, found, fun positive => ?_, fun asked => ?_⟩
    · have nonzero : lifetime ≠ 0 := by
        rintro rfl
        exact absurd positive (by decide)
      rw [if_neg nonzero] at after
      obtain ⟨byClient, byRelay, clients, relays⟩ := find_touched inv found
        { alloc with expiresAt := env.now + seconds lifetime }
      rw [← after] at byClient byRelay clients relays
      exact ⟨_, rfl, after, byClient, byRelay, clients, relays⟩
    · have zero := granted.zero asked
      rw [if_pos zero] at after
      rw [after]
      exact ⟨zero, @find_released d.manager client alloc⟩

/-- An Allocate, and a Refresh for zero seconds. -/
def request (method : Method) (attrs : List Attribute) : TurnMessage :=
  ⟨.request, method, 0, Vector.replicate 12 7, attrs⟩

/-- The first account allocates and is told ten minutes; once it is known, it releases the
allocation and is told zero. -/
theorem told_is_stored_alice :
    (∃ m' resp reply alloc, TurnDispatcher.init.manager.handleAllocate Deployment.host
        Deployment.config.manager (Deployment.surroundings 0)
        (request .allocate [⟨AttrType.requestedTransport, [17, 0, 0, 0]⟩]) Deployment.aliceAddr
        Deployment.alice.username Deployment.config.realm = (m', resp) ∧
      parse resp = .ok reply ∧ lifetimeOf reply = some 600 ∧
      m'.findByClient Deployment.aliceAddr = some alloc ∧
      Names Deployment.host reply AttrType.xorRelayedAddress alloc.relayedAddr) ∧
    ∃ d m' resp reply, Reachable (turnServer Deployment.host Deployment.config) d ∧
      d.manager.handleRefresh (Deployment.surroundings 0)
        (request .refresh [⟨AttrType.lifetime, bytes32 0⟩]) Deployment.aliceAddr
        Deployment.alice.username = (m', resp) ∧
      parse resp = .ok reply ∧ lifetimeOf reply = some 0 ∧
      m'.findByClient Deployment.aliceAddr = none := by
  have relayText : Deployment.config.relayAddress =
      Deployment.host.addressToString Deployment.relayIp := by decide +kernel
  have address : Deployment.aliceAddr =
      ⟨Deployment.host.addressToString 0xC6336401, 4000⟩ := by decide +kernel
  have told := told_is_stored Deployment.host Deployment.config Host.posix_roundTrip
    Deployment.relayIp relayText
  constructor
  · obtain ⟨reply, lifetime, alloc, tells, granted, _, byClient, relayed, _⟩ :=
      (told TurnDispatcher.init ⟨[], .start⟩ (Deployment.surroundings 0)
        (request .allocate [⟨AttrType.requestedTransport, [17, 0, 0, 0]⟩]) 0xC6336401 4000
        Deployment.alice.username Deployment.config.realm).1 Deployment.aliceAddr _ _ address rfl
        (by decide +kernel)
    obtain rfl := granted.default (by decide)
    exact ⟨_, _, reply, alloc, rfl, tells.parsed, tells.lifetime, byClient, relayed⟩
  · obtain ⟨ts, d, run, check⟩ := Run.of_exec (turnServer Deployment.host Deployment.config)
      (Deployment.bothAllocate .udp) (fun _ d => responseClass (d.manager.handleRefresh
        (Deployment.surroundings 0) (request .refresh [⟨AttrType.lifetime, bytes32 0⟩])
        Deployment.aliceAddr Deployment.alice.username).2 = .successResponse) (by decide +kernel)
    obtain ⟨reply, lifetime, p, alloc, tells, _, _, _, released⟩ :=
      (told d ⟨ts, run⟩ (Deployment.surroundings 0)
        (request .refresh [⟨AttrType.lifetime, bytes32 0⟩]) 0xC6336401 4000
        Deployment.alice.username Deployment.config.realm).2 Deployment.aliceAddr _ _ address rfl
        (of_decide_eq_true check)
    obtain ⟨rfl, gone, _⟩ := released (by decide)
    exact ⟨d, _, _, reply, ⟨ts, run⟩, rfl, tells.parsed, tells.lifetime, gone⟩

end Zaza.Lifetimes
