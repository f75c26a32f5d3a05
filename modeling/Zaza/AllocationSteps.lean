import Mathlib.Logic.Relation
import Zaza.Allocation

/-!
What a call of the allocation manager can do to its tables, said once.

Every handler leaves the tables alone, adds an allocation for its client,
writes to its client's allocation object, or drops it (`Change`); and a write
to an object is a sequence of three small ones (`Touch`). Every invariant of
the manager is proved against these relations and never unfolds a handler
again; `handleAllocate_change` and its siblings connect the two.
-/
namespace Zaza.AllocationSteps
open Zaza AllocationManager

/-- One write to an allocation object: a new expiry, a permission for an
allowed address, or a channel binding that conflicts with none. -/
inductive Touch (host : Host) (env : Env) : Allocation → Allocation → Prop where
  | refresh (a : Allocation) (expiresAt : TimePoint) : Touch host env a { a with expiresAt }
  | permit (a : Allocation) (ip : UInt32)
      (allowed : isDeniedAddress host (host.addressToString ip) = false) :
      Touch host env a (a.permit env.now (host.addressToString ip))
  | bind (a : Allocation) (num : UInt16) (ip : UInt32) (port : UInt16)
      (valid : 0x4000 ≤ num ∧ num ≤ 0x4FFF)
      (allowed : isDeniedAddress host (host.addressToString ip) = false)
      (free : channelConflict env.order a num ⟨host.addressToString ip, port⟩ = false) :
      Touch host env a (a.bind env.now num ⟨host.addressToString ip, port⟩)

/-- The writes of one call. -/
abbrev Touches (host : Host) (env : Env) : Allocation → Allocation → Prop :=
  Relation.ReflTransGen (Touch host env)

/-- A fresh allocation object. -/
def fresh (cfg : ManagerConfig) (m : AllocationManager) (client : Endpoint)
    (username realm : Bytes) (port : UInt16) (expiresAt : TimePoint) : Allocation where
  id := m.nextId
  clientAddr := client
  relayedAddr := ⟨cfg.relayAddress, port⟩
  username := username
  realm := realm
  expiresAt := expiresAt
  permissions := ∅
  channels := ∅

@[simp] theorem fresh_clientAddr {cfg : ManagerConfig} {m : AllocationManager} :
    (fresh cfg m client username realm port expiresAt).clientAddr = client := rfl

/-- The effect of one call made for `client` by `username`. -/
inductive Change (host : Host) (cfg : ManagerConfig) (env : Env) (client : Endpoint)
    (username : Bytes) (m : AllocationManager) : AllocationManager → Prop where
  | same : Change host cfg env client username m m
  | create (realm : Bytes) (port : UInt16) (expiresAt : TimePoint)
      (absent : m.byClient.lookup (endpointKey client) = none)
      (quota : m.userCount env.order username < cfg.maxAllocPerUser)
      (unused : m.usedPorts.lookup port ≠ some true)
      (drawn : ∃ draw, port = drawPort cfg draw) :
      Change host cfg env client username m
        (m.create (fresh cfg m client username realm port expiresAt)
          (m.usedPorts.insert port true))
  | touch (p : Ptr) (a a' : Allocation) (found : m.find m.byClient client = some (p, a))
      (writes : Touches host env a a') :
      Change host cfg env client username m (m.store p a')
  | release (p : Ptr) (a : Allocation) (found : m.find m.byClient client = some (p, a)) :
      Change host cfg env client username m (m.release client a)

/-! ## Finding -/

theorem find_eq_some {m : AllocationManager} {table : UnorderedMap Bytes Ptr} :
    m.find table ep = some (p, a) ↔
      table.lookup (endpointKey ep) = some p ∧ m.heap[p]? = some a := by
  unfold AllocationManager.find
  cases found : table.lookup (endpointKey ep) with
  | none => simp
  | some q =>
    cases object : m.heap[q]? with
    | none =>
      simp only [Option.bind_some, object, Option.map_none, reduceCtorEq, Option.some.injEq,
        false_iff, not_and]
      rintro rfl
      simp [object]
    | some b =>
      simp only [Option.bind_some, object, Option.map_some, Option.some.injEq, Prod.mk.injEq]
      constructor
      · rintro ⟨rfl, rfl⟩
        exact ⟨rfl, object⟩
      · rintro ⟨rfl, held⟩
        exact ⟨rfl, by simpa [object] using held⟩

theorem findByClient_eq_some {m : AllocationManager} :
    m.findByClient e = some a ↔ ∃ p, m.find m.byClient e = some (p, a) := by
  simp [findByClient]

theorem findByRelay_eq_some {m : AllocationManager} :
    m.findByRelay e = some a ↔ ∃ p, m.find m.byRelay e = some (p, a) := by
  simp [findByRelay]

/-- A write through a pointer is seen by every lookup that leads to it. -/
theorem find_store {m : AllocationManager} {table : UnorderedMap Bytes Ptr} (a' : Allocation)
    (found : m.find table e = some (p, a)) : (m.store p a').find table e = some (p, a') := by
  obtain ⟨known, held⟩ := find_eq_some.mp found
  have inside := (List.getElem?_eq_some_iff.mp held).1
  exact find_eq_some.mpr ⟨known, List.getElem?_set_self inside⟩

/-- A lookup that leads elsewhere does not see it. -/
theorem find_store_ne {m : AllocationManager} {table : UnorderedMap Bytes Ptr} (a' : Allocation)
    (apart : table.lookup (endpointKey e) ≠ some p) :
    (m.store p a').find table e = m.find table e := by
  unfold AllocationManager.find
  cases known : table.lookup (endpointKey e) with
  | none => rfl
  | some q =>
    have other : p ≠ q := by
      rintro rfl
      exact apart known
    simp only [Option.bind_some, AllocationManager.store, List.getElem?_set_ne other]

theorem findByClient_store {m : AllocationManager} (a' : Allocation)
    (found : m.find m.byClient client = some (p, a)) :
    (m.store p a').findByClient client = some a' :=
  findByClient_eq_some.mpr ⟨p, find_store a' found⟩

/-! ## Peer addresses -/

/-- An address written with the XOR mask is read back. -/
theorem peerIp_xorAddress (ip : UInt32) (port : UInt16) :
    peerIp (MessageBuilder.xorAddress ip port) = ip := by
  have read : be32 _ _ _ _ = xorAddrV4 ip := be32_bytes32 (xorAddrV4 ip)
  calc peerIp (MessageBuilder.xorAddress ip port) = xorAddrV4 ip ^^^ kMagicCookie :=
        congrArg (· ^^^ kMagicCookie) read
    _ = ip := by rw [xorAddrV4, UInt32.xor_assoc, UInt32.xor_self, UInt32.xor_zero]

theorem peerPort_xorAddress (ip : UInt32) (port : UInt16) :
    peerPort (MessageBuilder.xorAddress ip port) = port := by
  have read : be16 _ _ = xorPort port := be16_bytes16 (xorPort port)
  calc peerPort (MessageBuilder.xorAddress ip port) =
        xorPort port ^^^ (kMagicCookie >>> 16).toUInt16 :=
        congrArg (· ^^^ (kMagicCookie >>> 16).toUInt16) read
    _ = port := by rw [xorPort, UInt16.xor_assoc, UInt16.xor_self, UInt16.xor_zero]

theorem peerEndpoint_xorAddress (host : Host) (ip : UInt32) (port : UInt16) :
    peerEndpoint host (MessageBuilder.xorAddress ip port) = ⟨host.addressToString ip, port⟩ := by
  rw [peerEndpoint, peerIp_xorAddress, peerPort_xorAddress]

/-! ## The port search -/

/-- A search that fails has inserted nothing; one that succeeds has marked
exactly the port it returns, which was free. -/
theorem tryPorts_spec (cfg : ManagerConfig) (draws : Nat → Nat) (left attempts : Nat)
    (usedPorts : UnorderedMap UInt16 Bool) :
    tryPorts cfg draws left attempts usedPorts = (none, usedPorts) ∨
    ∃ port, tryPorts cfg draws left attempts usedPorts = (some port, usedPorts.insert port true) ∧
      usedPorts.lookup port ≠ some true ∧ ∃ draw, port = drawPort cfg draw := by
  induction left generalizing attempts with
  | zero => exact .inl rfl
  | succ left ih =>
    generalize drawn : drawPort cfg (draws attempts) = port
    have origin : ∃ draw, port = drawPort cfg draw := ⟨_, drawn.symm⟩
    simp only [tryPorts, drawn]
    cases held : usedPorts.lookup port with
    | none =>
      refine .inr ⟨port, ?_, by simp [held], origin⟩
      simp [UnorderedMap.index, held, AList.insert_insert]
    | some used =>
      cases used with
      | false => exact .inr ⟨port, by simp [UnorderedMap.index, held], by simp [held], origin⟩
      | true => simpa [UnorderedMap.index, held] using ih (attempts + 1)

/-! ## Every handler is a change -/

variable {host : Host} {cfg : ManagerConfig} {env : Env} {m : AllocationManager}
  {msg : TurnMessage} {client : Endpoint}

/-- Everything `handleAllocate` asks of a request but the quota: a client without
an allocation, UDP, and a free port to be found. -/
def Admits (cfg : ManagerConfig) (env : Env) (m : AllocationManager) (msg : TurnMessage)
    (client : Endpoint) : Prop :=
  m.byClient.lookup (endpointKey client) = none ∧
  (∃ rt, msg.findAttr AttrType.requestedTransport = some rt ∧ 4 ≤ rt.value.length ∧
    byteAt rt.value 0 = 17) ∧
  (allocatePort cfg env.draws m.usedPorts).1.isSome

/-- A request that is not granted changes nothing; one that is adds an allocation. -/
theorem handleAllocate_cases (host : Host) (cfg : ManagerConfig) (env : Env)
    (m : AllocationManager) (msg : TurnMessage) (client : Endpoint) (username realm : Bytes) :
    (¬ (Admits cfg env m msg client ∧ m.userCount env.order username < cfg.maxAllocPerUser) ∧
      (handleAllocate host cfg env m msg client username realm).1 = m) ∨
    Admits cfg env m msg client ∧ m.userCount env.order username < cfg.maxAllocPerUser ∧
      ∃ port expiresAt, m.usedPorts.lookup port ≠ some true ∧ (∃ draw, port = drawPort cfg draw) ∧
        (handleAllocate host cfg env m msg client username realm).1 =
          m.create (fresh cfg m client username realm port expiresAt)
            (m.usedPorts.insert port true) := by
  unfold handleAllocate
  split
  · rename_i known
    refine .inl ⟨fun granted => ?_, rfl⟩
    simp [granted.1.1] at known
  · rename_i absent
    have absent : m.byClient.lookup (endpointKey client) = none := by simpa using absent
    split
    · rename_i missing
      refine .inl ⟨fun granted => ?_, rfl⟩
      obtain ⟨_, found, _⟩ := granted.1.2.1
      simp [missing] at found
    · rename_i rt found
      split
      · rename_i other
        refine .inl ⟨fun granted => ?_, rfl⟩
        obtain ⟨rt', found', long, udp⟩ := granted.1.2.1
        obtain rfl := Option.some.inj (found.symm.trans found')
        rcases other with short | other
        · omega
        · exact other udp
      · rename_i udp
        obtain ⟨long, udp⟩ := not_or.mp udp
        split
        · rename_i full
          exact .inl ⟨fun granted => absurd granted.2 (UInt32.not_lt.mpr full), rfl⟩
        · rename_i room
          have room : m.userCount env.order username < cfg.maxAllocPerUser :=
            UInt32.not_le.mp room
          rcases tryPorts_spec cfg env.draws 1000 0 m.usedPorts with
            full | ⟨port, free, unused, drawn⟩
          · rw [allocatePort, full]
            refine .inl ⟨fun granted => ?_, rfl⟩
            have found := granted.1.2.2
            simp [allocatePort, full] at found
          · rw [allocatePort, free]
            refine .inr ⟨⟨absent, ⟨rt, found, by omega, not_not.mp udp⟩, ?_⟩, room, port, _,
              unused, drawn, rfl⟩
            simp [allocatePort, free]

theorem handleAllocate_change (username realm : Bytes) :
    Change host cfg env client username m
      (handleAllocate host cfg env m msg client username realm).1 := by
  rcases handleAllocate_cases host cfg env m msg client username realm with
    ⟨_, same⟩ | ⟨⟨absent, _⟩, room, port, expiresAt, unused, drawn, created⟩
  · rw [same]
    exact .same
  · rw [created]
    exact .create realm port expiresAt absent room unused drawn

theorem handleRefresh_change (username user : Bytes) :
    Change host cfg env client user m (handleRefresh env m msg client username).1 := by
  unfold handleRefresh
  split
  · exact .same
  · rename_i p alloc found
    split
    · exact .same
    · by_cases zero : requestedLifetime msg = 0
      · simp only [zero, ↓reduceIte]
        exact .release p alloc found
      · simp only [zero, ↓reduceIte]
        exact .touch p alloc _ found (.single (.refresh alloc _))

/-- The loop of CreatePermission only adds permissions for allowed addresses. -/
theorem permitPeers_touches (host : Host) (env : Env) (attrs : List Attribute) (a : Allocation)
    (foundPeer : Bool) :
    Touches host env a (permitPeers host env.now attrs a foundPeer).1 := by
  induction attrs generalizing a foundPeer with
  | nil => exact .refl
  | cons attr attrs ih =>
    simp only [permitPeers]
    split
    · exact ih a foundPeer
    · split
      · exact ih a foundPeer
      · split
        · exact .refl
        · rename_i allowed
          exact .head (.permit a (peerIp attr.value) (by simpa using allowed)) (ih _ true)

theorem handleCreatePermission_change (user : Bytes) :
    Change host cfg env client user m (handleCreatePermission host env m msg client).1 := by
  unfold handleCreatePermission
  split
  · exact .same
  · rename_i p alloc found
    have writes := permitPeers_touches host env msg.attributes alloc false
    split <;> rename_i ended <;> rw [ended] at writes <;> exact .touch p alloc _ found writes

theorem handleChannelBind_change (user : Bytes) :
    Change host cfg env client user m (handleChannelBind host env m msg client).1 := by
  unfold handleChannelBind
  split
  · exact .same
  · rename_i p alloc found
    split
    · rename_i chAttr peerAttr _ _
      split
      · exact .same
      · simp only
        split
        · exact .same
        · rename_i range
          split
          · exact .same
          · rename_i allowed
            split
            · exact .same
            · rename_i free
              have valid : 0x4000 ≤ be16 (byteAt chAttr.value 0) (byteAt chAttr.value 1) ∧
                  be16 (byteAt chAttr.value 0) (byteAt chAttr.value 1) ≤ 0x4FFF := by
                simpa only [not_or, UInt16.not_lt] using range
              have allowed : isDeniedAddress host
                  (host.addressToString (peerIp peerAttr.value)) = false := by
                simpa [peerEndpoint] using allowed
              have bound : Touch host env alloc (alloc.bind env.now _ _) :=
                .bind alloc _ (peerIp peerAttr.value) (peerPort peerAttr.value) valid allowed
                  (by simpa [peerEndpoint] using free)
              exact .touch p alloc _ found
                (.tail (.single bound) (.permit _ (peerIp peerAttr.value) allowed))
    · exact .same

end Zaza.AllocationSteps
