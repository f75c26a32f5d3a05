import Zaza.AllocationSteps
import Zaza.DualIndex
import Zaza.Machine

/-!
The representation invariant of the allocation manager, over every sequence of
its operations.

`Inv` is what one call preserves: the two tables index the same objects, a port
is marked exactly while a live allocation has it, and no user is over quota.
Every part follows from `Change`. `Representation` is the invariant read out in
the manager's own terms, for any run from the empty manager.
-/
namespace Zaza.AllocationInvariant
open Zaza AllocationManager AllocationSteps

/-- Keys are told apart by their last colon, so they name one endpoint each,
whatever the address text is. -/
theorem endpointKey_injective : Function.Injective endpointKey := by
  rintro ⟨address, port⟩ ⟨address', port'⟩ same
  obtain ⟨sameAddress, samePort⟩ := last_separator_unique
    (colon_notMem_toString _) (colon_notMem_toString _) same
  have ports := UInt16.toNat_inj.mp (toString_injective samePort)
  simp only at sameAddress ports
  rw [sameAddress, ports]

def clientKey (a : Allocation) : Bytes := endpointKey a.clientAddr

def relayKey (a : Allocation) : Bytes := endpointKey a.relayedAddr

/-- The objects in the client table. -/
def live (m : AllocationManager) : List Allocation :=
  m.byClient.entries.filterMap fun entry => m.heap[entry.2]?

/-- Object `a`, at `p`, is in the client table. -/
def Live (m : AllocationManager) (p : Ptr) (a : Allocation) : Prop :=
  m.heap[p]? = some a ∧ ∃ k, m.byClient.lookup k = some p

/-- The live allocations of one user. -/
def userAllocations (m : AllocationManager) (username : Bytes) : List Allocation :=
  (live m).filter (·.username = username)

structure Inv (cfg : ManagerConfig) (m : AllocationManager) : Prop where
  clients : Indexed m.heap clientKey m.byClient relayKey m.byRelay
  relays : Indexed m.heap relayKey m.byRelay clientKey m.byClient
  /-- A port is marked exactly while its relayed address is in the table. -/
  ports : ∀ port used, m.usedPorts.lookup port = some used ↔
    used = true ∧ (m.byRelay.lookup (endpointKey ⟨cfg.relayAddress, port⟩)).isSome
  relayed : ∀ p a, Live m p a → a.relayedAddr.address = cfg.relayAddress ∧
    ∃ draw, a.relayedAddr.port = drawPort cfg draw
  quota : ∀ username, (userAllocations m username).length ≤ cfg.maxAllocPerUser.toNat

/-! ## Live allocations -/

variable {host : Host} {cfg : ManagerConfig} {env : Env} {m m' : AllocationManager}
  {client : Endpoint} {username : Bytes}

theorem mem_live : a ∈ live m ↔ ∃ p, Live m p a := by
  simp only [live, List.mem_filterMap, Live]
  constructor
  · rintro ⟨⟨k, p⟩, member, held⟩
    exact ⟨p, held, k, AList.mem_lookup_iff.mpr member⟩
  · rintro ⟨p, held, k, found⟩
    exact ⟨⟨k, p⟩, AList.mem_lookup_iff.mp found, held⟩

theorem live_of_find (found : m.find m.byClient e = some (p, a)) : Live m p a := by
  obtain ⟨known, held⟩ := find_eq_some.mp found
  exact ⟨held, _, known⟩

theorem Inv.live_client (inv : Inv cfg m) (lives : Live m p a) :
    m.find m.byClient a.clientAddr = some (p, a) := by
  obtain ⟨held, k, found⟩ := lives
  obtain ⟨b, inside, named, _⟩ := inv.clients found
  obtain rfl : a = b := by simpa [held] using inside
  exact find_eq_some.mpr ⟨by rw [← clientKey, named, found], held⟩

theorem Inv.live_relay (inv : Inv cfg m) (lives : Live m p a) :
    m.find m.byRelay a.relayedAddr = some (p, a) := by
  obtain ⟨held, k, found⟩ := lives
  obtain ⟨b, inside, _, known⟩ := inv.clients found
  obtain rfl : a = b := by simpa [held] using inside
  exact find_eq_some.mpr ⟨known, held⟩

/-- A lookup by client returns an allocation of exactly that client. -/
theorem Inv.client_exact (inv : Inv cfg m) (found : m.find m.byClient e = some (p, a)) :
    a.clientAddr = e := by
  obtain ⟨known, held⟩ := find_eq_some.mp found
  obtain ⟨b, inside, named, _⟩ := inv.clients known
  obtain rfl : a = b := by simpa [held] using inside
  exact endpointKey_injective named

/-- A lookup by relayed address returns a live allocation with exactly that
address. -/
theorem Inv.relay_exact (inv : Inv cfg m) (found : m.find m.byRelay e = some (p, a)) :
    a.relayedAddr = e ∧ Live m p a := by
  obtain ⟨known, held⟩ := find_eq_some.mp found
  obtain ⟨b, inside, named, back⟩ := inv.relays known
  obtain rfl : a = b := by simpa [held] using inside
  exact ⟨endpointKey_injective named, held, _, back⟩

/-- An allocation that is live after a call is the new one, or was live before
and has been written to. -/
theorem live_cases (change : Change host cfg env client username m m')
    (lives : Live m' q b) :
    (∃ realm port expiresAt, b = fresh cfg m client username realm port expiresAt ∧
      (∃ draw, port = drawPort cfg draw) ∧ q = m.heap.length ∧ m'.nextId = m.nextId + 1) ∨
    ∃ a, Live m q a ∧ Touches host env a b ∧ (m.nextId = m'.nextId ∨ m'.nextId = m.nextId + 1) := by
  obtain ⟨held, k, found⟩ := lives
  cases change with
  | same => exact .inr ⟨b, ⟨held, k, found⟩, .refl, .inl rfl⟩
  | create realm port expiresAt absent quota unused drawn =>
    simp only [create, fresh_clientAddr] at held found
    by_cases new : q = m.heap.length
    · subst new
      obtain rfl : fresh cfg m client username realm port expiresAt = b := by simpa using held
      exact .inl ⟨realm, port, expiresAt, rfl, drawn, rfl, rfl⟩
    · have old : k ≠ endpointKey client := by
        rintro rfl
        rw [AList.lookup_insert] at found
        exact new (Option.some.inj found).symm
      rw [AList.lookup_insert_ne old] at found
      have bound := (List.getElem?_eq_some_iff.mp held).1
      rw [List.length_append, List.length_singleton] at bound
      have earlier : q < m.heap.length := Nat.lt_of_le_of_ne (Nat.lt_succ_iff.mp bound) new
      have inside : m.heap[q]? = some b := by
        rwa [List.getElem?_append_left earlier] at held
      exact .inr ⟨b, ⟨inside, k, found⟩, .refl, .inr rfl⟩
  | touch p a a' located writes =>
    obtain ⟨known, object⟩ := find_eq_some.mp located
    simp only [store] at held found
    by_cases same : q = p
    · subst same
      have bound := (List.getElem?_eq_some_iff.mp object).1
      rw [List.getElem?_set_self bound] at held
      obtain rfl := Option.some.inj held
      exact .inr ⟨a, ⟨object, k, found⟩, writes, .inl rfl⟩
    · rw [List.getElem?_set_ne (Ne.symm same)] at held
      exact .inr ⟨b, ⟨held, k, found⟩, .refl, .inl rfl⟩
  | release p a located =>
    simp only [release] at held found
    by_cases gone : k = endpointKey client
    · rw [gone, AList.lookup_erase] at found
      simp at found
    · rw [AList.lookup_erase_ne gone] at found
      exact .inr ⟨b, ⟨held, k, found⟩, .refl, .inl rfl⟩

/-- What every write keeps and every fresh allocation has, every live
allocation has after a call. -/
theorem forall_live {Good : Allocation → Prop}
    (change : Change host cfg env client username m m')
    (new : ∀ realm port expiresAt, Good (fresh cfg m client username realm port expiresAt))
    (kept : ∀ a a', Touch host env a a' → Good a → Good a')
    (before : ∀ p a, Live m p a → Good a) : ∀ p a, Live m' p a → Good a := by
  intro p b lives
  rcases live_cases change lives with
    ⟨realm, port, expiresAt, rfl, _⟩ | ⟨a, old, writes, _⟩
  · exact new realm port expiresAt
  · have good := before p a old
    clear lives old
    induction writes with
    | refl => exact good
    | tail _ write ih => exact kept _ _ write ih

/-- Writes leave the identity of an allocation alone. -/
theorem touches_frame (writes : Touches host env a a') :
    a'.id = a.id ∧ a'.clientAddr = a.clientAddr ∧ a'.relayedAddr = a.relayedAddr ∧
      a'.username = a.username ∧ a'.realm = a.realm := by
  induction writes with
  | refl => exact ⟨rfl, rfl, rfl, rfl, rfl⟩
  | tail _ write ih => cases write <;> exact ih

/-! ## The quota counter -/

private theorem count_fold (entries : List β) (counted : β → Bool) (start : UInt32) :
    entries.foldl (fun count entry => if counted entry then count + 1 else count) start =
      start + (entries.countP counted).toUInt32 := by
  induction entries generalizing start with
  | nil => simp
  | cons entry entries ih =>
    rw [List.foldl_cons, ih]
    by_cases hit : counted entry = true
    · simp [hit, UInt32.add_assoc, UInt32.add_comm 1]
    · simp [hit]

/-- Below the wrap of its counter, `handleAllocate` counts the user's live
allocations. -/
theorem userCount_eq (order : IterOrder)
    (small : (userAllocations m username).length < 4294967296) :
    (m.userCount order username).toNat = (userAllocations m username).length := by
  have counted : ((m.byClient.iterate order).countP
      fun entry => m.heap[entry.2]?.any (·.username = username)) =
      (userAllocations m username).length := by
    rw [(m.byClient.iterate_perm order).countP_eq, List.countP_map, userAllocations,
      ← List.countP_eq_length_filter, live, List.countP_filterMap]
    congr 1
    funext entry
    simp only [Function.comp_apply]
    cases m.heap[entry.2]? <;> simp
  rw [userCount, count_fold, counted]
  simp only [Nat.toUInt32, UInt32.toNat_add, UInt32.toNat_ofNat', UInt32.reduceToNat]
  omega

/-! ## One call -/

theorem Inv.empty (cfg : ManagerConfig) : Inv cfg AllocationManager.empty where
  clients := Indexed.empty
  relays := Indexed.empty
  ports := by simp [AllocationManager.empty]
  relayed := by
    rintro p a ⟨held, _⟩
    simp [AllocationManager.empty] at held
  quota := by
    intro username
    simp [userAllocations, live, AllocationManager.empty]

private theorem relayed_preserved (inv : Inv cfg m)
    (change : Change host cfg env client username m m') : ∀ p a, Live m' p a →
      a.relayedAddr.address = cfg.relayAddress ∧
        ∃ draw, a.relayedAddr.port = drawPort cfg draw := by
  intro p b lives
  rcases live_cases change lives with
    ⟨realm, port, expiresAt, rfl, drawn, _⟩ | ⟨a, old, writes, _⟩
  · exact ⟨rfl, drawn⟩
  · rw [(touches_frame writes).2.2.1]
    exact inv.relayed p a old

/-- A fresh allocation joins the live ones. -/
theorem live_create (inv : Inv cfg m) (alloc : Allocation)
    (absent : m.byClient.lookup (clientKey alloc) = none) (usedPorts : UnorderedMap UInt16 Bool) :
    live (m.create alloc usedPorts) = alloc :: live m := by
  have notMem : clientKey alloc ∉ m.byClient := AList.lookup_eq_none.mp absent
  have rest : (m.byClient.entries.filterMap fun entry => (m.heap ++ [alloc])[entry.2]?) =
      live m := by
    apply List.filterMap_congr
    rintro ⟨k, p⟩ member
    obtain ⟨a, held, _⟩ := inv.clients (AList.mem_lookup_iff.mpr member)
    exact List.getElem?_append_left (List.getElem?_eq_some_iff.mp held).1
  rw [live, create]
  simp only
  rw [← clientKey, AList.entries_insert_of_notMem notMem, List.filterMap_cons]
  simp [rest]

/-- A write that a count does not notice leaves it as it is. -/
theorem countP_live_store (counted : Allocation → Bool) (held : m.heap[p]? = some a)
    (same : counted a' = counted a) :
    (live (m.store p a')).countP counted = (live m).countP counted := by
  rw [live, live, List.countP_filterMap, List.countP_filterMap]
  congr 1
  funext entry
  simp only [store]
  by_cases hit : p = entry.2
  · have bound := (List.getElem?_eq_some_iff.mp held).1
    rw [← hit, List.getElem?_set_self bound, held]
    simp [same]
  · rw [List.getElem?_set_ne hit]

/-- A release adds nothing. -/
theorem live_release_sublist (client : Endpoint) (a : Allocation) :
    (live (m.release client a)).Sublist (live m) :=
  (List.kerase_sublist _ _).filterMap _

/-- **One call preserves the invariant.** -/
theorem Inv.preserved (inv : Inv cfg m) (change : Change host cfg env client username m m') :
    Inv cfg m' := by
  have relayed := relayed_preserved inv change
  cases change with
  | same => exact inv
  | create realm port expiresAt absent quota unused drawn =>
    set alloc := fresh cfg m client username realm port expiresAt with object
    have free : m.byRelay.lookup (relayKey alloc) = none := by
      by_contra taken
      exact unused ((inv.ports port true).mpr ⟨rfl, Option.isSome_iff_ne_none.mpr taken⟩)
    refine ⟨inv.clients.add free, inv.relays.add absent, ?_, relayed, ?_⟩
    · intro port' used
      by_cases new : port' = port
      · subst new
        simp only [create]
        rw [show relayKey alloc = endpointKey ⟨cfg.relayAddress, port'⟩ from rfl] at *
        simp [AList.lookup_insert, object, fresh, eq_comm]
      · have apart : endpointKey ⟨cfg.relayAddress, port'⟩ ≠ endpointKey alloc.relayedAddr := by
          intro same
          exact new (congrArg Endpoint.port (endpointKey_injective same))
        simp only [create]
        rw [AList.lookup_insert_ne new, AList.lookup_insert_ne apart]
        exact inv.ports port' used
    · intro user
      rw [userAllocations, live_create inv alloc absent, List.filter_cons]
      split
      · rename_i mine
        obtain rfl : username = user := of_decide_eq_true mine
        have bound := inv.quota username
        have room := UInt32.lt_iff_toNat_lt.mp quota
        rw [userCount_eq env.order (Nat.lt_of_le_of_lt bound cfg.maxAllocPerUser.toNat_lt)] at room
        rw [List.length_cons, ← userAllocations]
        omega
      · exact inv.quota user
  | touch p a a' located writes =>
    obtain ⟨known, held⟩ := find_eq_some.mp located
    obtain ⟨_, sameClient, sameRelay, sameUser, _⟩ := touches_frame writes
    refine ⟨inv.clients.set held (by simp [clientKey, sameClient]) (by simp [relayKey, sameRelay]),
      inv.relays.set held (by simp [relayKey, sameRelay]) (by simp [clientKey, sameClient]),
      inv.ports, relayed, ?_⟩
    intro user
    rw [userAllocations, ← List.countP_eq_length_filter,
      countP_live_store _ held (by simp [sameUser]), List.countP_eq_length_filter]
    exact inv.quota user
  | release p a located =>
    obtain ⟨known, held⟩ := find_eq_some.mp located
    have named : endpointKey client = clientKey a := by rw [clientKey, inv.client_exact located]
    have relay := (find_eq_some.mp (inv.live_relay (live_of_find located))).1
    have address := (inv.relayed p a (live_of_find located)).1
    refine ⟨?_, ?_, ?_, relayed, ?_⟩
    · simp only [AllocationManager.release, named]
      exact inv.clients.remove (named ▸ known) held
    · simp only [AllocationManager.release, named]
      exact inv.relays.remove relay held
    · intro port used
      simp only [AllocationManager.release]
      by_cases mine : port = a.relayedAddr.port
      · have key : endpointKey ⟨cfg.relayAddress, port⟩ = endpointKey a.relayedAddr := by
          rw [mine, ← address]
        rw [key, mine, AList.lookup_erase, AList.lookup_erase]
        simp
      · have apart : endpointKey ⟨cfg.relayAddress, port⟩ ≠ endpointKey a.relayedAddr := by
          intro same
          exact mine (congrArg Endpoint.port (endpointKey_injective same))
        rw [AList.lookup_erase_ne mine, AList.lookup_erase_ne apart]
        exact inv.ports port used
    · intro user
      exact ((live_release_sublist client a).filter _).length_le.trans (inv.quota user)

/-! ## Every sequence of calls -/

/-- A call of one of the manager's handlers. -/
inductive ManagerCall where
  | allocate (msg : TurnMessage) (client : Endpoint) (username realm : Bytes)
  | refresh (msg : TurnMessage) (client : Endpoint) (username : Bytes)
  | createPermission (msg : TurnMessage) (client : Endpoint)
  | channelBind (msg : TurnMessage) (client : Endpoint)
  | send (msg : TurnMessage) (client : Endpoint)
  | peerData (data : Bytes) (peer relayAddr : Endpoint)

/-- The returned response, or the datagrams given to the callbacks. -/
inductive ManagerReply where
  | response (bytes : Bytes)
  | sent (datagrams : List Datagram)

def call (host : Host) (cfg : ManagerConfig) (env : Env) (m : AllocationManager) :
    ManagerCall → AllocationManager × ManagerReply
  | .allocate msg client username realm =>
    (handleAllocate host cfg env m msg client username realm).map id .response
  | .refresh msg client username => (handleRefresh env m msg client username).map id .response
  | .createPermission msg client => (handleCreatePermission host env m msg client).map id .response
  | .channelBind msg client => (handleChannelBind host env m msg client).map id .response
  | .send msg client => (m, .sent (handleSend host cfg env m msg client))
  | .peerData data peer relayAddr => (m, .sent (handlePeerData host cfg env m data peer relayAddr))

/-- The manager on its own, called in any way at any time. -/
def managerMachine (host : Host) (cfg : ManagerConfig) :
    Machine AllocationManager (ManagerCall × Env) ManagerReply Empty where
  init := AllocationManager.empty
  step m input := .ok (call host cfg input.2 m input.1)

theorem call_change (host : Host) (cfg : ManagerConfig) (env : Env) (m : AllocationManager)
    (c : ManagerCall) :
    ∃ client username, Change host cfg env client username m (call host cfg env m c).1 := by
  cases c with
  | allocate msg client username realm => exact ⟨client, username, handleAllocate_change _ _⟩
  | refresh msg client username => exact ⟨client, username, handleRefresh_change _ _⟩
  | createPermission msg client => exact ⟨client, [], handleCreatePermission_change _⟩
  | channelBind msg client => exact ⟨client, [], handleChannelBind_change _⟩
  | send msg client => exact ⟨client, [], .same⟩
  | peerData data peer relayAddr => exact ⟨peer, [], .same⟩

theorem takes_change {t : Transition AllocationManager (ManagerCall × Env) ManagerReply}
    (taken : (managerMachine host cfg).Takes t) :
    ∃ client username, Change host cfg t.input.2 client username t.before t.after := by
  have result : call host cfg t.input.2 t.before t.input.1 = (t.after, t.output) :=
    Except.ok.inj taken
  have change := call_change host cfg t.input.2 t.before t.input.1
  rwa [result] at change

/-- Along the run `next_id_` has only grown. -/
def NeverWrapped (ts : List (Transition AllocationManager ι ο)) : Prop :=
  ∀ t ∈ ts, t.before.nextId ≤ t.after.nextId

/-- Ids in use are below the next one and different. -/
def IdInv (m : AllocationManager) : Prop :=
  (∀ p a, Live m p a → a.id < m.nextId) ∧
  ∀ p a q b, Live m p a → Live m q b → p ≠ q → a.id ≠ b.id

theorem IdInv.preserved (ids : IdInv m) (change : Change host cfg env client username m m')
    (grown : m.nextId ≤ m'.nextId) : IdInv m' := by
  -- A live allocation is the fresh one, which has the old `next_id_`, or has an old id.
  have origin : ∀ p a, Live m' p a → (p = m.heap.length ∧ a.id = m.nextId ∧ m.nextId < m'.nextId) ∨
      ∃ old, Live m p old ∧ a.id = old.id := by
    intro p a lives
    rcases live_cases change lives with
      ⟨realm, port, expiresAt, rfl, _, place, next⟩ | ⟨old, before, writes, _⟩
    · refine .inl ⟨place, rfl, ?_⟩
      rw [UInt64.lt_iff_le_and_ne]
      refine ⟨grown, ?_⟩
      rw [next]
      intro stuck
      have : (1 : UInt64) = 0 := by simpa using stuck.symm
      exact absurd this (by decide)
    · exact .inr ⟨old, before, (touches_frame writes).1⟩
  have earlier : ∀ {p a}, Live m p a → p ≠ m.heap.length := by
    rintro p a ⟨held, _⟩ rfl
    simp at held
  constructor
  · intro p a lives
    rcases origin p a lives with ⟨_, same, grows⟩ | ⟨old, before, same⟩
    · rw [same]
      exact grows
    · rw [same]
      exact UInt64.lt_of_lt_of_le (ids.1 p old before) grown
  · intro p a q b left right apart
    rcases origin p a left with ⟨place, same, _⟩ | ⟨old, before, same⟩ <;>
      rcases origin q b right with ⟨place', same', _⟩ | ⟨old', before', same'⟩
    · exact absurd (place.trans place'.symm) apart
    · rw [same, same']
      exact (UInt64.ne_of_lt (ids.1 q old' before')).symm
    · rw [same, same']
      exact UInt64.ne_of_lt (ids.1 p old before)
    · rw [same, same']
      exact ids.2 p old q old' before before' apart

/-- Every drawn port lies in the configured range, also when the range is so
wide that its size wraps to zero. -/
theorem drawPort_mem (ordered : cfg.relayPortMin ≤ cfg.relayPortMax) (draw : Nat) :
    cfg.relayPortMin ≤ drawPort cfg draw ∧ drawPort cfg draw ≤ cfg.relayPortMax := by
  have minMax := UInt16.le_iff_toNat_le.mp ordered
  have maxBound := cfg.relayPortMax.toNat_lt
  have span : (cfg.relayPortMax - cfg.relayPortMin + 1 - 1).toNat =
      cfg.relayPortMax.toNat - cfg.relayPortMin.toNat := by
    rw [UInt16.add_sub_cancel, UInt16.toNat_sub_of_le _ _ ordered]
  have drawn := (uniformInt_mem (Nat.zero_le
    (cfg.relayPortMax.toNat - cfg.relayPortMin.toNat)) draw).2
  have value : (drawPort cfg draw).toNat = cfg.relayPortMin.toNat +
      uniformInt 0 (cfg.relayPortMax.toNat - cfg.relayPortMin.toNat) draw := by
    simp only [drawPort, span, UInt16.toNat_add, Nat.toUInt16, UInt16.toNat_ofNat']
    omega
  rw [UInt16.le_iff_toNat_le, UInt16.le_iff_toNat_le, value]
  omega

/-- What the manager's tables represent. -/
structure Representation (cfg : ManagerConfig) (m : AllocationManager) : Prop where
  sameAllocations : ∀ p, (∃ k, m.byClient.lookup k = some p) ↔ ∃ k, m.byRelay.lookup k = some p
  clientKeys : ∀ k p, m.byClient.lookup k = some p →
    ∃ a, m.heap[p]? = some a ∧ k = endpointKey a.clientAddr
  relayKeys : ∀ k p, m.byRelay.lookup k = some p →
    ∃ a, m.heap[p]? = some a ∧ k = endpointKey a.relayedAddr
  foundByClient : ∀ e a, m.findByClient e = some a → a.clientAddr = e
  foundByRelay : ∀ e a, m.findByRelay e = some a → a.relayedAddr = e
  usedPorts : ∀ port used, m.usedPorts.lookup port = some used ↔
    used = true ∧ ∃ p a, Live m p a ∧ a.relayedAddr.port = port
  portRange : ∀ port ∈ m.usedPorts, cfg.relayPortMin ≤ port ∧ port ≤ cfg.relayPortMax
  distinct : ∀ p a q b, Live m p a → Live m q b → p ≠ q →
    a.relayedAddr ≠ b.relayedAddr ∧ a.clientAddr ≠ b.clientAddr
  quota : ∀ username, (userAllocations m username).length ≤ cfg.maxAllocPerUser.toNat

/-- A relayed port is in the table exactly while a live allocation has it. -/
theorem Inv.marked_port (inv : Inv cfg m) (port : UInt16) :
    (m.byRelay.lookup (endpointKey ⟨cfg.relayAddress, port⟩)).isSome ↔
      ∃ p a, Live m p a ∧ a.relayedAddr.port = port := by
  constructor
  · intro known
    obtain ⟨p, found⟩ := Option.isSome_iff_exists.mp known
    obtain ⟨a, held, _⟩ := inv.relays found
    obtain ⟨exact, lives⟩ := inv.relay_exact (find_eq_some.mpr ⟨found, held⟩)
    exact ⟨p, a, lives, by rw [exact]⟩
  · rintro ⟨p, a, lives, rfl⟩
    rw [← (inv.relayed p a lives).1]
    exact Option.isSome_iff_exists.mpr ⟨p, (find_eq_some.mp (inv.live_relay lives)).1⟩

theorem Inv.representation (inv : Inv cfg m) (ordered : cfg.relayPortMin ≤ cfg.relayPortMax) :
    Representation cfg m where
  sameAllocations := inv.clients.same_pointers inv.relays
  clientKeys k p found := by
    obtain ⟨a, held, named, _⟩ := inv.clients found
    exact ⟨a, held, named.symm⟩
  relayKeys k p found := by
    obtain ⟨a, held, named, _⟩ := inv.relays found
    exact ⟨a, held, named.symm⟩
  foundByClient e a found := by
    obtain ⟨p, located⟩ := findByClient_eq_some.mp found
    exact inv.client_exact located
  foundByRelay e a found := by
    obtain ⟨p, located⟩ := findByRelay_eq_some.mp found
    exact (inv.relay_exact located).1
  usedPorts port used := by
    rw [inv.ports, inv.marked_port]
  portRange port marked := by
    obtain ⟨used, found⟩ := Option.isSome_iff_exists.mp (AList.lookup_isSome.mpr marked)
    obtain ⟨p, a, lives, rfl⟩ := (inv.marked_port port).mp ((inv.ports port used).mp found).2
    obtain ⟨draw, drawn⟩ := (inv.relayed p a lives).2
    rw [drawn]
    exact drawPort_mem ordered draw
  distinct p a q b left right apart := by
    constructor
    · intro same
      have found := inv.live_relay left
      rw [same, inv.live_relay right] at found
      exact apart (congrArg Prod.fst (Option.some.inj found)).symm
    · intro same
      have found := inv.live_client left
      rw [same, inv.live_client right] at found
      exact apart (congrArg Prod.fst (Option.some.inj found)).symm
  quota := inv.quota

/-- **The tables always represent one set of allocations.** After any calls of
the handlers, at any times and with any random draws, both tables hold the same
objects under the keys of their own addresses, the marked ports are those of
the live allocations and lie in the range, addresses are not shared, no user is
over quota, and ids are not shared either until `next_id_` wraps. -/
theorem manager_representation (host : Host) (cfg : ManagerConfig)
    (ordered : cfg.relayPortMin ≤ cfg.relayPortMax)
    (run : Run (managerMachine host cfg) ts m) :
    Representation cfg m ∧
      (NeverWrapped ts → ∀ p a q b, Live m p a → Live m q b → p ≠ q → a.id ≠ b.id) := by
  have inv : Inv cfg m := by
    refine run.invariant (Inv cfg) (Inv.empty cfg) fun t before taken => ?_
    obtain ⟨client, username, change⟩ := takes_change taken
    exact before.preserved change
  refine ⟨inv.representation ordered, fun grown => ?_⟩
  have ids : IdInv m := by
    refine run.invariant_when IdInv (fun t => t.before.nextId ≤ t.after.nextId) ?_
      (fun t before taken grows => ?_) grown
    · constructor <;> rintro p a <;> simp [Live, managerMachine, AllocationManager.empty]
    · obtain ⟨client, username, change⟩ := takes_change taken
      exact before.preserved change grows
  exact ids.2

/-- The widest range there is, two allocations a user. -/
def wideRange : ManagerConfig := ⟨ascii "192.0.2.1", 0, 65535, 2, true, true⟩

/-- Two clients allocate, the second on the last port, and the first releases. -/
def wideRangeCalls : List (ManagerCall × Env) :=
  let surroundings (draw : Nat) : Env := ⟨0, 0, fun _ => draw, [], .listed⟩
  let transport : Attribute := ⟨AttrType.requestedTransport, [17, 0, 0, 0]⟩
  let zero : Attribute := ⟨AttrType.lifetime, [0, 0, 0, 0]⟩
  let tid : TransactionId := Vector.replicate 12 1
  let first : Endpoint := ⟨ascii "198.51.100.1", 4000⟩
  let second : Endpoint := ⟨ascii "198.51.100.2", 4000⟩
  [(.allocate ⟨.request, .allocate, 8, tid, [transport]⟩ first (ascii "a") [], surroundings 7),
    (.allocate ⟨.request, .allocate, 8, tid, [transport]⟩ second (ascii "b") [],
      surroundings 65535),
    (.refresh ⟨.request, .refresh, 8, tid, [zero]⟩ first (ascii "a"), surroundings 7)]

theorem manager_representation_wide_range :
    ∃ ts m, Run (managerMachine (Host.posix [] [] []) wideRange) ts m ∧
      ((live m).length = 1 ∧ (7 : UInt16) ∉ m.usedPorts ∧ (65535 : UInt16) ∈ m.usedPorts) ∧
      Representation wideRange m ∧
      (NeverWrapped ts → ∀ p a q b, Live m p a → Live m q b → p ≠ q → a.id ≠ b.id) := by
  obtain ⟨ts, m, run, check⟩ := Run.of_exec
    (managerMachine (Host.posix [] [] []) wideRange) wideRangeCalls
    (fun _ m => (live m).length = 1 ∧ (7 : UInt16) ∉ m.usedPorts ∧
      (65535 : UInt16) ∈ m.usedPorts) (by decide +kernel)
  exact ⟨ts, m, run, by simpa using check,
    manager_representation (Host.posix [] [] []) wideRange (by decide) run⟩

end Zaza.AllocationInvariant
