import Mathlib.Data.List.TakeWhile
import Zaza.AllocationInvariant
import Zaza.Responses

/-!
What a request that is refused leaves behind.

Allocate, Refresh and ChannelBind check everything before they write, and a port
search that fails has not marked a port: `used_ports_[port]` adds an entry only
when the port is free, and a free port ends the search. So a refused request of
these three changes nothing, in any state. CreatePermission permits the peers one by
one and stops at the first that is denied; the peers before it stay permitted.
-/
namespace Zaza.FailedRequests
open Zaza StunCodec AllocationManager AllocationSteps Responses

/-- The class a response says it has. -/
def responseClass (resp : Bytes) : MessageClass := decodeClass (word16 resp 0)

variable {host : Host} {cfg : ManagerConfig} {env : Env} {m : AllocationManager}
  {msg : TurnMessage} {client : Endpoint} {username realm : Bytes}

theorem responseClass_of_headed {method : Method} {msgClass : MessageClass}
    {tid : TransactionId} {resp : Bytes} (headed : Headed method msgClass tid resp) :
    responseClass resp = msgClass := by
  rw [responseClass, headed.word16, class_encodeType]

theorem responseClass_makeError (tid : TransactionId) (code : UInt16) (reason : String) :
    responseClass (makeError tid code reason) = .errorResponse :=
  responseClass_of_headed (headed_makeError tid code reason)

/-- An error is no success. -/
theorem not_granted {tid : TransactionId} {code : UInt16} {reason : String} :
    responseClass (makeError tid code reason) ≠ .successResponse := by
  intro success
  rw [responseClass_makeError] at success
  cases success

theorem responseClass_build (b : MessageBuilder) {method : Method} {msgClass : MessageClass}
    (type : b.msgType = MessageBuilder.encodeType method msgClass) :
    responseClass b.build = msgClass :=
  responseClass_of_headed (headed_build b type)

/-! ## Allocate, Refresh, ChannelBind -/

/-- The handler has changed nothing, or answers with a success. -/
def Settled (m : AllocationManager) (result : AllocationManager × Bytes) : Prop :=
  result.1 = m ∨ responseClass result.2 = .successResponse

theorem Settled.unchanged {result : AllocationManager × Bytes} (settled : Settled m result)
    (refused : responseClass result.2 = .errorResponse) : result.1 = m := by
  rcases settled with same | granted
  · exact same
  · rw [refused] at granted
    cases granted

theorem handleAllocate_settled (host : Host) (cfg : ManagerConfig) (env : Env)
    (m : AllocationManager) (msg : TurnMessage) (client : Endpoint) (username realm : Bytes) :
    Settled m (handleAllocate host cfg env m msg client username realm) := by
  unfold handleAllocate
  split
  · exact .inl rfl
  split
  · exact .inl rfl
  split
  · exact .inl rfl
  split
  · exact .inl rfl
  -- The search has failed and left the ports as they were, or has found one.
  rcases tryPorts_spec cfg env.draws 1000 0 m.usedPorts with full | ⟨port, free, _⟩
  · rw [allocatePort, full]
    exact .inl rfl
  · rw [allocatePort, free]
    exact .inr (responseClass_build _ rfl)

theorem handleRefresh_settled (env : Env) (m : AllocationManager) (msg : TurnMessage)
    (client : Endpoint) (username : Bytes) :
    Settled m (handleRefresh env m msg client username) := by
  unfold handleRefresh
  split
  · exact .inl rfl
  split
  · exact .inl rfl
  · exact .inr (responseClass_build _ rfl)

theorem handleChannelBind_settled (host : Host) (env : Env) (m : AllocationManager)
    (msg : TurnMessage) (client : Endpoint) :
    Settled m (handleChannelBind host env m msg client) := by
  unfold handleChannelBind
  split
  · exact .inl rfl
  split
  · split
    · exact .inl rfl
    simp only
    split
    · exact .inl rfl
    split
    · exact .inl rfl
    split
    · exact .inl rfl
    · exact .inr (responseClass_build _ rfl)
  · exact .inl rfl

/-- **A refused Allocate, Refresh or ChannelBind changes nothing**: neither table, no port
mark, no id and no allocation, whatever the state, the message and the draws. -/
theorem refused_changes_nothing (host : Host) (cfg : ManagerConfig) (env : Env)
    (m : AllocationManager) (msg : TurnMessage) (client : Endpoint) (username realm : Bytes) :
    (responseClass (handleAllocate host cfg env m msg client username realm).2 = .errorResponse →
        (handleAllocate host cfg env m msg client username realm).1 = m) ∧
      (responseClass (handleRefresh env m msg client username).2 = .errorResponse →
        (handleRefresh env m msg client username).1 = m) ∧
      (responseClass (handleChannelBind host env m msg client).2 = .errorResponse →
        (handleChannelBind host env m msg client).1 = m) :=
  ⟨(handleAllocate_settled host cfg env m msg client username realm).unchanged,
    (handleRefresh_settled env m msg client username).unchanged,
    (handleChannelBind_settled host env m msg client).unchanged⟩

/-- A client of the range, and the surroundings of all calls. -/
def aClient : Endpoint := ⟨ascii "198.51.100.1", 4000⟩

def calm : Env := ⟨0, 0, fun _ => 7, [], .listed⟩

/-- An Allocate for UDP. -/
def allocateUdp : TurnMessage :=
  ⟨.request, .allocate, 8, Vector.replicate 12 1, [⟨AttrType.requestedTransport, [17, 0, 0, 0]⟩]⟩

/-- The manager after the client has allocated. -/
def allocated : AllocationManager :=
  (handleAllocate (Host.posix [] [] []) AllocationInvariant.wideRange calm .empty allocateUdp
    aClient (ascii "a") []).1

/-- Another client draws the same port a thousand times. -/
theorem refused_changes_nothing_full :
    responseClass (handleAllocate (Host.posix [] [] []) AllocationInvariant.wideRange calm
        allocated allocateUdp ⟨ascii "198.51.100.2", 4000⟩ (ascii "b") []).2 = .errorResponse ∧
      (handleAllocate (Host.posix [] [] []) AllocationInvariant.wideRange calm allocated
        allocateUdp ⟨ascii "198.51.100.2", 4000⟩ (ascii "b") []).1 = allocated := by
  have refused : responseClass (handleAllocate (Host.posix [] [] []) AllocationInvariant.wideRange
      calm allocated allocateUdp ⟨ascii "198.51.100.2", 4000⟩ (ascii "b") []).2 =
        .errorResponse := by decide +kernel
  exact ⟨refused, (refused_changes_nothing _ _ _ _ _ _ _ _).1 refused⟩

/-! ## CreatePermission -/

/-- The address of a peer, as `handleCreatePermission` reads it. -/
def peerAddress (host : Host) (attr : Attribute) : Bytes :=
  host.addressToString (peerIp attr.value)

def denied (host : Host) (attr : Attribute) : Bool := isDeniedAddress host (peerAddress host attr)

/-- The permission the client's allocation has for an address. -/
def permissionOf (m : AllocationManager) (client : Endpoint) (address : Bytes) :
    Option Permission :=
  (m.findByClient client).bind fun alloc => alloc.permissions.lookup address

/-- A permission granted now. -/
def grant (env : Env) (address : Bytes) : Permission :=
  ⟨address, env.now + seconds Allocation.kPermissionTTL⟩

theorem permissionOf_found {p : Ptr} {a : Allocation}
    (found : m.find m.byClient client = some (p, a)) (address : Bytes) :
    permissionOf m client address = a.permissions.lookup address := by
  simp [permissionOf, findByClient, found]

/-- A refused CreatePermission has changed no permission, and one that is granted has
permitted the peers it names, of which there is one, and nobody else. -/
structure AllOrNothing (host : Host) (env : Env) (m : AllocationManager) (msg : TurnMessage)
    (client : Endpoint) : Prop where
  refused : responseClass (handleCreatePermission host env m msg client).2 = .errorResponse →
    ∀ address, permissionOf (handleCreatePermission host env m msg client).1 client address =
      permissionOf m client address
  granted : responseClass (handleCreatePermission host env m msg client).2 = .successResponse →
    peerAttrs msg.attributes ≠ [] ∧
    (∀ attr ∈ peerAttrs msg.attributes,
      permissionOf (handleCreatePermission host env m msg client).1 client (peerAddress host attr) =
        some (grant env (peerAddress host attr))) ∧
    ∀ address, (∀ attr ∈ peerAttrs msg.attributes, peerAddress host attr ≠ address) →
      permissionOf (handleCreatePermission host env m msg client).1 client address =
        permissionOf m client address

/-- The peers named before the first that is denied. -/
def beforeDenied (host : Host) (attrs : List Attribute) : List Attribute :=
  (peerAttrs attrs).takeWhile fun attr => !denied host attr

/-- If a peer is denied, those named before it are permitted already, for just as long. -/
def NothingBeforeDenied (host : Host) (env : Env) (m : AllocationManager) (msg : TurnMessage)
    (client : Endpoint) : Prop :=
  (m.findByClient client).isSome → (peerAttrs msg.attributes).any (denied host) →
    ∀ attr ∈ beforeDenied host msg.attributes,
      permissionOf m client (peerAddress host attr) = some (grant env (peerAddress host attr))

/-- The permissions after some peers are permitted. -/
def permitAll (host : Host) (env : Env) (attrs : List Attribute) (a : Allocation) : Allocation :=
  attrs.foldl (fun a attr => a.permit env.now (peerAddress host attr)) a

theorem permitAll_snoc (attrs : List Attribute) (attr : Attribute) (a : Allocation) :
    permitAll host env (attrs ++ [attr]) a =
      (permitAll host env attrs a).permit env.now (peerAddress host attr) := by
  simp [permitAll]

/-- The loop permits the peers before the first that is denied. -/
theorem permitPeers_permits (host : Host) (env : Env) (attrs : List Attribute) (a : Allocation)
    (foundPeer : Bool) :
    (permitPeers host env.now attrs a foundPeer).1 =
      permitAll host env (beforeDenied host attrs) a := by
  induction attrs generalizing a foundPeer with
  | nil => rfl
  | cons attr attrs ih =>
    simp only [permitPeers]
    split
    · rename_i other
      have skipped : peerAttrs (attr :: attrs) = peerAttrs attrs := by simp [peerAttrs, other]
      rw [ih, beforeDenied, beforeDenied, skipped]
    split
    · rename_i short
      have skipped : peerAttrs (attr :: attrs) = peerAttrs attrs := by
        simp [peerAttrs, Nat.not_le.mpr short]
      rw [ih, beforeDenied, beforeDenied, skipped]
    rename_i isPeer long
    have kept : peerAttrs (attr :: attrs) = attr :: peerAttrs attrs := by
      simp [peerAttrs, not_not.mp isPeer, Nat.not_lt.mp long]
    split
    · rename_i refused
      have stops : denied host attr = true := refused
      simp [beforeDenied, kept, stops, permitAll]
    · rename_i allowed
      have goes : denied host attr = false := by simpa [denied, peerAddress] using allowed
      rw [ih, beforeDenied, beforeDenied, kept, List.takeWhile_cons]
      simp only [goes, Bool.not_false, ↓reduceIte, permitAll, List.foldl_cons]
      rfl

theorem permitAll_lookup_of_mem {attrs : List Attribute} {attr : Attribute}
    (member : attr ∈ attrs) (a : Allocation) :
    (permitAll host env attrs a).permissions.lookup (peerAddress host attr) =
      some (grant env (peerAddress host attr)) := by
  induction attrs using List.reverseRecOn with
  | nil => simp at member
  | append_singleton attrs last ih =>
    rw [permitAll_snoc]
    simp only [Allocation.permit]
    by_cases same : peerAddress host attr = peerAddress host last
    · rw [same, AList.lookup_insert]
      rfl
    · rw [AList.lookup_insert_ne same]
      apply ih
      rcases List.mem_append.mp member with inside | isLast
      · exact inside
      · rw [List.mem_singleton.mp isLast] at same
        exact absurd rfl same

theorem permitAll_lookup_of_notMem {attrs : List Attribute} {address : Bytes}
    (other : ∀ attr ∈ attrs, peerAddress host attr ≠ address) (a : Allocation) :
    (permitAll host env attrs a).permissions.lookup address = a.permissions.lookup address := by
  induction attrs generalizing a with
  | nil => rfl
  | cons attr attrs ih =>
    have apart : address ≠ peerAddress host attr := (other attr List.mem_cons_self).symm
    rw [permitAll, List.foldl_cons, ← permitAll,
      ih fun attr member => other attr (List.mem_cons_of_mem _ member)]
    simp only [Allocation.permit]
    exact AList.lookup_insert_ne apart

/-- Permitting peers changes nothing exactly if all were permitted already, for just as
long. -/
theorem permitAll_same_iff (host : Host) (env : Env) (attrs : List Attribute) (a : Allocation) :
    (∀ address, (permitAll host env attrs a).permissions.lookup address =
        a.permissions.lookup address) ↔
      ∀ attr ∈ attrs, a.permissions.lookup (peerAddress host attr) =
        some (grant env (peerAddress host attr)) := by
  constructor
  · intro same attr member
    rw [← same, permitAll_lookup_of_mem member]
  · intro already address
    by_cases named : ∃ attr ∈ attrs, peerAddress host attr = address
    · obtain ⟨attr, member, rfl⟩ := named
      rw [permitAll_lookup_of_mem member, already attr member]
    · refine permitAll_lookup_of_notMem (fun attr member same => named ⟨attr, member, same⟩) a

/-- What `handleCreatePermission` does for a client with an allocation. -/
theorem createPermission_found (host : Host) (env : Env) (msg : TurnMessage) {p : Ptr}
    {a : Allocation} (found : m.find m.byClient client = some (p, a)) :
    (∀ address, permissionOf (handleCreatePermission host env m msg client).1 client address =
      (permitAll host env (beforeDenied host msg.attributes) a).permissions.lookup address) ∧
    responseClass (handleCreatePermission host env m msg client).2 =
      if (peerAttrs msg.attributes).any (denied host) ∨ peerAttrs msg.attributes = [] then
        .errorResponse
      else .successResponse := by
  have permits := permitPeers_permits host env msg.attributes a false
  have ends := permitPeers_ends host env.now msg.attributes a false
  obtain ⟨known, held⟩ := find_eq_some.mp found
  have inside := (List.getElem?_eq_some_iff.mp held).1
  have stored : ∀ a' address, permissionOf (m.store p a') client address =
      a'.permissions.lookup address := by
    intro a' address
    have located : (m.store p a').find (m.store p a').byClient client = some (p, a') :=
      find_eq_some.mpr ⟨known, List.getElem?_set_self inside⟩
    exact permissionOf_found located address
  change _ = if (peerAttrs msg.attributes).any (denied host) then none else _ at ends
  unfold handleCreatePermission
  rw [found]
  simp only
  generalize permitPeers host env.now msg.attributes a false = result at permits ends
  obtain ⟨a', ended⟩ := result
  simp only at permits ends
  subst permits ends
  cases stopped : (peerAttrs msg.attributes).any (denied host) with
  | true => exact ⟨stored _, by simp [responseClass_makeError]⟩
  | false =>
    cases named : peerAttrs msg.attributes with
    | nil => exact ⟨stored _, by simp [responseClass_makeError]⟩
    | cons attr rest =>
      refine ⟨stored _, ?_⟩
      simp only [Bool.false_eq_true, reduceCtorEq, or_self, ↓reduceIte]
      exact responseClass_build _ rfl

/-- A client without an allocation gets nothing. -/
theorem allOrNothing_unknown (host : Host) (env : Env) (msg : TurnMessage)
    (found : m.find m.byClient client = none) : AllOrNothing host env m msg client := by
  have nothing : handleCreatePermission host env m msg client =
      (m, makeError msg.transactionId 437 "Allocation Mismatch") := by
    simp [handleCreatePermission, found]
  refine ⟨fun _ _ => by rw [nothing], fun success => ?_⟩
  rw [nothing] at success
  exact absurd success not_granted

/-- A request that is refused because of a peer has changed nothing exactly if the peers
before it were permitted already. -/
theorem allOrNothing_denied_iff (host : Host) (env : Env) (msg : TurnMessage) {p : Ptr}
    {a : Allocation} (found : m.find m.byClient client = some (p, a))
    (stopped : (peerAttrs msg.attributes).any (denied host) = true) :
    AllOrNothing host env m msg client ↔ ∀ attr ∈ beforeDenied host msg.attributes,
      permissionOf m client (peerAddress host attr) = some (grant env (peerAddress host attr)) := by
  obtain ⟨after, answer⟩ := createPermission_found host env msg found
  have before := permissionOf_found found
  have same := permitAll_same_iff host env (beforeDenied host msg.attributes) a
  rw [if_pos (.inl stopped)] at answer
  simp only [before]
  constructor
  · intro whole
    refine same.mp fun address => ?_
    rw [← after, ← before]
    exact whole.refused answer address
  · intro already
    refine ⟨fun _ address => ?_, fun success => ?_⟩
    · rw [after, before]
      exact same.mpr already address
    · rw [answer] at success
      cases success

/-- If nobody is denied, everybody is permitted. -/
theorem allOrNothing_allowed (host : Host) (env : Env) (msg : TurnMessage) {p : Ptr}
    {a : Allocation} (found : m.find m.byClient client = some (p, a))
    (allowed : (peerAttrs msg.attributes).any (denied host) = false) :
    AllOrNothing host env m msg client := by
  obtain ⟨after, answer⟩ := createPermission_found host env msg found
  have before := permissionOf_found found
  have all : beforeDenied host msg.attributes = peerAttrs msg.attributes := by
    refine List.takeWhile_eq_self_iff.mpr fun attr member => ?_
    have allowed := List.any_eq_false.mp allowed attr member
    simpa using allowed
  rw [all] at after
  refine ⟨fun refused address => ?_, fun success => ⟨?_, ?_, ?_⟩⟩
  · rw [answer] at refused
    have nobody : peerAttrs msg.attributes = [] := by
      by_contra somebody
      simp [allowed, somebody] at refused
    rw [after, before, nobody]
    rfl
  · intro nobody
    simp [answer, nobody] at success
  · intro attr member
    rw [after]
    exact permitAll_lookup_of_mem member a
  · intro address other
    rw [after, before]
    exact permitAll_lookup_of_notMem other a

/-- **When CreatePermission is all or nothing**: exactly if there is no peer to permit
before the first that is denied. -/
theorem all_or_nothing_iff (host : Host) (env : Env) (m : AllocationManager) (msg : TurnMessage)
    (client : Endpoint) :
    AllOrNothing host env m msg client ↔ NothingBeforeDenied host env m msg client := by
  cases found : m.find m.byClient client with
  | none =>
    have nobody : m.findByClient client = none := by simp [findByClient, found]
    refine iff_of_true (allOrNothing_unknown host env msg found) fun known => ?_
    simp [nobody] at known
  | some entry =>
    have known : (m.findByClient client).isSome = true := by simp [findByClient, found]
    cases stopped : (peerAttrs msg.attributes).any (denied host) with
    | true =>
      rw [allOrNothing_denied_iff host env msg found stopped]
      exact ⟨fun already _ _ => already, fun nothing => nothing known stopped⟩
    | false =>
      refine iff_of_true (allOrNothing_allowed host env msg found stopped) fun _ refused => ?_
      rw [stopped] at refused
      cases refused

/-- The client asks for 198.51.100.7, which is fine, and for 10.0.0.1, which is denied. -/
def twoPeers : TurnMessage :=
  ⟨.request, .createPermission, 24, Vector.replicate 12 2,
    [⟨AttrType.xorPeerAddress, [0, 1, 0x2E, 0x38, 0xE7, 0x21, 0xC0, 0x45]⟩,
      ⟨AttrType.xorPeerAddress, [0, 1, 0x2E, 0x38, 0x2B, 0x12, 0xA4, 0x43]⟩]⟩

theorem half_applied : ¬ ∀ host env m msg client, AllOrNothing host env m msg client := by
  intro all
  have whole := all (Host.posix [] [] []) calm allocated twoPeers aClient
  have refused : responseClass (handleCreatePermission (Host.posix [] [] []) calm allocated
      twoPeers aClient).2 = .errorResponse := by decide +kernel
  have unchanged := whole.refused refused (ascii "198.51.100.7")
  exact absurd unchanged (by decide +kernel)

end Zaza.FailedRequests
