import Zaza.DispatcherSteps
import Zaza.Routes

/-!
How many allocations a user can have.

`handleAllocate` counts the live allocations with the request's username, text
for text. The backend puts the expiry time into that text, so a user with two
credentials has two names, and each of them its own quota. `OneCredential` is
what keeps the two counts the same where it matters: a user at the limit asks
for more only under the name all its allocations have. It is exact
(`user_quota_iff`): the first step that breaks it is the one that goes too far.
-/
namespace Zaza.Quota
open Zaza AllocationManager AllocationSteps AllocationInvariant TurnDispatcher DispatcherSteps

/-- The part of a username after its first colon. -/
def userIdOf (username : Bytes) : Option Bytes :=
  (find username 58).map fun pos => username.drop (pos + 1)

/-- The live allocations of a user, under whatever names. -/
def ofUser (m : AllocationManager) (userId : Bytes) : List Allocation :=
  (live m).filter (userIdOf ·.username = some userId)

/-- No user has more than the maximum. -/
def WithinQuota (cfg : ManagerConfig) (m : AllocationManager) : Prop :=
  ∀ userId, (ofUser m userId).length ≤ cfg.maxAllocPerUser.toNat

/-- A request that carries a name carries one the backend has issued. -/
def Issued (backend : TurnConfig) (event : Event) : Prop :=
  ∀ data sender via msg attr, event = .packet data sender via → parse data = .ok msg →
    msg.msgClass ≠ .indication → msg.findAttr AttrType.username = some attr →
    ∃ wall userId, attr.value = Routes.username backend wall userId

/-- When an accepted Allocate that could be granted comes from a user at the
limit, all the user's allocations were made under the name the request has. -/
def OneCredential (host : Host) (cfg : Config)
    (t : Transition TurnDispatcher (Event × Env) (List Sent)) : Prop :=
  ∀ data sender via msg userId, t.input.1 = .packet data sender via → parse data = .ok msg →
    msg.msgClass ≠ .indication → msg.method = .allocate →
    t.before.authResult host cfg t.input.2 msg data sender = .ok →
    Admits cfg.manager t.input.2 t.before.manager msg sender →
    userIdOf (usernameOf msg) = some userId →
    cfg.manager.maxAllocPerUser.toNat ≤ (ofUser t.before.manager userId).length →
    ∀ a ∈ ofUser t.before.manager userId, a.username = usernameOf msg

variable {host : Host} {cfg : Config} {env : Env} {m m' : AllocationManager} {sender : Endpoint}
  {msg : TurnMessage} {d : TurnDispatcher}
  {t : Transition TurnDispatcher (Event × Env) (List Sent)}
  {ts : List (Transition TurnDispatcher (Event × Env) (List Sent))}

/-! ## Counting -/

/-- The allocations under one name are some of its user's. -/
theorem userAllocations_sublist (mine : userIdOf username = some userId) :
    (userAllocations m username).Sublist (ofUser m userId) := by
  refine List.monotone_filter_right _ fun a named => ?_
  rw [of_decide_eq_true named]
  exact decide_eq_true mine

/-- A user none of whose allocations has another name has them all under this one. -/
theorem ofUser_le (same : ∀ a ∈ ofUser m userId, a.username = username) :
    (ofUser m userId).length ≤ (userAllocations m username).length := by
  have kept : (ofUser m userId).filter (·.username = username) = ofUser m userId :=
    List.filter_eq_self.mpr fun a member => decide_eq_true (same a member)
  rw [← kept, ofUser, List.filter_filter]
  refine (List.monotone_filter_right _ fun a both => ?_).length_le
  exact (Bool.and_eq_true_iff.mp both).1

/-- A new allocation counts for its user. -/
theorem ofUser_create {cfg : ManagerConfig} (inv : Inv cfg m)
    (absent : m.byClient.lookup (endpointKey client) = none)
    (usedPorts : UnorderedMap UInt16 Bool) :
    ofUser (m.create (fresh cfg m client username realm port expiresAt) usedPorts) userId =
      if userIdOf username = some userId then
        fresh cfg m client username realm port expiresAt :: ofUser m userId
      else ofUser m userId := by
  rw [ofUser, live_create inv _ (by exact absent)]
  by_cases mine : userIdOf username = some userId
  · rw [if_pos mine, List.filter_cons_of_pos (by exact decide_eq_true mine), ofUser]
  · rw [if_neg mine, List.filter_cons_of_neg (by exact fun hit => mine (of_decide_eq_true hit)),
      ofUser]

/-- No request but Allocate gives anybody an allocation. -/
theorem ofUser_le_of_other (other : msg.method ≠ .allocate) (userId : Bytes) :
    (ofUser (handleRequest host cfg env m msg sender).1 userId).length ≤
      (ofUser m userId).length := by
  -- The other handlers do not depend on the quota. With a quota of zero, nothing is created.
  have change : Change host { cfg.manager with maxAllocPerUser := 0 } env sender (usernameOf msg)
      m (handleRequest host cfg env m msg sender).1 := by
    unfold handleRequest
    split
    · contradiction
    · exact handleRefresh_change _ _
    · exact handleCreatePermission_change _
    · exact handleChannelBind_change _
    · exact .same
  generalize (handleRequest host cfg env m msg sender).1 = m' at change
  cases change with
  | same => exact le_rfl
  | create realm port expiresAt absent quota unused drawn =>
    exact absurd quota (UInt32.not_lt.mpr (UInt32.zero_le))
  | touch p a a' found writes =>
    have held := (find_eq_some.mp found).2
    have named := (touches_frame writes).2.2.2.1
    rw [ofUser, ofUser, ← List.countP_eq_length_filter, ← List.countP_eq_length_filter,
      countP_live_store _ held (by simp [named])]
  | release p a found => exact ((live_release_sublist sender a).filter _).length_le

/-! ## One step -/

theorem WithinQuota.preserved (inv : Inv cfg.manager t.before.manager)
    (within : WithinQuota cfg.manager t.before.manager) (taken : (turnServer host cfg).Takes t)
    (meets : OneCredential host cfg t) : WithinQuota cfg.manager t.after.manager := by
  intro userId
  rcases step_manager taken with
    same | ⟨data, sender, via, msg, input, parsed, class_ne, accepted, result, _⟩
  · rw [same]
    exact within userId
  · rw [result]
    by_cases other : msg.method = .allocate
    · simp only [handleRequest, other]
      rcases handleAllocate_cases host cfg.manager t.input.2 t.before.manager msg sender
          (usernameOf msg) cfg.realm with
        ⟨_, same⟩ | ⟨admits, room, port, expiresAt, _, _, created⟩
      · rw [same]
        exact within userId
      · rw [created, ofUser_create inv admits.1]
        split
        · rename_i mine
          by_contra beyond
          rw [List.length_cons, Nat.not_le] at beyond
          -- The user is at the limit, so its allocations are those the quota check counts.
          have names := meets data sender via msg userId input parsed class_ne other accepted
            admits mine (Nat.lt_succ_iff.mp beyond)
          have counted := ofUser_le names
          have bound := inv.quota (usernameOf msg)
          have room := UInt32.lt_iff_toNat_lt.mp room
          rw [userCount_eq t.input.2.order
            (Nat.lt_of_le_of_lt bound cfg.manager.maxAllocPerUser.toNat_lt)] at room
          omega
        · exact within userId
    · exact (ofUser_le_of_other other userId).trans (within userId)

/-- A step that breaks the condition gives a user one allocation too many. -/
theorem exceeded (inv : Inv cfg.manager t.before.manager)
    (within : WithinQuota cfg.manager t.before.manager) (taken : (turnServer host cfg).Takes t)
    (breaks : ¬ OneCredential host cfg t) : ¬ WithinQuota cfg.manager t.after.manager := by
  obtain ⟨before, ⟨event, env⟩, after, output⟩ := t
  unfold OneCredential at breaks
  push Not at breaks
  obtain ⟨data, sender, via, msg, userId, input, parsed, class_ne, allocate, accepted, admits,
    mine, full, a, member, differs⟩ := breaks
  simp only at input parsed accepted admits full member
  subst input
  have inv : Inv cfg.manager before.manager := inv
  have fewer : (userAllocations before.manager (usernameOf msg)).length <
      (ofUser before.manager userId).length := by
    refine Nat.lt_of_le_of_ne (userAllocations_sublist mine).length_le fun same => ?_
    have all := (userAllocations_sublist mine).eq_of_length same
    rw [← all] at member
    exact differs (of_decide_eq_true (List.mem_filter.mp member).2)
  have limit := within userId
  simp only at limit
  have room : before.manager.userCount env.order (usernameOf msg) <
      cfg.manager.maxAllocPerUser := by
    rw [UInt32.lt_iff_toNat_lt, userCount_eq env.order
      (Nat.lt_of_le_of_lt (inv.quota _) cfg.manager.maxAllocPerUser.toNat_lt)]
    omega
  rcases handleAllocate_cases host cfg.manager env before.manager msg sender (usernameOf msg)
      cfg.realm with ⟨refused, _⟩ | ⟨_, _, port, expiresAt, _, _, created⟩
  · exact absurd ⟨admits, room⟩ refused
  · have result : after.manager = (handleRequest host cfg env before.manager msg sender).1 := by
      have taken : before.onPacket host cfg env data sender via = .ok (after, output) := taken
      rw [onPacket_of_parse parsed, handleStun] at taken
      have verdict : TurnDispatcher.authResult host cfg env
          { before with currentTransport := some via } msg data sender = .ok := accepted
      simp only [class_ne, ↓reduceIte, verdict] at taken
      split at taken <;> obtain ⟨rfl, _⟩ := Prod.mk.inj (Except.ok.inj taken) <;> rfl
    intro after_within
    have bound := after_within userId
    simp only [result, handleRequest, allocate, created] at bound
    rw [ofUser_create inv admits.1, if_pos mine, List.length_cons] at bound
    omega

/-! ## Every run -/

/-- Every state of the server is as its last step left it. -/
theorem within_before (run : Run (turnServer host cfg) ts d)
    (within : ∀ t ∈ ts, WithinQuota cfg.manager t.after.manager) :
    WithinQuota cfg.manager d.manager :=
  run.invariant_when (fun d => WithinQuota cfg.manager d.manager)
    (fun t => WithinQuota cfg.manager t.after.manager)
    (fun userId => by simp [ofUser, live, turnServer, TurnDispatcher.init, AllocationManager.empty])
    (fun _ _ _ after => after) within

/-- **The quota holds for users exactly when it cannot be dodged.** In every run of
the server, no user ever has more live allocations than the maximum if and only
if every step meets `OneCredential`. -/
theorem user_quota_iff (host : Host) (cfg : Config) (run : Run (turnServer host cfg) ts d) :
    (∀ t ∈ ts, WithinQuota cfg.manager t.after.manager) ↔ ∀ t ∈ ts, OneCredential host cfg t := by
  constructor
  · intro within t member
    obtain ⟨earlier, before, initial, taken⟩ := run.history member
    have inv := (serverInv_of_reachable ⟨earlier, before⟩).tables
    have prior := within_before before fun t' member' =>
      within t' (initial.subset (List.mem_append_left _ member'))
    by_contra breaks
    exact exceeded inv prior taken breaks (within t member)
  · intro meets t member
    obtain ⟨earlier, before, initial, taken⟩ := run.history member
    refine Run.invariant_when (fun d => ServerInv cfg d ∧ WithinQuota cfg.manager d.manager)
      (OneCredential host cfg) ?_ ?_ (.step before taken) ?_ |>.2
    · refine ⟨ServerInv.init cfg, fun userId => ?_⟩
      simp [ofUser, live, turnServer, TurnDispatcher.init, AllocationManager.empty]
    · intro t' holds taken' meets'
      exact ⟨holds.1.preserved taken', holds.2.preserved holds.1.tables taken' meets'⟩
    · exact fun t' member' => meets t' (initial.subset member')

/-- While there are fewer allocations than the maximum, nobody is at the limit. -/
theorem oneCredential_of_few
    (few : (live t.before.manager).length < cfg.manager.maxAllocPerUser.toNat) :
    OneCredential host cfg t := by
  intro data sender via msg userId _ _ _ _ _ _ _ full
  have bound := (List.length_filter_le
    (fun a : Allocation => userIdOf a.username = some userId) (live t.before.manager))
  exact absurd (full.trans bound) (Nat.not_le.mpr few)

/-- Two accounts with one allocation each. -/
theorem user_quota_iff_two_accounts :
    ∃ ts d, Run (turnServer Deployment.host Deployment.config) ts d ∧
      (ofUser d.manager (ascii "alice")).length = 1 ∧
      (∀ t ∈ ts, OneCredential Deployment.host Deployment.config t) ∧
      ∀ t ∈ ts, WithinQuota Deployment.config.manager t.after.manager := by
  obtain ⟨ts, d, run, check⟩ := Run.of_exec (turnServer Deployment.host Deployment.config)
    (Deployment.bothAllocate .udp)
    (fun ts d => (ofUser d.manager (ascii "alice")).length = 1 ∧
      ts.all fun t => (live t.before.manager).length < 10) (by decide +kernel)
  obtain ⟨one, few⟩ := of_decide_eq_true check
  have meets : ∀ t ∈ ts, OneCredential Deployment.host Deployment.config t := by
    intro t member
    exact oneCredential_of_few (of_decide_eq_true (List.all_eq_true.mp few t member))
  exact ⟨ts, d, run, one, meets,
    (user_quota_iff Deployment.host Deployment.config run).mpr meets⟩

/-! ## Two credentials -/

/-- The backend of the deployment. -/
def backend : TurnConfig := ⟨ascii "turn.example", 3478, 5349, ascii "secret", 3600⟩

/-- The deployment's server, with eleven ports. -/
def config : Config := { Deployment.config with relayPortMax := 50010 }

/-- A credential issued to alice, and one issued to her a second later. -/
def first : Deployment.Account where
  username := ascii "1700003600:alice"
  mac := #v[44, 179, 203, 59, 138, 163, 117, 82, 246, 169, 152, 112, 175, 119, 136, 154, 25, 251,
    39, 109]
  password := ascii "LLPLO4qjdVL2qZhwr3eImhn7J20="
  key := #v[69, 164, 131, 241, 45, 67, 227, 79, 50, 19, 207, 231, 98, 106, 156, 153]

@[inherit_doc first]
def second : Deployment.Account where
  username := ascii "1700003601:alice"
  mac := #v[237, 95, 152, 19, 135, 229, 89, 210, 177, 2, 180, 115, 231, 232, 82, 82, 214, 236, 99,
    19]
  password := ascii "7V+YE4flWdKxArRz5+hSUtbsYxM="
  key := #v[232, 185, 11, 28, 72, 58, 197, 143, 82, 196, 63, 103, 167, 92, 200, 10]

def firstMac : Vector UInt8 20 :=
  #v[34, 175, 35, 47, 255, 158, 109, 59, 252, 150, 28, 18, 55, 64, 248, 11, 150, 144, 26, 30]

def secondMac : Vector UInt8 20 :=
  #v[122, 19, 79, 44, 250, 141, 248, 168, 16, 133, 62, 88, 65, 156, 255, 82, 94, 194, 212, 21]

/-- The digests of the ten responses to the first credential. -/
def responseMacs : List (Vector UInt8 20) := [
  #v[42, 151, 190, 74, 67, 224, 136, 210, 133, 137, 58, 233, 9, 184, 111, 148, 72, 249, 41, 75],
  #v[69, 29, 2, 114, 233, 226, 27, 124, 13, 76, 174, 82, 189, 182, 211, 62, 104, 113, 231, 110],
  #v[28, 105, 196, 235, 29, 131, 229, 38, 183, 38, 52, 69, 91, 242, 43, 49, 52, 194, 132, 168],
  #v[245, 200, 149, 137, 156, 254, 134, 87, 199, 248, 44, 126, 232, 44, 109, 36, 12, 108, 111,
    250],
  #v[168, 216, 124, 36, 54, 13, 30, 224, 124, 242, 98, 64, 78, 169, 179, 214, 218, 153, 161, 162],
  #v[149, 132, 20, 36, 207, 229, 219, 30, 127, 195, 192, 234, 222, 206, 61, 73, 120, 164, 105, 35],
  #v[147, 108, 114, 203, 153, 178, 110, 176, 248, 183, 129, 200, 124, 252, 148, 151, 90, 82, 101,
    67],
  #v[232, 188, 130, 233, 51, 114, 24, 135, 244, 27, 27, 18, 148, 74, 237, 215, 152, 174, 239, 226],
  #v[111, 187, 83, 167, 150, 232, 87, 98, 124, 217, 176, 62, 149, 197, 89, 121, 151, 21, 107, 114],
  #v[213, 161, 243, 107, 238, 73, 81, 222, 11, 225, 28, 50, 81, 173, 30, 65, 101, 199, 113, 161]]

/-- A host that knows the digests of the packets below. -/
def linkedHost : Host := Host.posix
  ([((config.sharedSecret, first.username), first.mac),
    ((config.sharedSecret, second.username), second.mac),
    ((first.key.toList, Deployment.allocateBy first 1), firstMac),
    ((second.key.toList, Deployment.allocateBy second 1), secondMac),
    ((second.key.toList, Deployment.allocated 1 50010 0xC633640B 600),
      #v[169, 37, 210, 107, 232, 121, 242, 251, 248, 221, 1, 110, 151, 185, 31, 161, 37, 53, 29,
        136])] ++
    responseMacs.mapIdx fun i mac => ((first.key.toList,
      Deployment.allocated 1 (50000 + i.toUInt16) (0xC6336401 + i.toUInt32) 600), mac))
  [(longTermText first.username config.realm first.password, first.key),
    (longTermText second.username config.realm second.password, second.key)]
  [(first.mac.toList, first.password), (second.mac.toList, second.password)]

/-- One of alice's devices, 198.51.100.1 and up. -/
def device (i : Nat) : Endpoint := ⟨ascii "198.51.100." ++ toString (i + 1), 4000⟩

/-- Ten devices allocate with the first credential, the eleventh with the second. -/
def elevenDevices : List (Event × Env) :=
  (.packet (MessageBuilder.new .allocate .request (Vector.replicate 12 0)).build (device 0) .udp,
    Deployment.surroundings 0) ::
  (List.range 10).map (fun i => (.packet (Deployment.signed (Deployment.allocateBy first 1)
    firstMac) (device i) .udp, Deployment.surroundings i)) ++
  [(.packet (Deployment.signed (Deployment.allocateBy second 1) secondMac) (device 10) .udp,
    { Deployment.surroundings 10 with wall := 1700000001 })]

/-- The name in a packet, if there is one, is one of these. -/
def namedIn (names : List Bytes) : Event → Bool
  | .packet data _ _ =>
    match parse data with
    | .ok msg => (msg.findAttr AttrType.username).all fun attr => names.contains attr.value
    | .error _ => true
  | .peerData _ _ _ => true

theorem issued_of_namedIn {event : Event}
    (named : namedIn [first.username, second.username] event = true) : Issued backend event := by
  rintro data sender via msg attr rfl parsed _ found
  simp only [namedIn, parsed, found, Option.all_some, List.contains_iff_mem, List.mem_cons,
    List.not_mem_nil, or_false] at named
  cases named with
  | inl same => exact ⟨1700000000, ascii "alice", same.trans (by decide)⟩
  | inr same => exact ⟨1700000001, ascii "alice", same.trans (by decide)⟩

/-- Alice has eleven allocations, and the quota is ten. -/
theorem quota_dodged : ¬ ∀ host cfg backend ts d,
    backend.sharedSecret = cfg.sharedSecret → Run (turnServer host cfg) ts d →
    (∀ t ∈ ts, Issued backend t.input.1) → WithinQuota cfg.manager d.manager := by
  intro all
  obtain ⟨ts, d, run, check⟩ := Run.of_exec (turnServer linkedHost config) elevenDevices
    (fun ts d => (ofUser d.manager (ascii "alice")).length = 11 ∧
      ts.all fun t => namedIn [first.username, second.username] t.input.1) (by decide +kernel)
  obtain ⟨eleven, named⟩ := of_decide_eq_true check
  have within := all linkedHost config backend ts d rfl run fun t member =>
    issued_of_namedIn (List.all_eq_true.mp named t member)
  have limit := within (ascii "alice")
  rw [eleven] at limit
  exact absurd limit (by decide)

end Zaza.Quota
