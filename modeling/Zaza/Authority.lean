import Zaza.ChannelExpiry
import Zaza.Channels
import Zaza.LeaseRuns
import Zaza.Lifetimes
import Zaza.Ownership
import Zaza.RelaySafety

/-!
What a client may do, and the requests it stems from.

The tables of the server are compared with the history of its run: the accepted
requests of a client (`request`), of which some permit addresses (`permits`),
bind channels (`binds`), grant a lifetime or give the allocation up
(`releases`). One step does to the client's own allocation what its request says
(`OwnStep`), so what the allocation holds is a lease of that history.
-/
namespace Zaza.Authority
open Zaza AllocationManager AllocationSteps AllocationInvariant TurnDispatcher DispatcherSteps
open FailedRequests RelaySteps RelaySafety

abbrev ServerStep := Transition TurnDispatcher (Event × Env) (List Sent)

/-! ## Requests -/

/-- The request of a client that a step handles, if it passes the credential check. -/
def request (host : Host) (cfg : Config) (e : Endpoint) (t : ServerStep) : Option TurnMessage :=
  match t.input.1 with
  | .packet data sender _ =>
    match parse data with
    | .ok msg =>
      if sender = e ∧ msg.msgClass ≠ .indication ∧
          t.before.authResult host cfg t.input.2 msg data sender = .ok then some msg
      else none
    | .error _ => none
  | .peerData _ _ _ => none

/-- A request that passes the check and comes from a client with an allocation. -/
def served (host : Host) (cfg : Config) (e : Endpoint) (t : ServerStep) :
    Option (TurnMessage × Allocation) :=
  match request host cfg e t, t.before.manager.findByClient e with
  | some msg, some a => some (msg, a)
  | _, _ => none

/-- The channel and the peer that a ChannelBind binds. -/
def boundBy (host : Host) (order : IterOrder) (a : Allocation) (msg : TurnMessage) :
    Option (UInt16 × Endpoint) :=
  match msg.findAttr AttrType.channelNumber, msg.findAttr AttrType.xorPeerAddress with
  | some chAttr, some peerAttr =>
    let num := be16 (byteAt chAttr.value 0) (byteAt chAttr.value 1)
    let peer := peerEndpoint host peerAttr.value
    if 2 ≤ chAttr.value.length ∧ 8 ≤ peerAttr.value.length ∧ 0x4000 ≤ num ∧ num ≤ 0x4FFF ∧
        isDeniedAddress host peer.address = false ∧ channelConflict order a num peer = false then
      some (num, peer)
    else none
  | _, _ => none

/-- The channel and the peer that a step binds for a client. -/
def binds (host : Host) (cfg : Config) (e : Endpoint) (t : ServerStep) :
    Option (UInt16 × Endpoint) :=
  match served host cfg e t with
  | some (msg, a) =>
    if msg.method = .channelBind then boundBy host t.input.2.order a msg else none
  | none => none

/-- A step permits an address for a client: by a CreatePermission that names it before any
denied address, or along with a channel. -/
def permits (host : Host) (cfg : Config) (e : Endpoint) (address : Bytes) (t : ServerStep) : Bool :=
  (match served host cfg e t with
    | some (msg, _) => msg.method = .createPermission &&
        (beforeDenied host msg.attributes).any fun attr => peerAddress host attr = address
    | none => false) ||
  (binds host cfg e t).any fun binding => binding.2.address = address

/-- A step in which a client gives its allocation up. -/
def releases (host : Host) (cfg : Config) (e : Endpoint) (t : ServerStep) : Bool :=
  match served host cfg e t with
  | some (msg, a) =>
    msg.method = .refresh ∧ a.username = usernameOf msg ∧ requestedLifetime msg = 0
  | none => false

/-! ## One step -/

variable {host : Host} {cfg : Config} {e : Endpoint} {t : ServerStep} {ts : List ServerStep}
  {d : TurnDispatcher} {msg : TurnMessage}

theorem request_eq_some : request host cfg e t = some msg ↔ ∃ data via,
    t.input.1 = .packet data e via ∧ parse data = .ok msg ∧ msg.msgClass ≠ .indication ∧
      t.before.authResult host cfg t.input.2 msg data e = .ok := by
  obtain ⟨before, ⟨event, env⟩, after, output⟩ := t
  cases event with
  | packet data sender via =>
    cases parsed : parse data with
    | error failed => simp [request, parsed]
    | ok msg' =>
      simp only [request, parsed, Option.ite_none_right_eq_some, Option.some.injEq]
      constructor
      · rintro ⟨⟨rfl, class_ne, accepted⟩, rfl⟩
        exact ⟨data, via, rfl, parsed, class_ne, accepted⟩
      · rintro ⟨data', via', same, parsed', class_ne, accepted⟩
        obtain ⟨rfl, rfl, rfl⟩ := Event.packet.inj same
        obtain rfl := Except.ok.inj (parsed.symm.trans parsed')
        exact ⟨⟨rfl, class_ne, accepted⟩, rfl⟩
  | peerData data peer relayAddr => simp [request]

/-- The tables after a request that passed the check. -/
theorem request_manager (asked : request host cfg e t = some msg)
    (taken : (turnServer host cfg).Takes t) :
    t.after.manager = (handleRequest host cfg t.input.2 t.before.manager msg e).1 := by
  obtain ⟨data, via, input, parsed, class_ne, accepted⟩ := request_eq_some.mp asked
  obtain ⟨before, ⟨event, env⟩, after, output⟩ := t
  obtain rfl : event = .packet data e via := input
  have result : before.onPacket host cfg env data e via = .ok (after, output) := taken
  rw [onPacket_of_parse parsed, handleStun] at result
  simp only [if_neg class_ne] at result
  have accepted' : TurnDispatcher.authResult host cfg env
      { before with currentTransport := some via } msg data e = .ok := accepted
  rw [accepted'] at result
  simp only at result
  split at result <;> obtain ⟨rfl, _⟩ := Prod.mk.inj (Except.ok.inj result) <;> rfl

/-- Without one, the client's allocation is left alone. -/
theorem findByClient_of_none (inv : ServerInv cfg t.before)
    (asked : request host cfg e t = none) (taken : (turnServer host cfg).Takes t) :
    t.after.manager.findByClient e = t.before.manager.findByClient e := by
  rcases step_manager taken with
    same | ⟨data, sender, via, msg, input, parsed, class_ne, accepted, _, change⟩
  · rw [same]
  · have apart : e ≠ sender := by
      rintro rfl
      have some := request_eq_some.mpr ⟨data, via, input, parsed, class_ne, accepted⟩
      simp [asked] at some
    exact congrArg (Option.map Prod.snd) (Ownership.find_client_frame inv.tables change apart)

/-- A step permits nothing, binds nothing and gives nothing up for a client. -/
structure Calm (host : Host) (cfg : Config) (e : Endpoint) (t : ServerStep) : Prop where
  permits : ∀ address, permits host cfg e address t = false
  binds : binds host cfg e t = none
  releases : releases host cfg e t = false

/-- What a step does to the allocation of a client. -/
inductive OwnStep (host : Host) (cfg : Config) (e : Endpoint) (t : ServerStep) :
    Option Allocation → Option Allocation → Prop where
  | same (a : Option Allocation) (calm : Calm host cfg e t) : OwnStep host cfg e t a a
  | created (a : Allocation) (calm : Calm host cfg e t) (permissions : a.permissions = ∅)
      (channels : a.channels = ∅) : OwnStep host cfg e t none (some a)
  | extended (a : Allocation) (expiresAt : TimePoint) (calm : Calm host cfg e t) :
      OwnStep host cfg e t (some a) (some { a with expiresAt })
  | released (a : Allocation) (permits : ∀ address, permits host cfg e address t = false)
      (binds : binds host cfg e t = none) (releases : releases host cfg e t = true) :
      OwnStep host cfg e t (some a) none
  | permitted (a : Allocation) (attrs : List Attribute)
      (permits : ∀ address, permits host cfg e address t =
        attrs.any fun attr => peerAddress host attr = address)
      (binds : binds host cfg e t = none) (releases : releases host cfg e t = false) :
      OwnStep host cfg e t (some a) (some (permitAll host t.input.2 attrs a))
  | bound (a : Allocation) (num : UInt16) (peer : Endpoint)
      (permits : ∀ address, permits host cfg e address t = decide (peer.address = address))
      (binds : binds host cfg e t = some (num, peer))
      (free : channelConflict t.input.2.order a num peer = false)
      (releases : releases host cfg e t = false) :
      OwnStep host cfg e t (some a)
        (some ((a.bind t.input.2.now num peer).permit t.input.2.now peer.address))

theorem calm_of_none (unserved : served host cfg e t = none) : Calm host cfg e t where
  permits _ := by simp [permits, binds, unserved]
  binds := by simp [binds, unserved]
  releases := by simp [releases, unserved]

section Handlers
variable {a : Allocation} {p : Ptr}

theorem served_eq (asked : request host cfg e t = some msg)
    (found : t.before.manager.find t.before.manager.byClient e = some (p, a)) :
    served host cfg e t = some (msg, a) := by
  simp [served, asked, findByClient, found]

theorem refresh_own (asked : request host cfg e t = some msg) (isRefresh : msg.method = .refresh) :
    OwnStep host cfg e t (t.before.manager.findByClient e)
      ((t.before.manager.handleRefresh t.input.2 msg e (usernameOf msg)).1.findByClient e) := by
  unfold handleRefresh
  cases found : t.before.manager.find t.before.manager.byClient e with
  | none => exact .same _ (calm_of_none (by simp [served, findByClient, found]))
  | some entry =>
    obtain ⟨p, a⟩ := entry
    have isServed := served_eq asked found
    have known : t.before.manager.findByClient e = some a := by simp [findByClient, found]
    have quiet : ∀ address, permits host cfg e address t = false := by
      simp [permits, binds, isServed, isRefresh]
    have unbound : binds host cfg e t = none := by simp [binds, isServed, isRefresh]
    simp only [known]
    by_cases foreign : a.username ≠ usernameOf msg
    · rw [if_pos foreign, known]
      exact .same _ ⟨quiet, unbound, by simp [releases, isServed, foreign]⟩
    · rw [if_neg foreign]
      by_cases zero : requestedLifetime msg = 0
      · simp only [zero, ↓reduceIte]
        rw [(Lifetimes.find_released e a).1]
        refine .released a quiet unbound ?_
        simp [releases, isServed, isRefresh, not_not.mp foreign, zero]
      · simp only [zero, ↓reduceIte]
        rw [findByClient_store _ found]
        exact .extended a _ ⟨quiet, unbound, by simp [releases, isServed, zero]⟩

theorem allocate_own (asked : request host cfg e t = some msg)
    (isAllocate : msg.method = .allocate) (username realm : Bytes) :
    OwnStep host cfg e t (t.before.manager.findByClient e)
      ((t.before.manager.handleAllocate host cfg.manager t.input.2 msg e username
        realm).1.findByClient e) := by
  have calm : Calm host cfg e t := by
    cases found : t.before.manager.findByClient e with
    | none => exact calm_of_none (by simp [served, found])
    | some a =>
      have isServed : served host cfg e t = some (msg, a) := by simp [served, asked, found]
      constructor <;> simp [permits, binds, releases, isServed, isAllocate]
  rcases handleAllocate_cases host cfg.manager t.input.2 t.before.manager msg e username realm with
    ⟨_, same⟩ | ⟨⟨absent, _⟩, _, port, expiresAt, _, _, created⟩
  · rw [same]
    exact .same _ calm
  · have unknown : t.before.manager.findByClient e = none := by
      simp [findByClient, AllocationManager.find, absent]
    have new := (@Lifetimes.find_create t.before.manager (fresh cfg.manager t.before.manager e
      username realm port expiresAt) (t.before.manager.usedPorts.insert port true)).1
    rw [fresh_clientAddr] at new
    rw [created, unknown, new]
    exact .created _ calm rfl rfl

theorem createPermission_own (asked : request host cfg e t = some msg)
    (isCreate : msg.method = .createPermission) :
    OwnStep host cfg e t (t.before.manager.findByClient e)
      ((t.before.manager.handleCreatePermission host t.input.2 msg e).1.findByClient e) := by
  unfold handleCreatePermission
  cases found : t.before.manager.find t.before.manager.byClient e with
  | none => exact .same _ (calm_of_none (by simp [served, findByClient, found]))
  | some entry =>
    obtain ⟨p, a⟩ := entry
    have isServed := served_eq asked found
    have known : t.before.manager.findByClient e = some a := by simp [findByClient, found]
    have permitted := permitPeers_permits host t.input.2 msg.attributes a false
    have own : OwnStep host cfg e t (some a)
        (some (permitAll host t.input.2 (beforeDenied host msg.attributes) a)) := by
      refine .permitted a _ (fun address => ?_) ?_ ?_
      · simp [permits, binds, isServed, isCreate]
      · simp [binds, isServed, isCreate]
      · simp [releases, isServed, isCreate]
    rw [known]
    simp only
    split <;> rename_i ended <;> rw [ended] at permitted <;> simp only at permitted <;>
      rw [findByClient_store _ found, permitted] <;> exact own

theorem channelBind_own (asked : request host cfg e t = some msg)
    (isBind : msg.method = .channelBind) :
    OwnStep host cfg e t (t.before.manager.findByClient e)
      ((t.before.manager.handleChannelBind host t.input.2 msg e).1.findByClient e) := by
  unfold handleChannelBind
  cases found : t.before.manager.find t.before.manager.byClient e with
  | none => exact .same _ (calm_of_none (by simp [served, findByClient, found]))
  | some entry =>
    obtain ⟨p, a⟩ := entry
    have isServed := served_eq asked found
    have known : t.before.manager.findByClient e = some a := by simp [findByClient, found]
    have kept : releases host cfg e t = false := by simp [releases, isServed, isBind]
    have bindsIt : binds host cfg e t = boundBy host t.input.2.order a msg := by
      simp [binds, isServed, isBind]
    have permitsIt : ∀ address, permits host cfg e address t =
        (boundBy host t.input.2.order a msg).any fun binding => binding.2.address = address := by
      simp [permits, bindsIt, isServed, isBind]
    have refused : boundBy host t.input.2.order a msg = none →
        OwnStep host cfg e t (some a) (some a) := fun none =>
      .same _ ⟨by simp [permitsIt, none], by rw [bindsIt, none], kept⟩
    simp only [known]
    split
    · rename_i chAttr peerAttr numbered addressed
      simp only [boundBy, numbered, addressed] at refused bindsIt permitsIt
      split
      · rename_i short
        rw [known]
        refine refused (if_neg ?_)
        rintro ⟨number, address, _⟩
        omega
      split
      · rename_i outside
        rw [known]
        refine refused (if_neg ?_)
        rintro ⟨_, _, low, high, _⟩
        exact outside.elim (UInt16.not_lt.mpr low) (UInt16.not_lt.mpr high)
      split
      · rename_i denied
        rw [known]
        refine refused (if_neg ?_)
        rintro ⟨_, _, _, _, allowed, _⟩
        simp [denied] at allowed
      split
      · rename_i conflict
        rw [known]
        refine refused (if_neg ?_)
        rintro ⟨_, _, _, _, _, free⟩
        simp [conflict] at free
      · rename_i long inside allowed free
        simp only [not_or, Nat.not_lt, UInt16.not_lt] at long inside
        have free := Bool.eq_false_of_not_eq_true free
        have meets := (⟨long.1, long.2, inside.1, inside.2, Bool.eq_false_of_not_eq_true allowed,
          free⟩ : _ ∧ _ ∧ _ ∧ _ ∧ _ ∧ _)
        rw [findByClient_store _ found]
        rw [if_pos meets] at bindsIt
        refine .bound a _ _ (fun address => ?_) bindsIt free kept
        rw [permitsIt, if_pos meets, Option.any_some]
    · rename_i missing
      rw [known]
      refine refused ?_
      unfold boundBy
      split
      · rename_i chAttr peerAttr numbered addressed
        exact absurd addressed (missing chAttr peerAttr numbered)
      · rfl

/-- **What a step does to a client's allocation** is what its request says. -/
theorem step_own (inv : ServerInv cfg t.before) (taken : (turnServer host cfg).Takes t) :
    OwnStep host cfg e t (t.before.manager.findByClient e) (t.after.manager.findByClient e) := by
  cases asked : request host cfg e t with
  | none =>
    rw [findByClient_of_none inv asked taken]
    exact .same _ (calm_of_none (by simp [served, asked]))
  | some msg =>
    rw [request_manager asked taken]
    unfold handleRequest
    split
    · rename_i isAllocate
      exact allocate_own asked isAllocate _ _
    · rename_i isRefresh
      exact refresh_own asked isRefresh
    · rename_i isCreate
      exact createPermission_own asked isCreate
    · rename_i isBind
      exact channelBind_own asked isBind
    · rename_i notAllocate notRefresh notCreate notBind
      have notRefresh : msg.method ≠ .refresh := notRefresh
      have notCreate : msg.method ≠ .createPermission := notCreate
      have notBind : msg.method ≠ .channelBind := notBind
      refine .same _ ?_
      cases found : t.before.manager.findByClient e with
      | none => exact calm_of_none (by simp [served, found])
      | some a =>
        have isServed : served host cfg e t = some (msg, a) := by simp [served, asked, found]
        constructor <;> simp [permits, binds, releases, isServed, notRefresh, notCreate, notBind]

end Handlers

/-! ## Leases -/

/-- The clock does not go back. -/
def ClockRuns (ts : List ServerStep) : Prop :=
  ts.Pairwise fun t t' => t.input.2.now ≤ t'.input.2.now

instance (ts : List ServerStep) : Decidable (ClockRuns ts) :=
  inferInstanceAs (Decidable (ts.Pairwise fun t t' => t.input.2.now ≤ t'.input.2.now))

/-- A lease that some steps grant for a time from now on, until the client gives its
allocation up. -/
def lease (host : Host) (cfg : Config) (e : Endpoint) (grants : ServerStep → Bool) (ttl : UInt32)
    (t : ServerStep) : Option (Lease.Event Unit TimePoint) :=
  if grants t then some (.grant () (t.input.2.now + seconds ttl))
  else if releases host cfg e t then some (.revoke ())
  else none

section Lease
variable {grants : ServerStep → Bool} {ttl : UInt32} {now : TimePoint}

theorem lease_grant {deadline : TimePoint} :
    lease host cfg e grants ttl t = some (.grant () deadline) ↔
      grants t = true ∧ t.input.2.now + seconds ttl = deadline := by
  unfold lease
  split
  · rename_i granted
    simp [granted]
  · rename_i ungranted
    split <;> simp [ungranted]

theorem lease_revoke (apart : releases host cfg e t = true → grants t = false) :
    lease host cfg e grants ttl t = some (.revoke ()) ↔ releases host cfg e t = true := by
  unfold lease
  split
  · rename_i granted
    simp only [Option.some.injEq, reduceCtorEq, false_iff]
    intro released
    simp [apart released] at granted
  · split <;> simp_all

theorem lease_ordered (clock : ClockRuns ts) :
    Lease.Ordered (lease host cfg e grants ttl) ts := by
  refine clock.imp fun order k deadline deadline' first second => ?_
  obtain ⟨_, rfl⟩ := lease_grant.mp first
  obtain ⟨_, rfl⟩ := lease_grant.mp second
  exact Nat.add_le_add_right order _

/-- A lease the tables hold is live exactly if it was granted recently enough, and the
client has not given its allocation up since. -/
theorem live_iff_granted (held : TurnDispatcher → Option TimePoint)
    (initial : held TurnDispatcher.init = none)
    (stepped : ∀ t, Reachable (turnServer host cfg) t.before → (turnServer host cfg).Takes t →
      held t.after = Lease.next (lease host cfg e grants ttl) () (held t.before) t)
    (apart : ∀ t, releases host cfg e t = true → grants t = false)
    (run : Run (turnServer host cfg) ts d) (clock : ClockRuns ts) :
    (∃ deadline, held d = some deadline ∧ now < deadline) ↔
      ∃ before t after, ts = before ++ t :: after ∧ grants t = true ∧
        now < t.input.2.now + seconds ttl ∧ ∀ t' ∈ after, releases host cfg e t' = false := by
  rw [Lease.deadline_of_run held initial stepped run, Lease.live_iff_since (lease_ordered clock)]
  constructor
  · rintro ⟨before, t, after, deadline, split, event, early, kept⟩
    obtain ⟨granted, rfl⟩ := lease_grant.mp event
    refine ⟨before, t, after, split, granted, early, fun t' member => ?_⟩
    have unrevoked := kept t' member
    rw [Ne, lease_revoke (apart t')] at unrevoked
    exact Bool.eq_false_of_not_eq_true unrevoked
  · rintro ⟨before, t, after, split, granted, early, kept⟩
    refine ⟨before, t, after, _, split, lease_grant.mpr ⟨granted, rfl⟩, early, fun t' member => ?_⟩
    rw [Ne, lease_revoke (apart t')]
    simp [kept t' member]

end Lease

/-- A Refresh permits nothing and binds nothing. -/
theorem releases_apart (released : releases host cfg e t = true) :
    (∀ address, permits host cfg e address t = false) ∧ binds host cfg e t = none := by
  unfold releases at released
  cases isServed : served host cfg e t with
  | none => simp [isServed] at released
  | some entry =>
    obtain ⟨msg, a⟩ := entry
    obtain ⟨isRefresh, _⟩ : msg.method = .refresh ∧ _ ∧ _ := by simpa [isServed] using released
    constructor <;> simp [permits, binds, isServed, isRefresh]

/-! ## Permissions -/

/-- Until when the allocation of a client permits an address. -/
def permittedUntil (e : Endpoint) (address : Bytes) (d : TurnDispatcher) : Option TimePoint :=
  (d.manager.findByClient e).bind fun a => (a.permissions.lookup address).map Permission.expiresAt

theorem permittedUntil_step (inv : ServerInv cfg t.before) (taken : (turnServer host cfg).Takes t)
    (address : Bytes) : permittedUntil e address t.after =
      Lease.next (lease host cfg e (permits host cfg e address) Allocation.kPermissionTTL) ()
        (permittedUntil e address t.before) t := by
  have own := @step_own host cfg e t inv taken
  unfold permittedUntil Lease.next lease
  generalize t.before.manager.findByClient e = stored at own
  generalize t.after.manager.findByClient e = stored' at own
  cases own with
  | same a calm => simp [calm.permits, calm.releases]
  | created a calm permissions => simp [calm.permits, calm.releases, permissions]
  | extended a expiresAt calm => simp [calm.permits, calm.releases]
  | released a quiet unbound released => simp [quiet, released]
  | permitted a attrs permitted unbound kept =>
    cases named : attrs.any fun attr => peerAddress host attr = address with
    | true =>
      obtain ⟨attr, member, same⟩ := List.any_eq_true.mp named
      obtain rfl := of_decide_eq_true same
      simp [permitted, named, permitAll_lookup_of_mem member, grant]
    | false =>
      have other : ∀ attr ∈ attrs, peerAddress host attr ≠ address := by simpa using named
      simp [permitted, named, kept, permitAll_lookup_of_notMem other]
  | bound a num peer permitted bound free kept =>
    by_cases mine : peer.address = address
    · subst mine
      simp [permitted, Allocation.permit]
    · simp [permitted, mine, kept, Allocation.permit, Allocation.bind,
        AList.lookup_insert_ne (Ne.symm mine)]

theorem hasPermission_iff {now : TimePoint} {address : Bytes} :
    (∃ a, d.manager.findByClient e = some a ∧ a.hasPermission now address = true) ↔
      ∃ deadline, permittedUntil e address d = some deadline ∧ now < deadline := by
  unfold permittedUntil Allocation.hasPermission
  cases d.manager.findByClient e with
  | none => simp
  | some a =>
    simp only [Option.bind_some, Option.some.injEq, exists_eq_left']
    cases a.permissions.lookup address <;> simp

theorem permittedUntil_iff (run : Run (turnServer host cfg) ts d) (clock : ClockRuns ts)
    (address : Bytes) (now : TimePoint) :
    (∃ deadline, permittedUntil e address d = some deadline ∧ now < deadline) ↔
      ∃ before t after, ts = before ++ t :: after ∧ permits host cfg e address t = true ∧
        now < t.input.2.now + seconds Allocation.kPermissionTTL ∧
        ∀ t' ∈ after, releases host cfg e t' = false :=
  live_iff_granted (permittedUntil e address) rfl
    (fun _ reached taken => permittedUntil_step (serverInv_of_reachable reached) taken address)
    (fun _ released => (releases_apart released).1 address) run clock

/-- **A permission is a request.** In every run, a client's allocation permits an address
exactly if the client has asked for it less than five minutes ago, in a request that
passed the credential check, and has not given the allocation up since. -/
theorem permission_iff_requested (host : Host) (cfg : Config) (run : Run (turnServer host cfg) ts d)
    (clock : ClockRuns ts) (e : Endpoint) (address : Bytes) (now : TimePoint) :
    (∃ a, d.manager.findByClient e = some a ∧ a.hasPermission now address = true) ↔
      ∃ before t after, ts = before ++ t :: after ∧ permits host cfg e address t = true ∧
        now < t.input.2.now + seconds Allocation.kPermissionTTL ∧
        ∀ t' ∈ after, releases host cfg e t' = false :=
  hasPermission_iff.trans (permittedUntil_iff run clock address now)

/-- The first account has permitted the relay address at 1 s, and holds this at 300 s. -/
theorem permission_iff_requested_alice :
    ∃ ts d, Run (turnServer Deployment.host Deployment.config) ts d ∧
      ∃ before t after, ts = before ++ t :: after ∧
        permits Deployment.host Deployment.config Deployment.aliceAddr
          Deployment.config.relayAddress t = true ∧
        300000000000 < t.input.2.now + seconds Allocation.kPermissionTTL ∧
        ∀ t' ∈ after, releases Deployment.host Deployment.config Deployment.aliceAddr t' =
          false := by
  obtain ⟨ts, d, run, check⟩ := Run.of_exec (turnServer Deployment.host Deployment.config)
    (Deployment.bothAllocate .udp) (fun ts d => decide (ClockRuns ts) &&
      (d.manager.findByClient Deployment.aliceAddr).any
        (·.hasPermission 300000000000 Deployment.config.relayAddress)) (by decide +kernel)
  obtain ⟨clock, permitted⟩ := (Bool.and_eq_true _ _).mp check
  obtain ⟨a, found, permitted⟩ := Option.any_eq_true _ _ |>.mp permitted
  exact ⟨ts, d, run, (permission_iff_requested Deployment.host Deployment.config run
    (of_decide_eq_true clock) Deployment.aliceAddr Deployment.config.relayAddress
    300000000000).mp ⟨a, found, permitted⟩⟩

/-! ## Channels -/

/-- Until when the allocation of a client binds a channel to a peer. -/
def boundUntil (e : Endpoint) (num : UInt16) (peer : Endpoint) (d : TurnDispatcher) :
    Option TimePoint :=
  (d.manager.findByClient e).bind fun a =>
    ((a.channels.lookup num).filter (·.peer = peer)).map ChannelBinding.expiresAt

/-- A step binds this channel to this peer. -/
def bindsTo (host : Host) (cfg : Config) (e : Endpoint) (num : UInt16) (peer : Endpoint)
    (t : ServerStep) : Bool := binds host cfg e t = some (num, peer)

theorem permitAll_channels (host : Host) (env : Env) (attrs : List Attribute) (a : Allocation) :
    (permitAll host env attrs a).channels = a.channels := by
  induction attrs generalizing a with
  | nil => rfl
  | cons attr attrs ih => exact ih (a.permit env.now (peerAddress host attr))

theorem boundUntil_step (inv : ServerInv cfg t.before) (taken : (turnServer host cfg).Takes t)
    (num : UInt16) (peer : Endpoint) : boundUntil e num peer t.after =
      Lease.next (lease host cfg e (bindsTo host cfg e num peer) Allocation.kChannelTTL) ()
        (boundUntil e num peer t.before) t := by
  have own := @step_own host cfg e t inv taken
  unfold boundUntil Lease.next lease bindsTo
  generalize t.before.manager.findByClient e = stored at own
  generalize t.after.manager.findByClient e = stored' at own
  cases own with
  | same a calm => simp [calm.binds, calm.releases]
  | created a calm permissions channels => simp [calm.binds, calm.releases, channels]
  | extended a expiresAt calm => simp [calm.binds, calm.releases]
  | released a quiet unbound released => simp [unbound, released]
  | permitted a attrs permitted unbound kept => simp [unbound, kept, permitAll_channels]
  | bound a num' peer' permitted bound free kept =>
    simp only [bound, kept, Option.some.injEq, Prod.mk.injEq, Option.bind_some, Allocation.permit,
      Allocation.bind]
    by_cases mine : num = num'
    · subst mine
      rw [AList.lookup_insert]
      by_cases same : peer' = peer
      · subst same
        simp
      · -- The number is not bound to the peer before either, or it would be a conflict.
        have unbound : (a.channels.lookup num).filter (·.peer = peer) = none := by
          rw [Option.filter_eq_none_iff]
          intro binding found isPeer
          have bound := (Channels.free_iff.mp free num binding found).mp rfl
          exact same (bound.symm.trans (of_decide_eq_true isPeer))
        simp [same, unbound]
    · simp [AList.lookup_insert_ne mine, Ne.symm mine]

/-- **A channel is a request.** In every run, a client's channel is bound to a peer and
has not expired exactly if the client has bound it so less than ten minutes ago, in a
request that passed the credential check, and has not given its allocation up since. -/
theorem channel_iff_requested (host : Host) (cfg : Config) (run : Run (turnServer host cfg) ts d)
    (clock : ClockRuns ts) (e : Endpoint) (num : UInt16) (peer : Endpoint) (now : TimePoint) :
    (∃ a b, d.manager.findByClient e = some a ∧ a.findChannelByNumber now num = some b ∧
        b.peer = peer) ↔
      ∃ before t after, ts = before ++ t :: after ∧ binds host cfg e t = some (num, peer) ∧
        now < t.input.2.now + seconds Allocation.kChannelTTL ∧
        ∀ t' ∈ after, releases host cfg e t' = false := by
  have held := @live_iff_granted host cfg e ts d (bindsTo host cfg e num peer)
    Allocation.kChannelTTL now (boundUntil e num peer) rfl
    (fun t reached taken => boundUntil_step (serverInv_of_reachable reached) taken num peer)
    (fun t released => by simp [bindsTo, (releases_apart released).2]) run clock
  simp only [bindsTo, decide_eq_true_eq] at held
  rw [← held]
  unfold boundUntil Allocation.findChannelByNumber
  cases d.manager.findByClient e with
  | none => simp
  | some a =>
    simp only [Option.bind_some, Option.some.injEq, exists_and_left, exists_eq_left']
    cases a.channels.lookup num with
    | none => simp
    | some b =>
      by_cases late : now ≥ b.expiresAt
      · have expired : ¬ now < b.expiresAt := Nat.not_lt.mpr late
        by_cases same : b.peer = peer <;> simp [late, same, expired]
      · have early : now < b.expiresAt := Nat.not_le.mp late
        by_cases same : b.peer = peer <;> simp [late, same, early]

/-- The first account has bound its channel at 1 s, and it is bound at 600 s. -/
theorem channel_iff_requested_alice :
    ∃ ts d, Run (turnServer Deployment.channelHost Deployment.config) ts d ∧
      ∃ before t after, ts = before ++ t :: after ∧
        binds Deployment.channelHost Deployment.config Deployment.aliceAddr t =
          some (0x4001, ⟨Deployment.config.relayAddress, 50001⟩) ∧
        600000000000 < t.input.2.now + seconds Allocation.kChannelTTL ∧
        ∀ t' ∈ after, releases Deployment.channelHost Deployment.config Deployment.aliceAddr t' =
          false := by
  obtain ⟨ts, d, run, check⟩ := Run.of_exec (turnServer Deployment.channelHost Deployment.config)
    Deployment.aliceBinds (fun ts d => decide (ClockRuns ts) &&
      (d.manager.findByClient Deployment.aliceAddr).any fun a =>
        (a.findChannelByNumber 600000000000 0x4001).any
          (·.peer = ⟨Deployment.config.relayAddress, 50001⟩)) (by decide +kernel)
  obtain ⟨clock, bound⟩ := (Bool.and_eq_true _ _).mp check
  obtain ⟨a, found, bound⟩ := Option.any_eq_true _ _ |>.mp bound
  obtain ⟨b, numbered, same⟩ := Option.any_eq_true _ _ |>.mp bound
  exact ⟨ts, d, run, (channel_iff_requested Deployment.channelHost Deployment.config run
    (of_decide_eq_true clock) Deployment.aliceAddr 0x4001 ⟨Deployment.config.relayAddress, 50001⟩
    600000000000).mp ⟨a, b, found, numbered, of_decide_eq_true same⟩⟩

/-! ## Payload -/

/-- A packet carries payload between a client and a peer: the client's, to where payload for
the peer goes, or the peer's, to the client behind the relayed address it was sent to. -/
def Passes (t : ServerStep) (sent : Sent) (client peer : Endpoint) : Prop :=
  (∃ data, t.input.1 = .packet data client sent.via ∧
    sent.purpose.forwards = some (client, peer) ∧ Leads t.before.manager peer sent.dest) ∨
  ∃ data relayAddr q b, t.input.1 = .peerData data peer relayAddr ∧
    sent.purpose = .fromPeer peer q ∧
    t.before.manager.find t.before.manager.byRelay relayAddr = some (q, b) ∧
    sent.dest = b.clientAddr ∧ client = b.clientAddr

/-- **Payload passes only on request.** In every run, whatever the server sends is an answer
to the client that has sent the packet, or it is payload that it passes on for a client to a
peer, or from outside to a client; and then it goes to or comes from an address that this
client has asked for less than five minutes before, in a request that passed the
credential check, without having given its allocation up in between. -/
theorem payload_only_on_request (host : Host) (cfg : Config) (run : Run (turnServer host cfg) ts d)
    (clock : ClockRuns ts) (before : List ServerStep) (t : ServerStep) (after : List ServerStep)
    (inside : ts = before ++ t :: after) (sent : Sent) (member : sent ∈ t.output) :
    (sent.purpose = .reply ∧ ∃ data via, t.input.1 = .packet data sent.dest via) ∨
    ∃ client peer, Passes t sent client peer ∧
      ∃ earlier t₀ between, before = earlier ++ t₀ :: between ∧
        permits host cfg client peer.address t₀ = true ∧
        t.input.2.now < t₀.input.2.now + seconds Allocation.kPermissionTTL ∧
        ∀ t' ∈ between, releases host cfg client t' = false := by
  subst inside
  obtain ⟨early, taken⟩ := run.split
  have clockBefore : ClockRuns before := (List.pairwise_append.mp clock).1
  have inv := (serverInv_of_reachable ⟨before, early⟩).tables
  have asked := fun client address permitted =>
    (permittedUntil_iff early clockBefore address t.input.2.now).mp
      ((@hasPermission_iff client t.before t.input.2.now address).mp permitted)
  rcases forwarded_cases taken member with
    reply | ⟨data, client, peer, input, forwards, leads, a, known, permitted⟩ |
      ⟨data, peer, relayAddr, q, b, input, purpose, found, permitted, dest⟩
  · exact .inl reply
  · exact .inr ⟨client, peer, .inl ⟨data, input, forwards, leads⟩,
      asked client peer.address ⟨a, known, permitted⟩⟩
  · have known : t.before.manager.findByClient b.clientAddr = some b :=
      findByClient_eq_some.mpr ⟨q, inv.live_client (inv.relay_exact found).2⟩
    exact .inr ⟨b.clientAddr, peer,
      .inr ⟨data, relayAddr, q, b, input, purpose, found, dest, rfl⟩,
      asked b.clientAddr peer.address ⟨b, known, permitted⟩⟩

/-- What the first account sends on its channel is passed on to the second. -/
theorem payload_only_on_request_alice :
    ∃ ts d, Run (turnServer Deployment.channelHost Deployment.config) ts d ∧
      ∃ before t after, ts = before ++ t :: after ∧ ∃ sent ∈ t.output,
        sent.purpose ≠ .reply ∧ sent.dest = Deployment.bobAddr ∧ ∃ client peer,
          Passes t sent client peer ∧
          ∃ earlier t₀ between, before = earlier ++ t₀ :: between ∧
            permits Deployment.channelHost Deployment.config client peer.address t₀ = true ∧
            t.input.2.now < t₀.input.2.now + seconds Allocation.kPermissionTTL ∧
            ∀ t' ∈ between, releases Deployment.channelHost Deployment.config client t' =
              false := by
  obtain ⟨ts, d, run, check⟩ := Run.of_exec (turnServer Deployment.channelHost Deployment.config)
    (Deployment.aliceBinds ++
      [(.packet Deployment.onChannel Deployment.aliceAddr .udp, Deployment.atSecond 2)])
    (fun ts _ => decide (ClockRuns ts) && ts.any fun t => t.output.any fun sent =>
      sent.purpose ≠ .reply ∧ sent.dest = Deployment.bobAddr) (by decide +kernel)
  obtain ⟨clock, passed⟩ := (Bool.and_eq_true _ _).mp check
  obtain ⟨t, member, passed⟩ := List.any_eq_true.mp passed
  obtain ⟨sent, inside, carries⟩ := List.any_eq_true.mp passed
  obtain ⟨carries, dest⟩ := of_decide_eq_true carries
  obtain ⟨before, after, split⟩ := List.append_of_mem member
  refine ⟨ts, d, run, before, t, after, split, sent, inside, carries, dest, ?_⟩
  exact (payload_only_on_request Deployment.channelHost Deployment.config run
    (of_decide_eq_true clock) before t after split sent inside).resolve_left
      fun reply => carries reply.1

end Zaza.Authority
