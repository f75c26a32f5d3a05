import Zaza.Protocol

/-!
The seats of the users, as the backend has them.

`seatOf` is the seat the call manager has for a user; nobody has two. An
operation of the manager changes the seats of the users it concerns, and
`Serves` puts it together with what the router sends: for every user, what
happens is one of the things `Protocol` allows. There is one such theorem for
each request and one for the timer.
-/
namespace Zaza.Seats
open Zaza CallManager CallInvariant CallLife Protocol

/-! ## Seats -/

/-- The seat the backend has for a user. -/
def seatOf (m : CallManager) (u : Bytes) : Option Seat :=
  (m.sessions.entries.find? fun entry => entry.2.callerId = u ∨ entry.2.calleeId = u).map
    fun entry => ⟨entry.1, entry.2.state = .ringing ∧ entry.2.calleeId = u⟩

variable {m m' : CallManager} {u : Bytes} {p : Seat} {id : Bytes} {s : CallSession}

theorem seatOf_eq_none :
    seatOf m u = none ↔ ∀ id s, m.sessions.lookup id = some s → u ∉ participants s := by
  rw [seatOf, Option.map_eq_none_iff, List.find?_eq_none]
  constructor
  · intro free id s found member
    exact free ⟨id, s⟩ (AList.mem_lookup_iff.mp found) (by simpa [participants] using member)
  · intro free entry stored member
    exact free entry.1 entry.2 (AList.mem_lookup_iff.mpr stored)
      (by simpa [participants] using member)

theorem seatOf_eq_some (table : Table m) : seatOf m u = some p ↔
    ∃ s, m.sessions.lookup p.callId = some s ∧ u ∈ participants s ∧
      p.rings = decide (s.state = .ringing ∧ s.calleeId = u) := by
  -- Nobody is in two calls, so whichever call the search meets is the one.
  have sound : ∀ p, seatOf m u = some p → ∃ s, m.sessions.lookup p.callId = some s ∧
      u ∈ participants s ∧ p.rings = decide (s.state = .ringing ∧ s.calleeId = u) := by
    intro p found
    obtain ⟨entry, first, rfl⟩ := Option.map_eq_some_iff.mp found
    have member := List.find?_some first
    exact ⟨entry.2, AList.mem_lookup_iff.mpr (List.mem_of_find?_eq_some first),
      by simpa [participants] using member, rfl⟩
  refine ⟨sound p, ?_⟩
  rintro ⟨s, found, member, rings⟩
  cases seat : seatOf m u with
  | none => exact absurd member (seatOf_eq_none.mp seat _ _ found)
  | some q =>
    obtain ⟨s', found', member', rings'⟩ := sound q seat
    have same := table.exclusive _ _ _ _ _ found' found member' member
    rw [same, found] at found'
    obtain rfl := Option.some.inj found'
    obtain ⟨callId, ringing⟩ := q
    obtain ⟨callId', ringing'⟩ := p
    simp_all

theorem isBusy_iff_seatOf (table : Table m) : m.isBusy u = true ↔ seatOf m u ≠ none := by
  rw [table.isBusy_iff, Ne, seatOf_eq_none]
  simp

/-- Who takes part in the same calls has the same seat. -/
theorem seatOf_congr (table : Table m) (table' : Table m')
    (same : ∀ id s, u ∈ participants s →
      (m'.sessions.lookup id = some s ↔ m.sessions.lookup id = some s)) :
    seatOf m' u = seatOf m u := by
  apply Option.ext
  intro p
  rw [seatOf_eq_some table, seatOf_eq_some table']
  constructor
  · rintro ⟨s, found, member, rings⟩
    exact ⟨s, (same _ s member).mp found, member, rings⟩
  · rintro ⟨s, found, member, rings⟩
    exact ⟨s, (same _ s member).mpr found, member, rings⟩

section OneCall
variable {new : Option CallSession} (table : Table m) (table' : Table m')
  (changed : ∀ c, m'.sessions.lookup c = if c = id then new else m.sessions.lookup c)
include table table' changed

/-- An operation on a call concerns its participants only. -/
theorem seatOf_other (before : ∀ s, m.sessions.lookup id = some s → u ∉ participants s)
    (after : ∀ s, new = some s → u ∉ participants s) : seatOf m' u = seatOf m u := by
  refine seatOf_congr table table' fun c s member => ?_
  rw [changed]
  split
  · subst_vars
    exact iff_of_false (fun stored => after s stored member)
      fun stored => before s stored member
  · exact Iff.rfl

omit table' in
theorem seatOf_gone (gone : new = none) (found : m.sessions.lookup id = some s)
    (member : u ∈ participants s) : seatOf m' u = none := by
  refine seatOf_eq_none.mpr fun c s' stored member' => ?_
  rw [changed] at stored
  split at stored
  · simp [gone] at stored
  · rename_i other
    exact other (table.exclusive _ _ _ _ _ stored found member' member)

end OneCall

/-- The seat of a participant. -/
theorem seatOf_stored (table : Table m) (found : m.sessions.lookup id = some s)
    (member : u ∈ participants s) :
    seatOf m u = some ⟨id, s.state = .ringing ∧ s.calleeId = u⟩ :=
  (seatOf_eq_some table).mpr ⟨s, found, member, rfl⟩

/-! ## The backend -/

/-- The messages among some that go to a user. -/
def toUser (u : Bytes) (sent : List Outgoing) : List Json :=
  (sent.filter fun out => out.userId = u).map Outgoing.msg

@[simp] theorem toUser_nil (u : Bytes) : toUser u [] = [] := rfl

@[simp] theorem toUser_cons_self (u : Bytes) (msg : Json) (sent : List Outgoing) :
    toUser u (⟨u, msg⟩ :: sent) = msg :: toUser u sent := by
  simp [toUser]

theorem toUser_cons_ne {x : Bytes} (other : x ≠ u) (msg : Json) (sent : List Outgoing) :
    toUser u (⟨x, msg⟩ :: sent) = toUser u sent := by
  simp [toUser, other]

/-- The calls of the manager are between two users each. -/
def TwoUsers (m : CallManager) : Prop :=
  ∀ id s, m.sessions.lookup id = some s → s.callerId ≠ s.calleeId

/-- A result of the router is, for every user, one of the things that can befall it,
and a seat it gives out is in a new call. -/
structure Serves (cfg : RouterConfig) (env : BackendEnv) (m : CallManager)
    (asked : Bytes → Option Request) (result : CallManager × List Outgoing) : Prop where
  table : Table result.1
  two : TwoUsers result.1
  befalls : ∀ x, ∃ notices : List Notice, toUser x result.2 = notices.map (Notice.json cfg) ∧
    Befalls (seatOf m x) (asked x) notices (seatOf result.1 x)
  new : ∀ x p, seatOf m x = none → seatOf result.1 x = some p →
    p.callId = generateUuid env.draws ∧ ∃ u v, asked u = some (.create v)

/-- Nobody asks but the user whose request it is. -/
def only (u : Bytes) (r : Request) : Bytes → Option Request := Function.update (fun _ => none) u r

@[simp] theorem only_self (u : Bytes) (r : Request) : only u r u = some r := by simp [only]

theorem only_ne {x : Bytes} (other : x ≠ u) (r : Request) : only u r x = none := by
  simp [only, other]

variable {cfg : RouterConfig} {env : BackendEnv} {r : Request}

/-- A request that is refused. -/
theorem Serves.refused (table : Table m) (two : TwoUsers m) (reason : Bytes)
    (stays : ∀ p, seatOf m u = some p → ¬ Leaves r p) :
    Serves cfg env m (only u r) (m, Router.sendError u reason) := by
  refine ⟨table, two, fun x => ?_, fun x p free taken => by simp [free] at taken⟩
  by_cases asker : x = u
  · subst asker
    refine ⟨[.error reason], by simp [Router.sendError, Notice.json], ?_⟩
    rw [only_self]
    exact .refused _ r reason stays
  · refine ⟨[], toUser_cons_ne (Ne.symm asker) _ _, ?_⟩
    rw [only_ne asker]
    exact .nothing _

theorem TwoUsers.changed {new : Option CallSession} (two : TwoUsers m)
    (changed : ∀ c, m'.sessions.lookup c = if c = id then new else m.sessions.lookup c)
    (between : ∀ s, new = some s → s.callerId ≠ s.calleeId) : TwoUsers m' := by
  intro c s stored
  rw [changed] at stored
  split at stored
  · exact between s stored
  · exact two c s stored

theorem isBusy_eq_false (table : Table m) : m.isBusy u = false ↔ seatOf m u = none := by
  rw [← Bool.not_eq_true, isBusy_iff_seatOf table, not_not]

theorem serves_create {v : Bytes} (table : Table m) (two : TwoUsers m) (other : v ≠ u)
    (fresh : m.sessions.lookup (generateUuid env.draws) = none) :
    Serves cfg env m (only u (.create v))
      (Router.handle cfg env m u (some (Request.create v).json)) := by
  have stays : ∀ p, seatOf m u = some p → ¬ Leaves (.create v) p :=
    fun p _ => not_leaves (.create v) (.inl rfl) p
  have asked : operation u (some (Request.create v).json) = some (.create u v) := rfl
  have after := table.preserved env (.create u v)
  by_cases callerBusy : m.isBusy u = true
  · rw [handle_refused asked (by simp only [call, create, if_pos callerBusy]; rfl)]
    exact .refused table two _ stays
  by_cases calleeBusy : m.isBusy v = true
  · rw [handle_refused asked
      (by simp only [call, create, if_neg callerBusy, if_pos calleeBusy]; rfl)]
    exact .refused table two _ stays
  let id := generateUuid env.draws
  let s : CallSession := ⟨id, u, v, .ringing, env.now⟩
  have result : m.call env (.create u v) = (.ok (.callId id), m.put s id) := by
    simp only [call, create, if_neg callerBusy, if_neg calleeBusy]
    rfl
  rw [handle_done rfl result rfl, announce]
  rw [result] at after
  rw [Bool.not_eq_true, isBusy_eq_false table] at callerBusy calleeBusy
  have changed : ∀ c, (m.put s id).sessions.lookup c = _ := fun c => lookup_put m s id
  have stored : (m.put s id).sessions.lookup id = some s := by rw [changed, if_pos rfl]
  have caller : seatOf (m.put s id) u = some ⟨id, false⟩ := by
    rw [seatOf_stored after stored (.inl rfl)]
    simp [s, other]
  have callee : seatOf (m.put s id) v = some ⟨id, true⟩ := by
    rw [seatOf_stored after stored (.inr rfl)]
    simp [s]
  refine ⟨after, two.changed changed ?_, fun x => ?_, fun x p free taken => ?_⟩
  · rintro _ ⟨⟩
    exact other.symm
  · by_cases asker : x = u
    · subst asker
      refine ⟨[.created id], by simp [toUser_cons_ne other]; rfl, ?_⟩
      rw [callerBusy, caller, only_self]
      exact .created v _ _ rfl
    · rw [only_ne asker, toUser_cons_ne (Ne.symm asker)]
      by_cases called : x = v
      · subst called
        refine ⟨[.incoming id u], by simp; rfl, ?_⟩
        rw [calleeBusy, callee]
        exact .seated _ _ rfl
      · refine ⟨[], by rw [toUser_cons_ne (Ne.symm called)]; rfl, ?_⟩
        have same := seatOf_other (u := x) table after changed (by simp [id, fresh]) (by
          rintro _ ⟨⟩ (same | same)
          · exact asker same.symm
          · exact called same.symm)
        rw [same]
        exact .nothing _
  · obtain ⟨s', found, member, _⟩ := (seatOf_eq_some after).mp taken
    rw [changed] at found
    split at found
    · exact ⟨‹_›, u, v, only_self u _⟩
    · exact absurd member (seatOf_eq_none.mp free _ _ found)

theorem serves_accept (table : Table m) (two : TwoUsers m) :
    Serves cfg env m (only u (.accept id))
      (Router.handle cfg env m u (some (Request.accept id).json)) := by
  have asked : operation u (some (Request.accept id).json) = some (.accept id u) := rfl
  have after := table.preserved env (.accept id u)
  cases checked : m.ringingFor id u with
  | error e =>
    rw [handle_refused asked (by simp only [call, accept, checked]; rfl)]
    exact .refused table two _ fun p _ => not_leaves (.accept id) (.inr ⟨id, rfl⟩) p
  | ok s =>
    obtain ⟨found, rings, rfl⟩ := ringingFor_eq_ok.mp checked
    let active : CallSession := { s with state := .active }
    have result : m.call env (.accept id s.calleeId) =
        (.ok (.session active), m.put active id) := by
      simp only [call, accept, checked]
      rfl
    rw [handle_done rfl result rfl, announce]
    rw [result] at after
    have changed : ∀ c, (m.put active id).sessions.lookup c = _ := fun c => lookup_put m active id
    have stored : (m.put active id).sessions.lookup id = some active := by rw [changed, if_pos rfl]
    have differ := two id s found
    have now : ∀ x ∈ participants s, seatOf (m.put active id) x = some ⟨id, false⟩ := by
      intro x member
      rw [seatOf_stored after stored member]
      simp [active]
    have outsider : ∀ x, x ∉ participants s → seatOf (m.put active id) x = seatOf m x := by
      intro x outside
      refine seatOf_other table after changed ?_ ?_
      · intro s' found'
        rwa [← Option.some.inj (found.symm.trans found')]
      · rintro _ ⟨⟩
        exact outside
    refine ⟨after, two.changed changed ?_, fun x => ?_, fun x p free taken => ?_⟩
    · rintro _ ⟨⟩
      exact differ
    · by_cases asker : x = s.calleeId
      · subst asker
        refine ⟨[.config (env.wall 1) s.calleeId id], ?_, ?_⟩
        · rw [toUser_cons_ne differ]
          exact toUser_cons_self _ _ _
        · rw [now _ (.inr rfl), seatOf_stored table found (.inr rfl), only_self]
          simp only [rings, and_self, decide_true]
          exact .accepted id _ rfl
      · rw [only_ne asker]
        by_cases caller : x = s.callerId
        · subst caller
          refine ⟨[.config (env.wall 0) s.callerId id], ?_, ?_⟩
          · rw [toUser_cons_self, toUser_cons_ne differ.symm]
            rfl
          · rw [now _ (.inl rfl), seatOf_stored table found (.inl rfl)]
            simp only [Ne.symm differ, and_false, decide_false]
            exact .told _ _ rfl
        · refine ⟨[], ?_, ?_⟩
          · rw [toUser_cons_ne (Ne.symm caller), toUser_cons_ne (Ne.symm asker)]
            rfl
          · rw [outsider x (by rintro (rfl | rfl) <;> contradiction)]
            exact .nothing _
    · by_cases member : x ∈ participants s
      · rw [seatOf_stored table found member] at free
        cases free
      · rw [outsider x member, free] at taken
        cases taken

/-- A request that ends the user's call. -/
theorem Serves.left {receiver : Bytes} (table : Table m) (two : TwoUsers m) (after : Table m')
    (changed : ∀ c, m'.sessions.lookup c = if c = id then none else m.sessions.lookup c)
    (found : m.sessions.lookup id = some s) (both : participants s = {u, receiver})
    (differs : receiver ≠ u) (leaves : Leaves r ⟨id, s.state = .ringing ∧ s.calleeId = u⟩)
    (reason : String) :
    Serves cfg env m (only u r) (m', [⟨receiver, Router.callEnded id reason⟩]) := by
  have outsider : ∀ x, x ∉ participants s → seatOf m' x = seatOf m x := by
    intro x outside
    refine seatOf_other table after changed ?_ nofun
    intro s' found'
    rwa [← Option.some.inj (found.symm.trans found')]
  refine ⟨after, two.changed changed nofun, fun x => ?_, fun x p free taken => ?_⟩
  · by_cases asker : x = u
    · subst asker
      have member : x ∈ participants s := by simp [both]
      refine ⟨[], toUser_cons_ne differs _ _, ?_⟩
      rw [only_self, seatOf_gone table changed rfl found member, seatOf_stored table found member]
      exact .left r _ leaves
    · rw [only_ne asker]
      by_cases other : x = receiver
      · subst other
        refine ⟨[.ended id reason], toUser_cons_self _ _ _, ?_⟩
        rw [seatOf_gone table changed rfl found (by simp [both])]
        exact .unseated _ _ rfl
      · refine ⟨[], toUser_cons_ne (Ne.symm other) _ _, ?_⟩
        rw [outsider x (by simp [both, asker, other])]
        exact .nothing _
  · by_cases member : x ∈ participants s
    · rw [seatOf_gone table changed rfl found member] at taken
      cases taken
    · rw [outsider x member, free] at taken
      cases taken

theorem serves_reject (table : Table m) (two : TwoUsers m) :
    Serves cfg env m (only u (.reject id))
      (Router.handle cfg env m u (some (Request.reject id).json)) := by
  have asked : operation u (some (Request.reject id).json) = some (.reject id u) := rfl
  have after := table.preserved env (.reject id u)
  cases checked : m.ringingFor id u with
  | error e =>
    rw [handle_refused asked (by simp only [call, reject, checked]; rfl)]
    refine .refused table two _ ?_
    rintro p seated (hangup | ⟨reject, rings⟩)
    · cases hangup
    · -- The call would ring for the user.
      obtain rfl := Request.reject.inj reject
      obtain ⟨s, found, _, ringing⟩ := (seatOf_eq_some table).mp seated
      rw [rings] at ringing
      obtain ⟨state, callee⟩ := of_decide_eq_true ringing.symm
      rw [ringingFor_eq_ok.mpr ⟨found, state, callee⟩] at checked
      cases checked
  | ok s =>
    obtain ⟨found, rings, rfl⟩ := ringingFor_eq_ok.mp checked
    have result : m.call env (.reject id s.calleeId) =
        (.ok (.session (ended s)), (m.put (ended s) id).drop id) := by
      simp only [call, reject, checked]
      rfl
    rw [handle_done rfl result rfl, announce]
    rw [result] at after
    obtain ⟨both, differs⟩ := SignalingScope.participants_eq_other (.inr rfl) (two id s found)
    rw [Router.other, if_neg (two id s found)] at both differs
    exact .left table two after (fun c => lookup_end m _ id) found both differs
      (.inr ⟨rfl, by simp [rings]⟩) "rejected"

theorem serves_hangup (table : Table m) (two : TwoUsers m) :
    Serves cfg env m (only u (.hangup id))
      (Router.handle cfg env m u (some (Request.hangup id).json)) := by
  have asked : operation u (some (Request.hangup id).json) = some (.hangup id u) := rfl
  have after := table.preserved env (.hangup id u)
  have refused : ∀ reason, (∀ s, m.sessions.lookup id = some s → u ∉ participants s) →
      Serves cfg env m (only u (.hangup id)) (m, Router.sendError u reason) := by
    intro reason outside
    refine .refused table two _ ?_
    rintro p seated (hangup | ⟨reject, _⟩)
    · obtain rfl := Request.hangup.inj hangup
      obtain ⟨s, found, member, _⟩ := (seatOf_eq_some table).mp seated
      exact outside s found member
    · cases reject
  cases found : m.sessions.lookup id with
  | none =>
    rw [handle_refused asked (by simp only [call, hangup, found]; rfl)]
    exact refused _ (by simp [found])
  | some s =>
    by_cases outside : s.callerId ≠ u ∧ s.calleeId ≠ u
    · rw [handle_refused asked
        (by simp only [call, hangup, found, if_pos outside]; rfl)]
      refine refused _ fun s' found' => ?_
      rw [← Option.some.inj (found.symm.trans found')]
      exact fun member => member.elim outside.1 outside.2
    · have result : m.call env (.hangup id u) =
          (.ok (.session (ended s)), (m.put (ended s) id).drop id) := by
        simp only [call, hangup, found, if_neg outside]
        rfl
      rw [handle_done rfl result rfl, announce]
      rw [result] at after
      rw [not_and_or, not_not, not_not] at outside
      obtain ⟨both, differs⟩ := SignalingScope.participants_eq_other outside (two id s found)
      exact .left table two after (fun c => lookup_end m _ id) found both differs (.inl rfl)
        "hangup"

theorem serves_signal {msg : Json} (type : SignalingScope.relayed msg) (table : Table m)
    (two : TwoUsers m) : Serves cfg env m (only u (.signal msg type))
      (Router.handle cfg env m u (some (Request.signal msg type).json)) := by
  have refused : ∀ reason, Serves cfg env m (only u (.signal msg type))
      (m, Router.sendError u reason) :=
    fun reason => .refused table two _ fun p _ => not_leaves (.signal msg type) (.inl rfl) p
  rw [Request.json, SignalingScope.handle_relayed type, Router.onWebrtcRelay]
  cases named : msg.stringMember "callId" with
  | none => exact refused _
  | some c =>
    simp only
    cases found : m.find c with
    | none => exact refused _
    | some s =>
      have other : Router.other s u ≠ u := by
        unfold Router.other
        split
        · rename_i caller
          exact fun callee => two c s found (caller.trans callee.symm)
        · assumption
      refine ⟨table, two, fun x => ?_, fun x p free taken => by simp [free] at taken⟩
      by_cases asker : x = u
      · subst asker
        refine ⟨[], toUser_cons_ne other _ _, ?_⟩
        rw [only_self]
        exact .relayed _ msg type
      · rw [only_ne asker]
        by_cases receiver : x = Router.other s u
        · refine ⟨[.signal msg type], ?_, .told _ _ rfl⟩
          subst receiver
          exact toUser_cons_self _ _ _
        · exact ⟨[], toUser_cons_ne (Ne.symm receiver) _ _, .nothing _⟩

/-- **Whatever a user asks**, what happens to each user is something the protocol
allows, if nobody calls itself and the id of a new call is new. -/
theorem serves_request (r : Request) (table : Table m) (two : TwoUsers m)
    (create : ∀ v, r = .create v →
      v ≠ u ∧ m.sessions.lookup (generateUuid env.draws) = none) :
    Serves cfg env m (only u r) (Router.handle cfg env m u (some r.json)) := by
  cases r with
  | create v =>
    obtain ⟨other, fresh⟩ := create v rfl
    exact serves_create table two other fresh
  | accept id => exact serves_accept table two
  | reject id => exact serves_reject table two
  | hangup id => exact serves_hangup table two
  | signal msg type => exact serves_signal type table two

/-! ## The timer -/

theorem flatMap_ite {α β : Type} (l : List α) (q : α → Prop) [DecidablePred q] (f : α → β) :
    (l.flatMap fun a => if q a then [f a] else []) = (l.filter q).map f := by
  induction l with
  | nil => rfl
  | cons a l ih => by_cases holds : q a <;> simp [holds, ih]

theorem toUser_flatMap {α : Type} (u : Bytes) (l : List α) (f : α → List Outgoing) :
    toUser u (l.flatMap f) = l.flatMap fun a => toUser u (f a) := by
  simp only [toUser, List.filter_flatMap, List.map_flatMap]

/-- The announcements of an expired call that go to a user. -/
theorem toUser_expired (x : Bytes) (two : s.callerId ≠ s.calleeId) :
    toUser x [⟨s.callerId, Router.callFailed s.callId⟩, ⟨s.calleeId, Router.callFailed s.callId⟩] =
      if s.callerId = x ∨ s.calleeId = x then [Router.callFailed s.callId] else [] := by
  by_cases caller : s.callerId = x
  · subst caller
    rw [toUser_cons_self, toUser_cons_ne two.symm, if_pos (.inl rfl)]
    rfl
  · rw [toUser_cons_ne caller]
    by_cases callee : s.calleeId = x
    · subst callee
      rw [toUser_cons_self, if_pos (.inr rfl)]
      rfl
    · rw [toUser_cons_ne callee, if_neg (by simp [caller, callee])]
      rfl

/-- The entry a user's seat is in is the only one the user is in. -/
theorem iterate_filter_member (table : Table m) (order : IterOrder) (x : Bytes) :
    (m.sessions.iterate order).filter
        (fun entry => entry.2.callerId = x ∨ entry.2.calleeId = x) =
      match seatOf m x with
      | none => []
      | some p => ((m.sessions.lookup p.callId).map (p.callId, ·)).toList := by
  cases seat : seatOf m x with
  | none =>
    refine List.filter_eq_nil_iff.mpr fun entry member inside => ?_
    exact seatOf_eq_none.mp seat _ _ (UnorderedMap.mem_iterate.mp member)
      (by simpa [participants] using inside)
  | some p =>
    obtain ⟨s, found, inside, _⟩ := (seatOf_eq_some table).mp seat
    simp only
    rw [← UnorderedMap.iterate_filter_key m.sessions order]
    apply List.filter_congr
    rintro ⟨c, s'⟩ member
    have stored := UnorderedMap.mem_iterate.mp member
    rw [decide_eq_decide]
    constructor
    · exact fun inside' => table.exclusive _ _ _ _ x stored found inside' inside
    · rintro rfl
      obtain rfl := Option.some.inj (found.symm.trans stored)
      exact inside

/-- Whether a user's call has rung too long. -/
def isLate (env : BackendEnv) (m : CallManager) (p : Seat) : Bool :=
  (m.sessions.lookup p.callId).any (m.overdue env.now)

/-- What a user hears of the timer. -/
theorem toUser_checkExpired (table : Table m) (two : TwoUsers m) (env : BackendEnv) (x : Bytes) :
    toUser x (Router.checkExpired env m).2 =
      (((seatOf m x).filter (isLate env m)).map fun p => Router.callFailed p.callId).toList := by
  let late := fun entry : Bytes × CallSession => m.overdue env.now entry.2
  have sent : toUser x (Router.checkExpired env m).2 =
      (((m.sessions.iterate env.order).filter
        fun entry => entry.2.callerId = x ∨ entry.2.calleeId = x).filter late).map
          fun entry => Router.callFailed entry.1 := by
    have handed : (Router.checkExpired env m).2 =
        (((m.sessions.iterate env.order).filter late).map fun entry => ended entry.2).flatMap
          fun s => [⟨s.callerId, Router.callFailed s.callId⟩,
            ⟨s.calleeId, Router.callFailed s.callId⟩] := by
      simp only [Router.checkExpired, expireRinging, expireLoop_expired, List.nil_append]
      rfl
    rw [handed, toUser_flatMap, List.flatMap_map, List.filter_comm, ← flatMap_ite]
    refine List.flatMap_congr fun entry member => ?_
    have stored := UnorderedMap.mem_iterate.mp (List.mem_of_mem_filter member)
    rw [toUser_expired (s := ended entry.2) x (two entry.1 entry.2 stored)]
    simp only [ended, table.own entry.1 entry.2 stored]
  rw [sent, iterate_filter_member table]
  cases seat : seatOf m x with
  | none => rfl
  | some p =>
    obtain ⟨s, found, _⟩ := (seatOf_eq_some table).mp seat
    have decided : isLate env m p = m.overdue env.now s := by simp [isLate, found]
    cases overdue : m.overdue env.now s with
    | false =>
      rw [Option.filter_some_neg (by simp [decided, overdue])]
      simp [found, late, overdue]
    | true =>
      rw [Option.filter_some_pos (by rw [decided, overdue])]
      simp [found, late, overdue]

/-- What the timer does to a seat. -/
theorem seatOf_checkExpired (table : Table m) (after : Table (Router.checkExpired env m).1)
    (x : Bytes) : seatOf (Router.checkExpired env m).1 x =
      (seatOf m x).filter fun p => !isLate env m p := by
  have lookup : ∀ c, (Router.checkExpired env m).1.sessions.lookup c =
      (m.sessions.lookup c).filter fun s => !m.overdue env.now s := expireRinging_lookup env m
  apply Option.ext
  intro p
  rw [Option.filter_eq_some_iff, seatOf_eq_some after, seatOf_eq_some table, lookup]
  constructor
  · rintro ⟨s, found, member, rings⟩
    obtain ⟨found, early⟩ := Option.filter_eq_some_iff.mp found
    exact ⟨⟨s, found, member, rings⟩, by simpa [isLate, found] using early⟩
  · rintro ⟨⟨s, found, member, rings⟩, early⟩
    exact ⟨s, Option.filter_eq_some_iff.mpr ⟨found, by simpa [isLate, found] using early⟩,
      member, rings⟩

theorem serves_checkExpired (table : Table m) (two : TwoUsers m) :
    Serves cfg env m (fun _ => none) (Router.checkExpired env m) := by
  have after : Table (Router.checkExpired env m).1 := table.preserved env .expireRinging
  refine ⟨after, fun c s stored => ?_, fun x => ?_, fun x p free taken => ?_⟩
  · have lookup := expireRinging_lookup env m c
    obtain ⟨found, _⟩ := Option.filter_eq_some_iff.mp (lookup.symm.trans stored)
    exact two c s found
  · rw [toUser_checkExpired table two, seatOf_checkExpired table after]
    cases seat : seatOf m x with
    | none => exact ⟨[], rfl, .nothing _⟩
    | some p =>
      cases late : isLate env m p with
      | false =>
        rw [Option.filter_some_neg (by simp [late]), Option.filter_some_pos (by simp [late])]
        exact ⟨[], rfl, .nothing _⟩
      | true =>
        rw [Option.filter_some_pos late, Option.filter_some_neg (by simp [late])]
        exact ⟨[.failed p.callId], rfl, .unseated _ _ rfl⟩
  · rw [seatOf_checkExpired table after, free] at taken
    cases taken

end Zaza.Seats
