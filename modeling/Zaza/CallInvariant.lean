import Zaza.CallManager
import Zaza.Exclusive

/-!
The invariant of the call manager, over every sequence of its operations.

`call_moves` says once what an operation can do to each call: leave it alone,
let it ring, take it up, or end it (`Moves`), and a thrown exception leaves
everything alone. The invariant of the table, and later the life of each call,
are proved against it.
-/
namespace Zaza.CallInvariant
open Zaza CallManager

/-- The users who take part in a call. -/
def participants (s : CallSession) : Set Bytes := {u | s.callerId = u ∨ s.calleeId = u}

/-- What happens to a call in one operation. -/
inductive CallEvent where
  | created (s : CallSession)
  | accepted (s : CallSession)
  | rejected (s : CallSession)
  | hungUp (s : CallSession) (userId : Bytes)
  | expired (s : CallSession)
  deriving DecidableEq

/-- The session a call is in before and after an operation, and its events in it. -/
inductive Moves (env : BackendEnv) (m : CallManager) (c : Bytes) :
    Option CallSession → List CallEvent → Option CallSession → Prop where
  | stay (stored : Option CallSession) : Moves env m c stored [] stored
  | create (callerId calleeId : Bytes) (stored : Option CallSession)
      (free : m.isBusy callerId = false ∧ m.isBusy calleeId = false)
      (drawn : generateUuid env.draws = c) :
      Moves env m c stored [.created ⟨c, callerId, calleeId, .ringing, env.now⟩]
        (some ⟨c, callerId, calleeId, .ringing, env.now⟩)
  | accept (s : CallSession) (rings : s.state = .ringing) :
      Moves env m c (some s) [.accepted { s with state := .active }]
        (some { s with state := .active })
  | reject (s : CallSession) (rings : s.state = .ringing) :
      Moves env m c (some s) [.rejected { s with state := .ended }] none
  | hangup (s : CallSession) (userId : Bytes) (member : userId ∈ participants s) :
      Moves env m c (some s) [.hungUp { s with state := .ended } userId] none
  | expire (s : CallSession) (overdue : m.overdue env.now s = true) :
      Moves env m c (some s) [.expired { s with state := .ended }] none

/-- The events of a call that an operation and its reply stand for. -/
def eventsOf (env : BackendEnv) (c : Bytes) :
    CallOp → Except Bytes CallReply → List CallEvent
  | .create callerId calleeId, .ok (.callId id) =>
    if id = c then [.created ⟨id, callerId, calleeId, .ringing, env.now⟩] else []
  | .accept callId _, .ok (.session s) => if callId = c then [.accepted s] else []
  | .reject callId _, .ok (.session s) => if callId = c then [.rejected s] else []
  | .hangup callId userId, .ok (.session s) => if callId = c then [.hungUp s userId] else []
  | .expireRinging, .ok (.expired sessions) =>
    (sessions.filter (·.callId = c)).map .expired
  | _, _ => []

variable {env : BackendEnv} {m : CallManager} {c : Bytes}

/-! ## Single operations -/

theorem isBusy_iff {u : Bytes} : m.isBusy u = true ↔ ∃ id s, m.sessions.lookup id = some s ∧
    s.state ≠ .ended ∧ u ∈ participants s := by
  rw [isBusy, List.any_eq_true]
  constructor
  · rintro ⟨⟨id, s⟩, member, busy⟩
    exact ⟨id, s, AList.mem_lookup_iff.mpr member, by simpa [participants] using busy⟩
  · rintro ⟨id, s, found, busy⟩
    exact ⟨⟨id, s⟩, AList.mem_lookup_iff.mp found, by simpa [participants] using busy⟩

theorem ringingFor_eq_ok {id u : Bytes} {s : CallSession} : m.ringingFor id u = .ok s ↔
    m.sessions.lookup id = some s ∧ s.state = .ringing ∧ s.calleeId = u := by
  unfold ringingFor
  cases m.sessions.lookup id with
  | none => simp
  | some s' =>
    simp only [Option.some.injEq]
    constructor
    · intro checked
      split at checked
      · simp at checked
      · split at checked
        · simp at checked
        · rename_i callee rings
          obtain rfl := Except.ok.inj checked
          exact ⟨rfl, not_not.mp rings, not_not.mp callee⟩
    · rintro ⟨rfl, rings, callee⟩
      simp [rings, callee]

theorem lookup_put (m : CallManager) (s : CallSession) (id : Bytes) :
    (m.put s id).sessions.lookup c = if c = id then some s else m.sessions.lookup c := by
  split
  · subst_vars
    exact AList.lookup_insert _
  · exact AList.lookup_insert_ne ‹_›

/-- A call that is ended is gone. -/
theorem lookup_end (m : CallManager) (s : CallSession) (id : Bytes) :
    ((m.put s id).drop id).sessions.lookup c = if c = id then none else m.sessions.lookup c := by
  split
  · subst_vars
    exact AList.lookup_erase _ _
  · rename_i other
    simp only [drop, put]
    rw [AList.lookup_erase_ne other, AList.lookup_insert_ne other]

/-! ## The sweep -/

/-- A call as it is handed out when it is over. -/
def ended (s : CallSession) : CallSession := { s with state := .ended }

theorem expireLoop_expired (now : Int) (entries : List (Bytes × CallSession)) (m : CallManager)
    (expired : List CallSession) : (expireLoop now entries m expired).1 =
      expired ++ (entries.filter fun entry => m.overdue now entry.2).map fun entry =>
        ended entry.2 := by
  induction entries generalizing m expired with
  | nil => simp [expireLoop]
  | cons entry rest ih =>
    obtain ⟨id, s⟩ := entry
    simp only [expireLoop]
    split
    · rename_i late
      rw [ih, List.filter_cons_of_pos (by exact late), List.map_cons, List.append_assoc]
      rfl
    · rename_i early
      rw [ih, List.filter_cons_of_neg (by exact early)]

/-- The sweep leaves a call alone that it meets no overdue entry of. -/
theorem expireLoop_kept (now : Int) (entries : List (Bytes × CallSession)) (m : CallManager)
    (expired : List CallSession)
    (early : ∀ s, (c, s) ∈ entries → m.overdue now s = false) :
    (expireLoop now entries m expired).2.sessions.lookup c = m.sessions.lookup c := by
  induction entries generalizing m expired with
  | nil => rfl
  | cons entry rest ih =>
    obtain ⟨id, s⟩ := entry
    simp only [expireLoop]
    split
    · rename_i late
      have other : c ≠ id := by
        rintro rfl
        simp [early s List.mem_cons_self] at late
      rw [ih _ _ (by exact fun s' member => early s' (List.mem_cons_of_mem _ member)), lookup_end,
        if_neg other]
    · exact ih _ _ fun s' member => early s' (List.mem_cons_of_mem _ member)

/-- The sweep takes a call out that it meets an overdue entry of. -/
theorem expireLoop_gone (now : Int) (entries : List (Bytes × CallSession)) (m : CallManager)
    (expired : List CallSession)
    (late : m.sessions.lookup c = none ∨ ∃ s, (c, s) ∈ entries ∧ m.overdue now s = true) :
    (expireLoop now entries m expired).2.sessions.lookup c = none := by
  induction entries generalizing m expired with
  | nil => simpa [expireLoop] using late
  | cons entry rest ih =>
    obtain ⟨id, s⟩ := entry
    simp only [expireLoop]
    split
    · refine ih _ _ ?_
      rw [lookup_end]
      rcases late with gone | ⟨s', member, late'⟩
      · exact .inl (by split <;> [rfl; exact gone])
      · by_cases mine : c = id
        · exact .inl (if_pos mine)
        · refine .inr ⟨s', ?_, late'⟩
          rcases List.mem_cons.mp member with same | later
          · exact absurd (Prod.mk.inj same).1 mine
          · exact later
    · rename_i early
      refine ih _ _ (late.imp_right fun ⟨s', member, late'⟩ => ⟨s', ?_, late'⟩)
      rcases List.mem_cons.mp member with same | later
      · obtain ⟨rfl, rfl⟩ := Prod.mk.inj same
        exact absurd late' early
      · exact later

/-- What the sweep does to a call: it goes if it is overdue. -/
theorem expireRinging_lookup (env : BackendEnv) (m : CallManager) (c : Bytes) :
    (m.expireRinging env).2.sessions.lookup c =
      (m.sessions.lookup c).filter fun s => !m.overdue env.now s := by
  cases held : m.sessions.lookup c with
  | none => exact expireLoop_gone _ _ _ _ (.inl held)
  | some s =>
    cases late : m.overdue env.now s with
    | false =>
      rw [Option.filter_some_pos (by simp [late]), ← held]
      refine expireLoop_kept _ _ _ _ fun s' member => ?_
      have found := UnorderedMap.mem_iterate.mp member
      rw [held] at found
      rw [← Option.some.inj found]
      exact late
    | true =>
      rw [Option.filter_some_neg (by simp [late])]
      exact expireLoop_gone _ _ _ _ (.inr ⟨s, UnorderedMap.mem_iterate.mpr held, late⟩)

/-- What the sweep hands out of a call stored under its own id. -/
theorem expireRinging_expired (own : ∀ id s, m.sessions.lookup id = some s → s.callId = id)
    (env : BackendEnv) (c : Bytes) :
    ((m.expireRinging env).1.filter (·.callId = c)) =
      (((m.sessions.lookup c).filter (m.overdue env.now)).map ended).toList := by
  have keyed : ((m.sessions.iterate env.order).filter fun entry => m.overdue env.now entry.2).filter
      (fun entry => (ended entry.2).callId = c) =
      (((m.sessions.lookup c).map (c, ·)).toList).filter
        fun entry => m.overdue env.now entry.2 := by
    rw [List.filter_filter, ← UnorderedMap.iterate_filter_key m.sessions env.order,
      List.filter_filter]
    apply List.filter_congr
    rintro ⟨id, s⟩ member
    have named := own id s (UnorderedMap.mem_iterate.mp member)
    rw [Bool.and_comm]
    simp [ended, named]
  rw [expireRinging, expireLoop_expired, List.nil_append, List.filter_map]
  simp only [Function.comp_def]
  rw [keyed]
  cases m.sessions.lookup c with
  | none => rfl
  | some s =>
    cases late : m.overdue env.now s with
    | false => simp [late, Option.filter_some_neg]
    | true => simp [late, Option.filter_some_pos]

/-! ## Every operation -/

/-- **What an operation can do to a call.** -/
theorem call_moves (own : ∀ id s, m.sessions.lookup id = some s → s.callId = id)
    (env : BackendEnv) (op : CallOp) (c : Bytes) :
    Moves env m c (m.sessions.lookup c) (eventsOf env c op (m.call env op).1)
      ((m.call env op).2.sessions.lookup c) := by
  cases op with
  | create callerId calleeId =>
    simp only [call, create]
    split
    · exact .stay _
    · rename_i callerFree
      split
      · exact .stay _
      · rename_i calleeFree
        simp only [Prod.map, Except.map, eventsOf, id_eq, lookup_put]
        by_cases mine : generateUuid env.draws = c
        · subst mine
          simp only [↓reduceIte]
          rw [Bool.not_eq_true] at callerFree calleeFree
          exact .create callerId calleeId _ ⟨callerFree, calleeFree⟩ rfl
        · simp only [mine, Ne.symm mine, ↓reduceIte]
          exact .stay _
  | accept callId calleeId =>
    simp only [call, accept]
    cases checked : m.ringingFor callId calleeId with
    | error e => exact .stay _
    | ok s =>
      obtain ⟨found, rings, _⟩ := ringingFor_eq_ok.mp checked
      simp only [Prod.map, Except.map, eventsOf, id_eq, lookup_put]
      by_cases mine : callId = c
      · subst mine
        simp only [↓reduceIte, found]
        exact .accept s rings
      · simp only [mine, Ne.symm mine, ↓reduceIte]
        exact .stay _
  | reject callId calleeId =>
    simp only [call, reject]
    cases checked : m.ringingFor callId calleeId with
    | error e => exact .stay _
    | ok s =>
      obtain ⟨found, rings, _⟩ := ringingFor_eq_ok.mp checked
      simp only [Prod.map, Except.map, eventsOf, id_eq, lookup_end]
      by_cases mine : callId = c
      · subst mine
        simp only [↓reduceIte, found]
        exact .reject s rings
      · simp only [mine, Ne.symm mine, ↓reduceIte]
        exact .stay _
  | hangup callId userId =>
    simp only [call, hangup]
    cases found : m.sessions.lookup callId with
    | none => exact .stay _
    | some s =>
      simp only
      split
      · exact .stay _
      · rename_i inside
        simp only [Prod.map, Except.map, eventsOf, id_eq, lookup_end]
        by_cases mine : callId = c
        · subst mine
          simp only [↓reduceIte, found]
          refine .hangup s userId ?_
          rwa [not_and_or, not_not, not_not] at inside
        · simp only [mine, Ne.symm mine, ↓reduceIte]
          exact .stay _
  | expireRinging =>
    simp only [call, Prod.map, Function.comp_apply, eventsOf, id_eq]
    rw [expireRinging_expired own, expireRinging_lookup]
    cases m.sessions.lookup c with
    | none => exact .stay none
    | some s =>
      cases late : m.overdue env.now s with
      | false =>
        rw [Option.filter_some_neg (by simp [late]), Option.filter_some_pos (by simp [late])]
        exact .stay _
      | true =>
        rw [Option.filter_some_pos late, Option.filter_some_neg (by simp [late])]
        exact .expire s late

/-- A call that throws leaves the sessions as they were. -/
theorem call_error (failed : (m.call env op).1 = .error e) : (m.call env op).2 = m := by
  cases op with
  | create callerId calleeId =>
    simp only [call, create] at failed ⊢
    split
    · rfl
    · split
      · rfl
      · simp_all [Prod.map, Except.map]
  | accept callId calleeId =>
    simp only [call, accept] at failed ⊢
    cases checked : m.ringingFor callId calleeId with
    | error e => rfl
    | ok s => simp [checked, Prod.map, Except.map] at failed
  | reject callId calleeId =>
    simp only [call, reject] at failed ⊢
    cases checked : m.ringingFor callId calleeId with
    | error e => rfl
    | ok s => simp [checked, Prod.map, Except.map] at failed
  | hangup callId userId =>
    simp only [call, hangup] at failed ⊢
    cases found : m.sessions.lookup callId with
    | none => rfl
    | some s =>
      simp only [found] at failed ⊢
      split
      · rfl
      · simp_all [Prod.map, Except.map]
  | expireRinging => simp [call, Prod.map] at failed

/-! ## Every sequence of operations -/

/-- The invariant: calls are stored under their own ids, are not over, and share
no users. -/
structure Table (m : CallManager) : Prop where
  own : ∀ id s, m.sessions.lookup id = some s → s.callId = id
  running : ∀ id s, m.sessions.lookup id = some s → s.state = .ringing ∨ s.state = .active
  exclusive : Exclusive participants m.sessions

theorem Table.new (ringTimeout : Int) : Table (CallManager.new ringTimeout) where
  own id s found := by simp [CallManager.new] at found
  running id s found := by simp [CallManager.new] at found
  exclusive := Exclusive.empty

/-- Who takes part in a stored call is busy, and nobody else. -/
theorem Table.isBusy_iff (table : Table m) {u : Bytes} :
    m.isBusy u = true ↔ ∃ id s, m.sessions.lookup id = some s ∧ u ∈ participants s := by
  rw [CallInvariant.isBusy_iff]
  constructor
  · rintro ⟨id, s, found, _, member⟩
    exact ⟨id, s, found, member⟩
  · rintro ⟨id, s, found, member⟩
    refine ⟨id, s, found, ?_, member⟩
    rcases table.running id s found with rings | active
    · simp [rings]
    · simp [active]

/-- A stored call after an operation: a new one between two idle users, or one
that was stored before. -/
theorem Moves.origin (moves : Moves env m c stored events (some s')) :
    (s' = ⟨c, s'.callerId, s'.calleeId, .ringing, env.now⟩ ∧ generateUuid env.draws = c ∧
      m.isBusy s'.callerId = false ∧ m.isBusy s'.calleeId = false) ∨
    ∃ s, stored = some s ∧ s'.callId = s.callId ∧ participants s' = participants s ∧
      (s'.state = s.state ∨ s'.state = .active) := by
  cases moves with
  | stay => exact .inr ⟨s', rfl, rfl, rfl, .inl rfl⟩
  | create callerId calleeId _ free drawn => exact .inl ⟨rfl, drawn, free⟩
  | accept s rings => exact .inr ⟨s, rfl, rfl, rfl, .inr rfl⟩

/-- **One operation preserves the invariant.** -/
theorem Table.preserved (table : Table m) (env : BackendEnv) (op : CallOp) :
    Table (m.call env op).2 := by
  have origin : ∀ c s', (m.call env op).2.sessions.lookup c = some s' → _ := fun c s' found =>
    Moves.origin (found ▸ call_moves table.own env op c)
  constructor
  · intro id s' found
    rcases origin id s' found with ⟨new, _⟩ | ⟨s, held, named, _⟩
    · rw [new]
    · rw [named]
      exact table.own id s held
  · intro id s' found
    rcases origin id s' found with ⟨new, _⟩ | ⟨s, held, _, _, same | active⟩
    · rw [new]
      exact .inl rfl
    · rw [same]
      exact table.running id s held
    · exact .inr active
  · refine table.exclusive.step
      (fun c s' => generateUuid env.draws = c ∧
        m.isBusy s'.callerId = false ∧ m.isBusy s'.calleeId = false) ?_ ?_ ?_
    · rintro c s c' s' ⟨drawn, _⟩ ⟨drawn', _⟩
      exact drawn.symm.trans drawn'
    · rintro c s u ⟨_, callerFree, calleeFree⟩ member id' s' found member'
      have busy := table.isBusy_iff.mpr ⟨id', s', found, member'⟩
      rcases member with rfl | rfl
      · simp [callerFree] at busy
      · simp [calleeFree] at busy
    · intro c s' found
      rcases origin c s' found with ⟨_, drawn, free⟩ | ⟨s, held, _, same, _⟩
      · exact .inl ⟨drawn, free⟩
      · exact .inr ⟨s, held, same.subset⟩

theorem table_of_run {ringTimeout : Int} (run : Run (callMachine ringTimeout) ts m) : Table m := by
  refine run.invariant Table (Table.new ringTimeout) fun t before taken => ?_
  have result : (t.before.call t.input.2 t.input.1).2 = t.after :=
    (Prod.mk.inj (Except.ok.inj taken)).1
  rw [← result]
  exact before.preserved _ _

/-- When each operation succeeds, and that it changes nothing when it does not. -/
structure Operations (m : CallManager) : Prop where
  create : ∀ env callerId calleeId, (∃ id, (m.create env callerId calleeId).1 = .ok id) ↔
    m.isBusy callerId = false ∧ m.isBusy calleeId = false
  accept : ∀ id u, (∃ s, (m.accept id u).1 = .ok s) ↔
    ∃ s, m.find id = some s ∧ s.state = .ringing ∧ s.calleeId = u
  reject : ∀ id u, (∃ s, (m.reject id u).1 = .ok s) ↔
    ∃ s, m.find id = some s ∧ s.state = .ringing ∧ s.calleeId = u
  hangup : ∀ id u, (∃ s, (m.hangup id u).1 = .ok s) ↔
    ∃ s, m.find id = some s ∧ u ∈ participants s
  expireRinging : ∀ env, ∃ expired, (m.call env .expireRinging).1 = .ok (.expired expired)
  throws : ∀ env op e, (m.call env op).1 = .error e → (m.call env op).2.sessions = m.sessions

theorem operations (m : CallManager) : Operations m where
  create env callerId calleeId := by
    unfold CallManager.create
    split
    · simp_all
    · split <;> simp_all
  accept id u := by
    unfold CallManager.accept CallManager.find
    simp only [← ringingFor_eq_ok]
    cases m.ringingFor id u <;> simp
  reject id u := by
    unfold CallManager.reject CallManager.find
    simp only [← ringingFor_eq_ok]
    cases m.ringingFor id u <;> simp
  hangup id u := by
    unfold CallManager.hangup CallManager.find
    cases m.sessions.lookup id with
    | none => simp
    | some s =>
      simp only [Option.some.injEq, exists_eq_left', participants, Set.mem_ofPred_eq]
      split
      · rename_i outside
        simp [outside]
      · rename_i inside
        rw [not_and_or, not_not, not_not] at inside
        simp [inside]
  expireRinging env := ⟨_, rfl⟩
  throws env op e failed := by rw [call_error failed]

/-- **The call table is always sound.** After any operations, with any arguments,
clock readings and random draws, every stored call is ringing or active and
stored under its own id, no user is in two calls, the busy users are those in a
call, and each operation succeeds exactly when it should and otherwise changes
nothing. -/
theorem callManager_sound (ringTimeout : Int) (run : Run (callMachine ringTimeout) ts m) :
    Table m ∧
      (∀ u, m.isBusy u = true ↔ ∃ id s, m.sessions.lookup id = some s ∧ u ∈ participants s) ∧
      Operations m := by
  have table := table_of_run run
  exact ⟨table, fun u => table.isBusy_iff, operations m⟩

/-- The surroundings at a time, with a number to draw. -/
def surroundings (now : Int) (draw : UInt64) : BackendEnv :=
  ⟨now, fun _ => 1700000000, (draw, draw), .listed⟩

/-- A call is taken up, one is refused for a busy user, one rings too long. -/
def threeCalls : List (CallOp × BackendEnv) :=
  [(.create (ascii "alice") (ascii "bob"), surroundings 0 1),
    (.accept (generateUuid (1, 1)) (ascii "bob"), surroundings 1000000000 0),
    (.create (ascii "carol") (ascii "bob"), surroundings 1000000000 2),
    (.create (ascii "carol") (ascii "dave"), surroundings 1000000000 2),
    (.expireRinging, surroundings 32000000000 0)]

theorem callManager_sound_three_calls :
    ∃ ts m, Run (callMachine 30) ts m ∧ m.isBusy (ascii "bob") = true ∧
      m.isBusy (ascii "dave") = false ∧ Table m ∧
      (∀ u, m.isBusy u = true ↔ ∃ id s, m.sessions.lookup id = some s ∧ u ∈ participants s) ∧
      Operations m := by
  obtain ⟨ts, m, run, check⟩ := Run.of_exec (callMachine 30) threeCalls
    (fun _ m => m.isBusy (ascii "bob") ∧ !m.isBusy (ascii "dave")) (by decide +kernel)
  obtain ⟨busy, free⟩ := of_decide_eq_true check
  exact ⟨ts, m, run, busy, by simpa using free, callManager_sound 30 run⟩

end Zaza.CallInvariant
