import Zaza.CallLife

/-!
How long a call rings.

`main` lets the router look for overdue calls every few seconds; nothing else ends a
call that nobody answers. So the timeout is kept up to the time between two looks: a
call that has had no event for the timeout and one interval has been looked at when
it was overdue, and that look is an event (`calls_resolved_in_time`). No look ends a
call before its time.
-/
namespace Zaza.RingTimeout
open Zaza CallManager CallInvariant CallLife

/-- The time of a step. -/
def time (t : RouterStep) : Int := t.input.2.now

/-- The clock does not go back. -/
def ClockRuns (ts : List RouterStep) : Prop := ts.Pairwise fun t t' => time t ≤ time t'

/-- The timer looks at the calls: before a step, the last look is at most `d` ago, unless
the run itself is younger. -/
def Regular (d : Int) : List RouterStep → Prop :=
  EachAfter fun before t => ∀ t₀ ∈ before, time t₀ + d < time t →
    ∃ look ∈ before, look.input.1 = .checkExpired ∧ time t ≤ time look + d

variable {cfg : RouterConfig} {ringTimeout : Int} {m : CallManager} {c : Bytes} {t : RouterStep}
  {ts : List RouterStep} {s : CallSession}

/-! ## One step -/

/-- A call without an event in a step is stored as before. -/
theorem find_of_quiet (table : Table t.before) (taken : (routerMachine cfg ringTimeout).Takes t)
    (quiet : events c t = []) : t.after.find c = t.before.find c := by
  have moves := step_moves table taken c
  rw [quiet] at moves
  generalize t.before.find c = stored at moves
  generalize t.after.find c = stored' at moves
  cases moves
  rfl

/-- A call rings after it is created. -/
theorem find_of_created (table : Table t.before)
    (taken : (routerMachine cfg ringTimeout).Takes t) (created : .created s ∈ events c t) :
    t.after.find c = some s ∧ s.state = .ringing ∧ s.createdAt = time t := by
  have moves := step_moves table taken c
  generalize events c t = happened at created moves
  generalize t.before.find c = stored at moves
  generalize t.after.find c = stored' at moves
  cases moves with
  | stay => cases created
  | create callerId calleeId _ free drawn =>
    obtain rfl := CallEvent.created.inj (List.mem_singleton.mp created)
    exact ⟨rfl, rfl, rfl⟩
  | accept _ _ => simp at created
  | reject _ _ => simp at created
  | hangup _ _ _ => simp at created
  | expire _ _ => simp at created

theorem expireLoop_ringTimeout (now : Int) (entries : List (Bytes × CallSession))
    (m : CallManager) (expired : List CallSession) :
    (expireLoop now entries m expired).2.ringTimeout = m.ringTimeout := by
  induction entries generalizing m expired with
  | nil => rfl
  | cons entry rest ih =>
    obtain ⟨id, s⟩ := entry
    rw [expireLoop]
    split
    · exact ih _ _
    · exact ih _ _

theorem call_ringTimeout (m : CallManager) (env : BackendEnv) (op : CallOp) :
    (m.call env op).2.ringTimeout = m.ringTimeout := by
  cases op with
  | create callerId calleeId =>
    simp only [call, create]
    split
    · rfl
    split <;> rfl
  | accept callId calleeId =>
    simp only [call, accept]
    split <;> rfl
  | reject callId calleeId =>
    simp only [call, reject]
    split <;> rfl
  | hangup callId userId =>
    simp only [call, hangup]
    split
    · rfl
    split <;> rfl
  | expireRinging => exact expireLoop_ringTimeout _ _ _ _

/-- The timeout is that of the constructor. -/
theorem ringTimeout_of_run (run : Run (routerMachine cfg ringTimeout) ts m) :
    m.ringTimeout = ringTimeout := by
  refine run.invariant (fun m => m.ringTimeout = ringTimeout) rfl fun t before taken => ?_
  rcases step_after taken with ⟨_, same⟩ | ⟨op, _, result⟩
  · rw [same]
    exact before
  · rw [result, call_ringTimeout]
    exact before

/-! ## Every run -/

/-- A call without an event in a part of a run is stored as at its beginning. -/
theorem find_kept {before between : List RouterStep}
    (run : Run (routerMachine cfg ringTimeout) (before ++ t :: between) m)
    (quiet : life c between = []) : m.find c = t.after.find c := by
  induction between using List.reverseRecOn generalizing m with
  | nil =>
    rw [run.final, List.getLast?_concat]
    rfl
  | append_singleton between last ih =>
    have whole : before ++ t :: (between ++ [last]) = (before ++ t :: between) ++ [last] := by simp
    rw [whole] at run
    obtain ⟨early, taken⟩ := run.split
    simp only [life, List.flatMap_append, List.append_eq_nil_iff] at quiet
    have final : m = last.after := by
      rw [run.final, List.getLast?_concat]
      rfl
    rw [final, find_of_quiet (table_of_router_run early) taken (by simpa using quiet.2)]
    exact ih early quiet.1

/-- A look at a call that has rung for longer than the timeout ends it. -/
theorem look_ends (early : Run (routerMachine cfg ringTimeout) ts t.before)
    (taken : (routerMachine cfg ringTimeout).Takes t) (look : t.input.1 = .checkExpired)
    (rings : t.before.find c = some s) (ringing : s.state = .ringing)
    (late : ringTimeout * 1000000000 < time t - s.createdAt) :
    events c t = [.expired (ended s)] := by
  have late : t.input.2.now - s.createdAt > ringTimeout * 1000000000 := late
  rw [(step_announced (table_of_router_run early) taken).sweep look c, rings,
    ringTimeout_of_run early]
  simp [Option.filter, ringing, late]

/-- A call that is not created twice has, in the part of a run after its creation, only
events that resolve it. -/
theorem resolves_of_fresh {before between after : List RouterStep} {event : CallEvent}
    (fresh : FreshIds (before ++ t :: (between ++ after))) (created : .created s ∈ events c t)
    (happened : event ∈ life c between) : isCreated event = false := by
  by_contra again
  rw [Bool.not_eq_false] at again
  have bound := fresh c
  have first : 0 < (events c t).countP isCreated :=
    List.countP_pos_iff.mpr ⟨_, created, rfl⟩
  have second : 0 < (life c between).countP isCreated :=
    List.countP_pos_iff.mpr ⟨event, happened, again⟩
  simp only [life, List.flatMap_append, List.flatMap_cons, List.countP_append] at bound second
  omega

/-- A call without an event since its creation is not old. -/
theorem quiet_is_young {before between after : List RouterStep} {t₀ : RouterStep} {d : Int}
    (positive : 0 ≤ ringTimeout)
    (run : Run (routerMachine cfg ringTimeout) (before ++ t₀ :: (between ++ t :: after)) m)
    (clock : ClockRuns (before ++ t₀ :: (between ++ t :: after)))
    (regular : Regular d (before ++ t₀ :: (between ++ t :: after)))
    (created : .created s ∈ events c t₀) (quiet : life c between = []) :
    time t ≤ time t₀ + ringTimeout * 1000000000 + d := by
  by_contra late
  rw [not_le] at late
  have room : 0 ≤ ringTimeout * 1000000000 := Int.mul_nonneg positive (by decide)
  obtain ⟨look, member, isLook, recent⟩ := regular (before ++ t₀ :: between) t after (by simp) t₀
    (by simp) (by omega)
  -- The look is later than the creation, so it is in between.
  have after_t₀ : time t₀ < time look := by omega
  obtain ⟨_, clock, order⟩ := List.pairwise_append.mp clock
  have inside : look ∈ between := by
    rcases List.mem_append.mp member with old | later
    · exact absurd (order look old t₀ (by simp)) (by omega)
    · rcases List.mem_cons.mp later with rfl | inside
      · exact absurd after_t₀ (lt_irrefl _)
      · exact inside
  obtain ⟨first, rest, rfl⟩ := List.append_of_mem inside
  have whole : before ++ t₀ :: (first ++ look :: rest ++ t :: after) =
      (before ++ t₀ :: first) ++ look :: (rest ++ t :: after) := by simp
  rw [whole] at run
  obtain ⟨early, taken⟩ := run.split
  obtain ⟨origin, taken₀⟩ := early.split
  obtain ⟨rings, ringing, createdAt⟩ :=
    find_of_created (table_of_router_run origin) taken₀ created
  simp only [life, List.flatMap_append, List.flatMap_cons, List.append_eq_nil_iff] at quiet
  have found : look.before.find c = some s := (find_kept early quiet.1).trans rings
  have ends := look_ends early taken isLook found ringing (by omega)
  rw [quiet.2.1] at ends
  cases ends

/-- **Calls are resolved in time.** In every run of the router with fresh call ids in which the
clock does not go back and the timer looks at the calls every `d` nanoseconds, each call
has been accepted, rejected, hung up or expired when the timeout and `d` have passed since
its creation, and that was announced; and a call that expires has rung for longer than the
timeout. -/
theorem calls_resolved_in_time (cfg : RouterConfig) (ringTimeout d : Int)
    (positive : 0 ≤ ringTimeout) (run : Run (routerMachine cfg ringTimeout) ts m)
    (fresh : FreshIds ts) (clock : ClockRuns ts) (regular : Regular d ts) :
    (∀ before t₀ between t after c s, ts = before ++ t₀ :: (between ++ t :: after) →
      .created s ∈ events c t₀ → time t₀ + ringTimeout * 1000000000 + d < time t →
      ∃ t' ∈ between, ∃ event ∈ events c t', isCreated event = false ∧
        ∀ out ∈ announce cfg t'.input.2 c event, out ∈ t'.output) ∧
    ∀ t ∈ ts, ∀ c s, .expired s ∈ events c t →
      ringTimeout * 1000000000 < time t - s.createdAt := by
  constructor
  · rintro before t₀ between t after c s rfl created late
    have loud : life c between ≠ [] := fun quiet =>
      absurd (quiet_is_young positive run clock regular created quiet) (not_le.mpr late)
    obtain ⟨event, happened⟩ := List.exists_mem_of_ne_nil _ loud
    obtain ⟨t', inside, mine⟩ := List.mem_flatMap.mp happened
    refine ⟨t', inside, event, mine, resolves_of_fresh fresh created happened, fun out told => ?_⟩
    obtain ⟨earlier, early, _, taken⟩ := run.history (by simp [inside] : t' ∈ _)
    have about := (step_announced (table_of_router_run early) taken).about c
    have said : out ∈ t'.output.filter (isAbout c) := by
      rw [about]
      exact List.mem_flatMap.mpr ⟨event, mine, told⟩
    exact List.mem_of_mem_filter said
  · intro t member c s expired
    obtain ⟨earlier, early, _, taken⟩ := run.history member
    have moves := step_moves (table_of_router_run early) taken c
    have timeout := ringTimeout_of_run early
    generalize events c t = happened at expired moves
    generalize t.before.find c = stored at moves
    generalize t.after.find c = stored' at moves
    cases moves with
    | stay => cases expired
    | create _ _ _ _ _ => simp at expired
    | accept _ _ => simp at expired
    | reject _ _ => simp at expired
    | hangup _ _ _ => simp at expired
    | expire s' overdue =>
      obtain rfl := CallEvent.expired.inj (List.mem_singleton.mp expired)
      rw [← timeout]
      exact (of_decide_eq_true overdue).2

/-- Nobody answers a call; the timer looks at it twice. -/
theorem calls_resolved_in_time_unanswered :
    ∃ ts m, Run (routerMachine deployed 30) ts m ∧
      ∃ before t₀ between t after c s, ts = before ++ t₀ :: (between ++ t :: after) ∧
        .created s ∈ events c t₀ ∧ time t₀ + 30 * 1000000000 + 31000000000 < time t ∧
        ∃ t' ∈ between, ∃ event ∈ events c t', isCreated event = false ∧
          ∀ out ∈ announce deployed t'.input.2 c event, out ∈ t'.output := by
  let ask : Option Json :=
    some (.object [(ascii "type", .text "call.create"), (ascii "to", .string (ascii "bob"))])
  let asked := Router.handle deployed (surroundings 0 1) (.new 30) (ascii "alice") ask
  let looked := Router.checkExpired (surroundings 31000000000 0) asked.1
  let again := Router.checkExpired (surroundings 62000000000 0) looked.1
  let t₁ : RouterStep :=
    ⟨.new 30, (.message (ascii "alice") ask, surroundings 0 1), asked.1, asked.2⟩
  let t₂ : RouterStep := ⟨asked.1, (.checkExpired, surroundings 31000000000 0), looked.1, looked.2⟩
  let t₃ : RouterStep := ⟨looked.1, (.checkExpired, surroundings 62000000000 0), again.1, again.2⟩
  have run : Run (routerMachine deployed 30) ([] ++ [t₁] ++ [t₂] ++ [t₃]) again.1 :=
    ((Run.start.step rfl).step rfl).step rfl
  have fresh : FreshIds ([] ++ [t₁] ++ [t₂] ++ [t₃]) := freshIds_of_one (by decide +kernel)
  have clock : ClockRuns ([] ++ [t₁] ++ [t₂] ++ [t₃]) := by
    simp [ClockRuns, time, t₁, t₂, t₃, surroundings]
  have regular : Regular 31000000000 ([] ++ [t₁] ++ [t₂] ++ [t₃]) := by
    refine ((eachAfter_nil.concat ?_).concat ?_).concat ?_
    · simp
    · simp [time, t₁, t₂, surroundings]
    · exact fun _ _ _ => ⟨t₂, by simp, rfl, by decide⟩
  have created : .created ⟨generateUuid (1, 1), ascii "alice", ascii "bob", .ringing, 0⟩ ∈
      events (generateUuid (1, 1)) t₁ := by decide +kernel
  have late : time t₁ + 30 * 1000000000 + 31000000000 < time t₃ := by decide
  exact ⟨_, _, run, [], t₁, [t₂], t₃, [], _, _, rfl, created, late,
    (calls_resolved_in_time deployed 30 31000000000 (by decide) run fresh clock regular).1
      [] t₁ [t₂] t₃ [] _ _ rfl created late⟩

end Zaza.RingTimeout
