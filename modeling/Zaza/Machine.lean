import Mathlib.Data.List.Infix

/-!
Runs of a machine that takes one input at a time and may stop by throwing.

A `Run` remembers every transition it took, so a property of a whole run is a
property of each transition in the list, and a history question ("on which
input did this object appear?") is a question about the list. The rules below
turn facts about one step into facts about every run: `Run.invariant` for
invariants of all steps, `Run.invariant_when` for those that need a condition
on the steps taken, `Run.always_iff` where the condition is exact, and
`Run.holds_iff_since` for what some steps establish and some destroy. A machine
inside another one is seen through `Run.project`.
`Machine.exec` computes a run on given inputs; `Run.of_exec` turns a check of
what it computes into a fact about runs, and `Machine.exec_simulates` compares two
machines.
-/
namespace Zaza

/-- A deterministic machine: a step throws, or moves on and shows an output. -/
structure Machine (σ ι ο ε : Type) where
  init : σ
  step : σ → ι → Except ε (σ × ο)

/-- One step taken, with the states around it. -/
structure Transition (σ ι ο : Type) where
  before : σ
  input : ι
  after : σ
  output : ο

variable {σ ι ο ε : Type}

/-- The transition is one the machine really takes. -/
def Machine.Takes (M : Machine σ ι ο ε) (t : Transition σ ι ο) : Prop :=
  M.step t.before t.input = .ok (t.after, t.output)

/-- A finite run from the initial state, oldest transition first. -/
inductive Run (M : Machine σ ι ο ε) : List (Transition σ ι ο) → σ → Prop where
  | start : Run M [] M.init
  | step {ts : List (Transition σ ι ο)} {s : σ} {i : ι} {s' : σ} {o : ο} :
      Run M ts s → M.step s i = .ok (s', o) → Run M (ts ++ [⟨s, i, s', o⟩]) s'

/-- A state some run ends in. -/
def Reachable (M : Machine σ ι ο ε) (s : σ) : Prop := ∃ ts, Run M ts s

variable {M : Machine σ ι ο ε} {s : σ} {ts : List (Transition σ ι ο)} {t : Transition σ ι ο}

/-- An invariant of the steps that meet a condition holds in every state of a
run all of whose steps meet it. -/
theorem Run.invariant_when (Inv : σ → Prop) (Meets : Transition σ ι ο → Prop)
    (initial : Inv M.init)
    (preserved : ∀ t, Inv t.before → M.Takes t → Meets t → Inv t.after)
    (run : Run M ts s) (meets : ∀ t ∈ ts, Meets t) : Inv s := by
  induction run with
  | start => exact initial
  | @step ts s i s' o _ taken ih =>
    have before := ih fun t member => meets t (List.mem_append_left _ member)
    exact preserved ⟨s, i, s', o⟩ before taken (meets _ (by simp))

/-- An invariant of every step holds in every state of every run. -/
theorem Run.invariant (Inv : σ → Prop) (initial : Inv M.init)
    (preserved : ∀ t, Inv t.before → M.Takes t → Inv t.after) (run : Run M ts s) : Inv s :=
  run.invariant_when Inv (fun _ => True) initial
    (fun t before taken _ => preserved t before taken) (fun _ _ => trivial)

/-- An invariant of what has happened and the state it led to. -/
theorem Run.invariant_with_history (Inv : List (Transition σ ι ο) → σ → Prop)
    (initial : Inv [] M.init)
    (preserved : ∀ earlier t, Inv earlier t.before → M.Takes t → Inv (earlier ++ [t]) t.after)
    (run : Run M ts s) : Inv ts s := by
  induction run with
  | start => exact initial
  | @step ts s i s' o _ taken ih => exact preserved ts ⟨s, i, s', o⟩ ih taken

/-- A run ends where its last transition ends. -/
theorem Run.final (run : Run M ts s) : s = (ts.getLast?.map Transition.after).getD M.init := by
  cases run with
  | start => rfl
  | step => simp

/-- What every step does to the state before it, a run does to every earlier state. -/
theorem Run.related (Rel : σ → σ → Prop) (refl : ∀ s, Rel s s)
    (trans : ∀ s₁ s₂ s₃, Rel s₁ s₂ → Rel s₂ s₃ → Rel s₁ s₃)
    (stepped : ∀ t, M.Takes t → Rel t.before t.after) {earlier : List (Transition σ ι ο)} {s₀ : σ}
    (run : Run M ts s) (early : Run M earlier s₀) (inside : earlier <+: ts) : Rel s₀ s := by
  induction run with
  | start =>
    obtain rfl := List.prefix_nil.mp inside
    rw [early.final]
    exact refl _
  | @step ts s i s' o run taken ih =>
    rcases List.prefix_concat_iff.mp inside with rfl | inside
    · obtain rfl : s₀ = s' := by simpa using early.final
      exact refl _
    · exact trans _ _ _ (ih inside) (stepped ⟨s, i, s', o⟩ taken)

/-- What holds along a whole run exactly if every step meets a condition: each step
keeps the property if it meets the condition, and only then. -/
theorem Run.always_iff (Holds : List (Transition σ ι ο) → σ → Prop)
    (Meets : List (Transition σ ι ο) → Transition σ ι ο → Prop) (initial : Holds [] M.init)
    (keeps : ∀ earlier t, Run M earlier t.before → M.Takes t → Holds earlier t.before →
      (Holds (earlier ++ [t]) t.after ↔ Meets earlier t)) (run : Run M ts s) :
    (∀ earlier s', earlier <+: ts → Run M earlier s' → Holds earlier s') ↔
      ∀ earlier t, earlier ++ [t] <+: ts → Meets earlier t := by
  induction run with
  | start =>
    constructor
    · intro _ earlier t inside
      simp at inside
    · intro _ earlier s' inside run
      obtain rfl := List.prefix_nil.mp inside
      rw [run.final]
      exact initial
  | @step ts s i s' o run taken ih =>
    have next := keeps ts ⟨s, i, s', o⟩ run taken
    constructor
    · intro holds earlier t inside
      have before := holds ts s (List.prefix_append _ _) run
      rcases List.prefix_concat_iff.mp inside with whole | inside
      · obtain ⟨rfl, rfl⟩ := List.append_singleton_inj.mp whole
        exact (next before).mp (holds _ _ List.prefix_rfl (run.step taken))
      · refine ih.mp (fun earlier' s'' inside' => ?_) earlier t inside
        exact holds earlier' s'' (inside'.trans (List.prefix_append _ _))
    · intro meets earlier s'' inside run'
      have along := ih.mpr fun earlier' t inside' =>
        meets earlier' t (inside'.trans (List.prefix_append _ _))
      rcases List.prefix_concat_iff.mp inside with rfl | inside
      · obtain rfl : s'' = s' := by simpa using run'.final
        exact (next (along ts s List.prefix_rfl run)).mpr (meets ts _ List.prefix_rfl)
      · exact along earlier s'' inside run'

/-- Every transition of a run is preceded by a run to its first state. -/
theorem Run.history (run : Run M ts s) (member : t ∈ ts) :
    ∃ earlier, Run M earlier t.before ∧ earlier ++ [t] <+: ts ∧ M.Takes t := by
  induction run with
  | start => simp at member
  | @step ts s i s' o run taken ih =>
    rcases List.mem_append.mp member with old | new
    · obtain ⟨earlier, before, initial, takes⟩ := ih old
      exact ⟨earlier, before, initial.trans (List.prefix_append _ _), takes⟩
    · obtain rfl : t = ⟨s, i, s', o⟩ := by simpa using new
      exact ⟨ts, run, List.prefix_rfl, taken⟩

/-- What precedes a place in a run is a run to its first state. -/
theorem Run.split {before after : List (Transition σ ι ο)} (run : Run M (before ++ t :: after) s) :
    Run M before t.before ∧ M.Takes t := by
  generalize whole : before ++ t :: after = ts at run
  induction run generalizing after with
  | start => simp at whole
  | @step ts s i s' o run taken ih =>
    rcases List.eq_nil_or_concat after with rfl | ⟨after, last, rfl⟩
    · obtain ⟨rfl, rfl⟩ := List.append_singleton_inj.mp whole
      exact ⟨run, taken⟩
    · rw [List.concat_eq_append, ← List.cons_append, ← List.append_assoc] at whole
      exact ih (List.append_singleton_inj.mp whole).1

/-- A transition of a run starts in a reachable state. -/
theorem Run.reachable_before (run : Run M ts s) (member : t ∈ ts) : Reachable M t.before := by
  obtain ⟨earlier, before, _⟩ := run.history member
  exact ⟨earlier, before⟩

/-- A transition of a run is one the machine takes. -/
theorem Run.takes (run : Run M ts s) (member : t ∈ ts) : M.Takes t := by
  obtain ⟨_, _, _, takes⟩ := run.history member
  exact takes

/-- A run of a machine whose steps are steps of another one, or none of its business, is a
run of the other one. -/
theorem Run.project {σ' ι' ο' ε' : Type} {N : Machine σ' ι' ο' ε'} (view : σ → σ')
    (shown : Transition σ ι ο → Option (Transition σ' ι' ο')) (initial : view M.init = N.init)
    (stepped : ∀ t, M.Takes t →
      (shown t = none ∧ view t.after = view t.before) ∨
      ∃ t', shown t = some t' ∧ t'.before = view t.before ∧ t'.after = view t.after ∧ N.Takes t')
    (run : Run M ts s) : Run N (ts.filterMap shown) (view s) := by
  induction run with
  | start =>
    rw [initial]
    exact .start
  | @step ts s i s' o run taken ih =>
    rw [List.filterMap_append]
    rcases stepped ⟨s, i, s', o⟩ taken with ⟨silent, same⟩ | ⟨t', visible, before, after, takes⟩
    · rw [List.filterMap_cons_none silent, List.filterMap_nil, List.append_nil, same]
      exact ih
    · obtain ⟨first, input, last, output⟩ := t'
      obtain rfl : first = view s := before
      obtain rfl : last = view s' := after
      rw [List.filterMap_cons_some visible, List.filterMap_nil]
      exact ih.step takes

/-! ## What has happened since -/

/-- One thing has happened, and another has not happened since. -/
def Since (Begins Ends : τ → Prop) (events : List τ) : Prop :=
  ∃ before e between, events = before ++ e :: between ∧ Begins e ∧ ∀ e' ∈ between, ¬ Ends e'

theorem not_since_nil {Begins Ends : τ → Prop} : ¬ Since Begins Ends [] := by
  rintro ⟨before, e, between, whole, _⟩
  simp at whole

theorem since_concat {Begins Ends : τ → Prop} {events : List τ} {last : τ} :
    Since Begins Ends (events ++ [last]) ↔
      Begins last ∨ Since Begins Ends events ∧ ¬ Ends last := by
  constructor
  · rintro ⟨before, e, between, whole, begins, calm⟩
    rcases List.eq_nil_or_concat between with rfl | ⟨between, e', rfl⟩
    · obtain ⟨-, rfl⟩ := List.append_singleton_inj.mp whole
      exact .inl begins
    · rw [List.concat_eq_append, ← List.cons_append, ← List.append_assoc] at whole
      obtain ⟨rfl, rfl⟩ := List.append_singleton_inj.mp whole
      have earlier : ∀ e' ∈ between, ¬ Ends e' := fun e' member => calm e' (by simp [member])
      exact .inr ⟨⟨before, e, between, rfl, begins, earlier⟩, calm last (by simp)⟩
  · rintro (begins | ⟨⟨before, e, between, rfl, begins, calm⟩, ends⟩)
    · exact ⟨events, last, [], rfl, begins, by simp⟩
    · refine ⟨before, e, between ++ [last], by simp, begins, fun e' member => ?_⟩
      rcases List.mem_append.mp member with old | new
      · exact calm e' old
      · rwa [List.mem_singleton.mp new]

/-- A property of the state that some steps establish, some destroy and all others leave
as it is holds exactly if it has been established and not destroyed since. -/
theorem Run.holds_iff_since (Holds : σ → Prop) (Begins Ends : Transition σ ι ο → Prop)
    (initial : ¬ Holds M.init)
    (stepped : ∀ t, Reachable M t.before → M.Takes t →
      (Holds t.after ↔ Begins t ∨ Holds t.before ∧ ¬ Ends t)) (run : Run M ts s) :
    Holds s ↔ Since Begins Ends ts := by
  induction run with
  | start => exact iff_of_false initial not_since_nil
  | @step ts s i s' o run taken ih =>
    have next := stepped ⟨s, i, s', o⟩ ⟨ts, run⟩ taken
    rw [since_concat, ← ih]
    exact next

/-! ## What each step finds -/

/-- Each element of a list has a property that may depend on those before it. -/
def EachAfter (P : List τ → τ → Prop) (ts : List τ) : Prop :=
  ∀ before t after, ts = before ++ t :: after → P before t

theorem eachAfter_nil {P : List τ → τ → Prop} : EachAfter P [] := by
  intro before t after whole
  simp at whole

theorem EachAfter.concat {P : List τ → τ → Prop} {ts : List τ} {last : τ}
    (each : EachAfter P ts) (holds : P ts last) : EachAfter P (ts ++ [last]) := by
  intro before t after whole
  rcases List.eq_nil_or_concat after with rfl | ⟨after, last', rfl⟩
  · obtain ⟨rfl, rfl⟩ := List.append_singleton_inj.mp whole
    exact holds
  · rw [List.concat_eq_append, ← List.cons_append, ← List.append_assoc] at whole
    exact each before t after (List.append_singleton_inj.mp whole).1

theorem EachAfter.earlier {P : List τ → τ → Prop} {ts earlier : List τ} (each : EachAfter P ts)
    (inside : earlier <+: ts) : EachAfter P earlier := by
  obtain ⟨rest, rfl⟩ := inside
  rintro before t after rfl
  exact each before t (after ++ rest) (by simp)

theorem EachAfter.last {P : List τ → τ → Prop} {ts : List τ} {last : τ}
    (each : EachAfter P (ts ++ [last])) : P ts last :=
  each ts last [] rfl

/-! ## Computed runs -/

/-- The transitions a machine takes on a list of inputs, and where they end. -/
def Machine.exec (M : Machine σ ι ο ε) (s : σ) : List ι → Except ε (List (Transition σ ι ο) × σ)
  | [] => .ok ([], s)
  | i :: inputs =>
    match M.step s i with
    | .error e => .error e
    | .ok (s', o) => (M.exec s' inputs).map fun rest => (⟨s, i, s', o⟩ :: rest.1, rest.2)

theorem Machine.exec_cons {i : ι} {inputs : List ι} {s' : σ} :
    M.exec s (i :: inputs) = .ok (ts, s') ↔ ∃ next o rest, M.step s i = .ok (next, o) ∧
      M.exec next inputs = .ok (rest, s') ∧ ts = ⟨s, i, next, o⟩ :: rest := by
  simp only [Machine.exec]
  cases M.step s i with
  | error e => simp
  | ok result =>
    obtain ⟨next, o⟩ := result
    simp only
    cases later : M.exec next inputs with
    | error e => simp [Except.map, later]
    | ok rest =>
      constructor
      · intro done
        obtain ⟨rfl, rfl⟩ := by simpa [Except.map] using done
        exact ⟨next, o, rest.1, rfl, later, rfl⟩
      · rintro ⟨next', o', rest', taken, later', rfl⟩
        obtain ⟨rfl, rfl⟩ := Prod.mk.inj (Except.ok.inj taken)
        obtain rfl := Except.ok.inj (later.symm.trans later')
        rfl

theorem Machine.exec_inputs {inputs : List ι} {s' : σ} (done : M.exec s inputs = .ok (ts, s')) :
    ts.map Transition.input = inputs := by
  induction inputs generalizing s ts with
  | nil =>
    obtain ⟨rfl, rfl⟩ := Prod.mk.inj (Except.ok.inj done)
    rfl
  | cons i inputs ih =>
    obtain ⟨next, o, rest, taken, later, rfl⟩ := Machine.exec_cons.mp done
    rw [List.map_cons, ih later]

/-- What `exec` computes extends the run that led to its first state. -/
theorem Run.exec {ts' : List (Transition σ ι ο)} {s' : σ} {inputs : List ι} (run : Run M ts s)
    (done : M.exec s inputs = .ok (ts', s')) : Run M (ts ++ ts') s' := by
  induction inputs generalizing s ts ts' with
  | nil =>
    obtain ⟨rfl, rfl⟩ := Prod.mk.inj (Except.ok.inj done)
    simpa using run
  | cons i inputs ih =>
    obtain ⟨next, o, rest, taken, later, rfl⟩ := Machine.exec_cons.mp done
    have extended := ih (.step run taken) later
    simpa using extended

/-- The machine stops on a list of inputs at the first one whose step throws. -/
theorem Machine.exec_error_iff {inputs : List ι} {e : ε} : M.exec s inputs = .error e ↔
    ∃ before i after ts s', inputs = before ++ i :: after ∧ M.exec s before = .ok (ts, s') ∧
      M.step s' i = .error e := by
  constructor
  · intro failed
    induction inputs generalizing s with
    | nil => cases failed
    | cons i inputs ih =>
      cases taken : M.step s i with
      | error e' =>
        simp only [Machine.exec, taken, Except.error.injEq] at failed
        subst failed
        exact ⟨[], i, inputs, [], s, rfl, rfl, taken⟩
      | ok result =>
        obtain ⟨next, o⟩ := result
        simp only [Machine.exec, taken] at failed
        cases later : M.exec next inputs with
        | ok rest => simp [later, Except.map] at failed
        | error e' =>
          obtain rfl : e' = e := by simpa [later, Except.map] using failed
          obtain ⟨before, j, after, ts, s', rfl, done, threw⟩ := ih later
          exact ⟨i :: before, j, after, _, s', rfl,
            Machine.exec_cons.mpr ⟨next, o, ts, taken, done, rfl⟩, threw⟩
  · rintro ⟨before, i, after, ts, s', rfl, done, threw⟩
    induction before generalizing s ts with
    | nil =>
      obtain ⟨_, rfl⟩ := Prod.mk.inj (Except.ok.inj done)
      simp [Machine.exec, threw]
    | cons first before ih =>
      obtain ⟨next, o, rest, taken, later, rfl⟩ := Machine.exec_cons.mp done
      simp [Machine.exec, taken, ih rest later, Except.map]

/-- A machine that answers every input as another one does, step by step, gives the same
answers to any list of inputs. -/
theorem Machine.exec_simulates {σ' ε' : Type} {N : Machine σ' ι ο ε'} (Rel : σ → σ' → Prop)
    (stepped : ∀ s s' i, Rel s s' → ∃ next next' o, M.step s i = .ok (next, o) ∧
      N.step s' i = .ok (next', o) ∧ Rel next next')
    {s' : σ'} (related : Rel s s') (inputs : List ι) :
    ∃ ts final ts' final', M.exec s inputs = .ok (ts, final) ∧
      N.exec s' inputs = .ok (ts', final') ∧
      ts.map Transition.output = ts'.map Transition.output ∧ Rel final final' := by
  induction inputs generalizing s s' with
  | nil => exact ⟨[], s, [], s', rfl, rfl, rfl, related⟩
  | cons i inputs ih =>
    obtain ⟨next, next', o, taken, taken', after⟩ := stepped s s' i related
    obtain ⟨ts, final, ts', final', done, done', same, last⟩ := ih after
    refine ⟨_, final, _, final', Machine.exec_cons.mpr ⟨next, o, ts, taken, done, rfl⟩,
      Machine.exec_cons.mpr ⟨next', o, ts', taken', done', rfl⟩, ?_, last⟩
    simp [same]

/-- What a computation that passes a check has yielded. -/
theorem exists_of_check {result : Except ε α} (check : α → Bool)
    (passed : result.toOption.any check = true) : ∃ a, result = .ok a ∧ check a = true := by
  cases result with
  | error failed => simp [Except.toOption] at passed
  | ok a => exact ⟨a, rfl, by simpa [Except.toOption] using passed⟩

/-- A check that the computed run passes is passed by some run. -/
theorem Run.of_exec (M : Machine σ ι ο ε) (inputs : List ι)
    (check : List (Transition σ ι ο) → σ → Bool)
    (passed : (M.exec M.init inputs).toOption.any (fun rest => check rest.1 rest.2) = true) :
    ∃ ts s, Run M ts s ∧ check ts s = true := by
  cases done : M.exec M.init inputs with
  | error e => simp [done, Except.toOption] at passed
  | ok rest =>
    obtain ⟨ts, s⟩ := rest
    refine ⟨ts, s, by simpa using Run.start.exec done, ?_⟩
    simpa [done, Except.toOption] using passed

end Zaza
