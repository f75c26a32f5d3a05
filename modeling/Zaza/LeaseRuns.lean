import Zaza.Lease
import Zaza.Machine

/-!
Leases that a machine keeps in its state.

One lease is looked at: what the state says about its deadline, and what each
transition does to it. If every step does to the deadline what its event says,
the state's deadline is that of the history (`deadline_of_run`), so the lease is
live exactly if some grant that has not run out has not been revoked since
(`live_iff_since`).
-/
namespace Zaza.Lease

variable {σ ι ο ε τ : Type} {M : Machine σ ι ο ε} {s : σ} {ts : List (Transition σ ι ο)}
  {event : Transition σ ι ο → Option (Event Unit τ)}

/-- The deadline in the state is the one of the history. -/
theorem deadline_of_run (held : σ → Option τ) (initial : held M.init = none)
    (stepped : ∀ t, Reachable M t.before → M.Takes t →
      held t.after = next event () (held t.before) t) (run : Run M ts s) :
    held s = deadline event () ts := by
  induction run with
  | start => exact initial
  | @step ts s i s' o run taken ih =>
    rw [deadline_snoc, ← ih]
    exact stepped ⟨s, i, s', o⟩ ⟨ts, run⟩ taken

variable {α : Type} {ev : α → Option (Event Unit τ)} {h : List α}

/-- The deadline is that of a grant that no revocation follows. -/
theorem since_of_deadline {e : τ} (held : deadline ev () h = some e) :
    ∃ before x after, h = before ++ x :: after ∧ ev x = some (.grant () e) ∧
      ∀ y ∈ after, ev y ≠ some (.revoke ()) := by
  induction h using List.reverseRecOn with
  | nil => simp at held
  | append_singleton h x ih =>
    rw [deadline_snoc] at held
    cases happens : ev x with
    | none =>
      simp only [next, happens] at held
      obtain ⟨before, y, after, rfl, grants, calm⟩ := ih held
      refine ⟨before, y, after ++ [x], by simp, grants, fun z member => ?_⟩
      rcases List.mem_append.mp member with old | last
      · exact calm z old
      · simp [List.mem_singleton.mp last, happens]
    | some does =>
      cases does with
      | grant k e' =>
        simp only [next, happens, ↓reduceIte, Option.some.injEq] at held
        subst held
        exact ⟨h, x, [], rfl, happens, by simp⟩
      | revoke k => simp [next, happens] at held

/-- Without a revocation the deadline only moves on. -/
theorem deadline_after [LinearOrder τ] {before after : List α} {x : α} {e : τ}
    (ordered : Ordered ev (before ++ x :: after)) (grants : ev x = some (.grant () e))
    (calm : ∀ y ∈ after, ev y ≠ some (.revoke ())) :
    ∃ e', deadline ev () (before ++ x :: after) = some e' ∧ e ≤ e' := by
  have granted : Granted ev () e (before ++ x :: after) := ⟨x, by simp, grants⟩
  cases held : deadline ev () (before ++ x :: after) with
  | some e' => exact ⟨e', rfl, le_deadline ordered granted held⟩
  | none =>
    rcases deadline_eq_none_iff.mp held with never | revoked
    · exact absurd granted (never e)
    · obtain ⟨before', y, after', split, revokes, ungranted⟩ := revoked
      exfalso
      -- The revocation is not after the grant, so the grant is after the revocation.
      rcases List.append_eq_append_iff.mp split with ⟨between, rfl, rest⟩ | ⟨between, rfl, rest⟩
      · cases between with
        | nil =>
          obtain ⟨rfl, rfl⟩ := List.cons.inj rest
          simp [grants] at revokes
        | cons z between =>
          obtain ⟨rfl, rfl⟩ := List.cons.inj rest
          exact calm y (by simp) revokes
      · cases between with
        | nil =>
          obtain ⟨rfl, rfl⟩ := List.cons.inj rest
          simp [grants] at revokes
        | cons z between =>
          obtain ⟨rfl, rfl⟩ := List.cons.inj rest
          exact ungranted x (by simp) e grants

/-- **When a lease is live**: some grant that has not run out has not been revoked since. -/
theorem live_iff_since [LinearOrder τ] {now : τ} (ordered : Ordered ev h) :
    (∃ e, deadline ev () h = some e ∧ now < e) ↔ ∃ before x after e, h = before ++ x :: after ∧
      ev x = some (.grant () e) ∧ now < e ∧ ∀ y ∈ after, ev y ≠ some (.revoke ()) := by
  constructor
  · rintro ⟨e, held, early⟩
    obtain ⟨before, x, after, split, grants, calm⟩ := since_of_deadline held
    exact ⟨before, x, after, e, split, grants, early, calm⟩
  · rintro ⟨before, x, after, e, rfl, grants, early, calm⟩
    obtain ⟨e', held, late⟩ := deadline_after ordered grants calm
    exact ⟨e', held, lt_of_lt_of_le early late⟩

end Zaza.Lease
