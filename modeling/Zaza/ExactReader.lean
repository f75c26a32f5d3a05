import Mathlib.Data.List.Basic

/-!
Readers that ask for an exact number of items at a time.

Such a reader is always in some phase; the phase says how many items it wants
next, and the completion handler turns those items into the next phase and what
is handed out. Items arrive in segments of any size and wait in `filled` until
the read under way is complete. A read of no items completes as soon as it is
issued; what follows it must want at least one, so issuing a read never runs on.

How the items are cut into segments is immaterial (`feedAll_eq`), and feeding
exactly what a phase wants runs its handler once (`run_read`).
-/
namespace Zaza

structure ExactReader (α ρ ο : Type) where
  wants : ρ → Nat
  completed : ρ → List α → ρ × List ο
  progress : ∀ phase, wants phase = 0 → 0 < wants (completed phase []).1

/-- A read under way: its phase and what has arrived of it. -/
structure Pending (α ρ : Type) where
  phase : ρ
  filled : List α
  deriving DecidableEq

namespace ExactReader
variable {α ρ ο : Type} (R : ExactReader α ρ ο)

/-- Issuing the read of a phase. -/
def issue (phase : ρ) : Pending α ρ × List ο :=
  if R.wants phase = 0 then (⟨(R.completed phase []).1, []⟩, (R.completed phase []).2)
  else (⟨phase, []⟩, [])

/-- One item arrives. -/
def item (s : Pending α ρ) (x : α) : Pending α ρ × List ο :=
  if (s.filled ++ [x]).length < R.wants s.phase then (⟨s.phase, s.filled ++ [x]⟩, [])
  else
    let done := R.completed s.phase (s.filled ++ [x])
    let next := R.issue done.1
    (next.1, done.2 ++ next.2)

/-- A segment arrives. -/
def feed (s : Pending α ρ) : List α → Pending α ρ × List ο
  | [] => (s, [])
  | x :: rest =>
    let first := R.item s x
    let later := feed first.1 rest
    (later.1, first.2 ++ later.2)

/-- Segments arrive one after the other. -/
def feedAll (s : Pending α ρ) : List (List α) → Pending α ρ × List ο
  | [] => (s, [])
  | segment :: rest =>
    let first := R.feed s segment
    let later := feedAll first.1 rest
    (later.1, first.2 ++ later.2)

/-- The reader from the moment it issues a phase. -/
def run (phase : ρ) (items : List α) : Pending α ρ × List ο :=
  let start := R.issue phase
  let later := R.feed start.1 items
  (later.1, start.2 ++ later.2)

variable {R}

theorem feed_append (s : Pending α ρ) (front rest : List α) :
    R.feed s (front ++ rest) =
      ((R.feed (R.feed s front).1 rest).1, (R.feed s front).2 ++ (R.feed (R.feed s front).1 rest).2)
    := by
  induction front generalizing s with
  | nil => simp [feed]
  | cons x front ih => simp only [List.cons_append, feed, ih, List.append_assoc]

/-- The cuts between segments are immaterial. -/
theorem feedAll_eq (s : Pending α ρ) (segments : List (List α)) :
    R.feedAll s segments = R.feed s segments.flatten := by
  induction segments generalizing s with
  | nil => rfl
  | cons segment segments ih => simp only [feedAll, List.flatten_cons, feed_append, ih]

/-- The items that complete a read run its handler once, and issue the next read. -/
theorem feed_complete {phase : ρ} (filled : List α) {items : List α} (nonempty : items ≠ [])
    (exact : filled.length + items.length = R.wants phase) :
    R.feed ⟨phase, filled⟩ items =
      ((R.issue (R.completed phase (filled ++ items)).1).1,
        (R.completed phase (filled ++ items)).2 ++
          (R.issue (R.completed phase (filled ++ items)).1).2) := by
  induction items generalizing filled with
  | nil => exact absurd rfl nonempty
  | cons x items ih =>
    cases items with
    | nil =>
      have full : ¬ (filled ++ [x]).length < R.wants phase := by
        simp only [List.length_append]
        omega
      simp only [feed, item, if_neg full, List.append_nil]
    | cons y items =>
      have short : (filled ++ [x]).length < R.wants phase := by
        simp only [List.length_append, List.length_cons, List.length_nil] at exact ⊢
        omega
      have rest := ih (filled ++ [x]) (by simp)
        (by simp only [List.length_append, List.length_cons, List.length_nil] at exact ⊢; omega)
      simp only [List.append_assoc, List.singleton_append] at rest
      rw [feed]
      simp only [item, if_pos short, List.nil_append]
      exact rest

/-- A phase that wants something is issued as it is. -/
theorem issue_of_wants {phase : ρ} (wants : 0 < R.wants phase) :
    R.issue phase = (⟨phase, []⟩, []) := by
  rw [issue, if_neg (by omega)]

/-- Items that do not complete a read wait for the rest of it. -/
theorem feed_short {phase : ρ} (filled : List α) {items : List α}
    (short : filled.length + items.length < R.wants phase) :
    R.feed ⟨phase, filled⟩ items = (⟨phase, filled ++ items⟩, []) := by
  induction items generalizing filled with
  | nil => simp [feed]
  | cons x items ih =>
    simp only [List.length_cons] at short
    have waits : (filled ++ [x]).length < R.wants phase := by
      simp only [List.length_append, List.length_cons, List.length_nil]
      omega
    have rest := ih (filled ++ [x]) (by
      simp only [List.length_append, List.length_cons, List.length_nil]
      omega)
    simp only [List.append_assoc, List.singleton_append] at rest
    rw [feed]
    simp only [item, if_pos waits, List.nil_append]
    exact rest

theorem run_short {phase : ρ} {items : List α} (short : items.length < R.wants phase) :
    R.run phase items = (⟨phase, items⟩, []) := by
  simp only [run, issue_of_wants (Nat.zero_lt_of_lt short)]
  rw [feed_short [] (by simpa using short)]
  rfl

/-- The items at the front that a phase wants run its handler, and the reader goes
on with the next phase and the items behind them. -/
theorem run_read {phase : ρ} {items : List α} (exact : items.length = R.wants phase)
    (rest : List α) :
    R.run phase (items ++ rest) =
      ((R.run (R.completed phase items).1 rest).1,
        (R.completed phase items).2 ++ (R.run (R.completed phase items).1 rest).2) := by
  by_cases empty : R.wants phase = 0
  · obtain rfl : items = [] := List.eq_nil_of_length_eq_zero (exact.trans empty)
    have started : R.issue phase = (⟨(R.completed phase []).1, []⟩, (R.completed phase []).2) := by
      rw [issue, if_pos empty]
    simp only [run, List.nil_append, started, issue_of_wants (R.progress phase empty)]
  · have nonempty : items ≠ [] := by
      rintro rfl
      exact empty exact.symm
    have complete := feed_complete (R := R) [] nonempty (by simpa using exact)
    simp only [List.nil_append] at complete
    simp only [run, issue_of_wants (Nat.pos_of_ne_zero empty), feed_append, complete,
      List.nil_append, List.append_assoc]

end ExactReader

end Zaza
