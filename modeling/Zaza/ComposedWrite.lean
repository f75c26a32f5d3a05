import Mathlib.Data.List.Basic

/-!
Composed writes on a connection.

A composed write is started with a message and puts it on the connection piece by
piece; it completes when all of it is there, or with an error, after which nothing
gets on the connection any more. Nothing keeps the pieces of two writes apart that
are outstanding at the same time. Started one after the other has completed, they put
the messages on the connection whole and in order (`Disciplined`).
-/
namespace Zaza.ComposedWrite

/-- One direction of a connection. -/
structure Connection (β : Type) where
  /-- What writes were started with, oldest first. -/
  started : List (List β) := []
  /-- What is left of those that are outstanding, oldest first. -/
  outstanding : List (List β) := []
  wire : List β := []
  broken : Bool := false

namespace Connection

variable {β : Type} (c : Connection β)

/-- A write is started. -/
def asyncWrite (message : List β) : Connection β :=
  { c with started := c.started ++ [message], outstanding := c.outstanding ++ [message] }

/-- An outstanding write gets further. -/
def progress (i n : Nat) : Connection β :=
  if c.broken then c
  else match c.outstanding[i]? with
  | none => c
  | some left =>
    { c with outstanding := c.outstanding.set i (left.drop n), wire := c.wire ++ left.take n }

/-- An outstanding write completes, if nothing of it is left. -/
def complete (i : Nat) : Connection β :=
  match c.outstanding[i]? with
  | some [] => { c with outstanding := c.outstanding.eraseIdx i }
  | _ => c

/-- An outstanding write completes with an error. -/
def fail (i : Nat) : Connection β :=
  if i < c.outstanding.length then
    { c with outstanding := c.outstanding.eraseIdx i, broken := true }
  else c

/-- At most one write is outstanding. -/
def OneAtATime : Prop := c.outstanding.length ≤ 1

/-- What is on the connection is the messages in the order their writes were started in,
as far as they got. -/
def InOrder : Prop := c.wire <+: c.started.flatten

/-- One write at a time, and what is not on the connection yet is left of it. -/
structure Disciplined : Prop where
  one : c.OneAtATime
  inOrder : c.InOrder
  rest : c.broken = false → c.wire ++ c.outstanding.flatten = c.started.flatten

variable {c}

theorem disciplined_new : Disciplined ({} : Connection β) := by
  constructor <;> simp [OneAtATime, InOrder]

/-- What is outstanding when something is outstanding. -/
theorem Disciplined.single (disciplined : c.Disciplined) {i : Nat} {left : List β}
    (found : c.outstanding[i]? = some left) : i = 0 ∧ c.outstanding = [left] := by
  have inside := (List.getElem?_eq_some_iff.mp found).1
  have one : c.outstanding.length ≤ 1 := disciplined.one
  obtain rfl : i = 0 := by omega
  cases shape : c.outstanding with
  | nil => simp [shape] at found
  | cons only others =>
    rw [shape] at one found
    obtain rfl : others = [] := by simpa using one
    obtain rfl : only = left := by simpa using found
    exact ⟨rfl, rfl⟩

/-- A write may be started when none is outstanding, and only then. -/
theorem Disciplined.asyncWrite_iff (disciplined : c.Disciplined) (message : List β) :
    (c.asyncWrite message).Disciplined ↔ c.outstanding = [] := by
  constructor
  · intro after
    have one : (c.outstanding ++ [message]).length ≤ 1 := after.one
    rw [List.length_append, List.length_singleton] at one
    exact List.eq_nil_of_length_eq_zero (by omega)
  · intro none
    constructor
    · simp [OneAtATime, asyncWrite, none]
    · simp only [InOrder, asyncWrite, List.flatten_append]
      exact disciplined.inOrder.trans (List.prefix_append _ _)
    · intro whole
      have rest := disciplined.rest whole
      simpa [asyncWrite, none] using rest

theorem Disciplined.progress (disciplined : c.Disciplined) (i n : Nat) :
    (c.progress i n).Disciplined := by
  unfold Connection.progress
  split
  · exact disciplined
  rename_i whole
  cases found : c.outstanding[i]? with
  | none => exact disciplined
  | some left =>
    obtain ⟨rfl, only⟩ := disciplined.single found
    have rest := disciplined.rest (by simpa using whole)
    rw [only, List.flatten_singleton] at rest
    have moved : c.wire ++ left.take n ++ left.drop n = c.started.flatten := by
      rw [List.append_assoc, List.take_append_drop, rest]
    constructor
    · simp [OneAtATime, only]
    · exact ⟨left.drop n, moved⟩
    · simpa [only] using fun _ => moved

theorem Disciplined.complete (disciplined : c.Disciplined) (i : Nat) :
    (c.complete i).Disciplined := by
  unfold Connection.complete
  split
  · rename_i found
    obtain ⟨rfl, only⟩ := disciplined.single found
    refine ⟨by simp [OneAtATime, only], disciplined.inOrder, fun whole => ?_⟩
    simpa [only] using disciplined.rest whole
  · exact disciplined

theorem Disciplined.fail (disciplined : c.Disciplined) (i : Nat) : (c.fail i).Disciplined := by
  unfold Connection.fail
  split
  · refine ⟨?_, disciplined.inOrder, by simp⟩
    have one : c.outstanding.length ≤ 1 := disciplined.one
    have shorter := c.outstanding.length_eraseIdx_le i
    exact Nat.le_trans shorter one
  · exact disciplined

end Connection

end Zaza.ComposedWrite
