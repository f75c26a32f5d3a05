import Mathlib.Data.List.GetD

/-!
Array accesses that are checked.

C++ says nothing about a program that reads or writes outside an array, or
takes a remainder by zero. Where that must not happen, a function is written
with the accesses below, which end with a `Trap` there. That it never traps is
then a fact about what it returns.
-/
namespace Zaza

/-- What a program must not do. -/
inductive Trap where
  | outOfBounds
  | moduloByZero
  /-- A loop did not end within the iterations it was given. -/
  | endless
  deriving DecidableEq

variable {α β ε : Type} {cells : List α} {i first last : Nat}

/-- `cells[i]`. -/
def readAt (cells : List α) (i : Nat) : Except Trap α :=
  match cells[i]? with
  | some x => .ok x
  | none => .error .outOfBounds

/-- `cells[i] = x`. -/
def writeAt (cells : List α) (i : Nat) (x : α) : Except Trap (List α) :=
  if i < cells.length then .ok (cells.set i x) else .error .outOfBounds

/-- A copy of `[cells + first, cells + last)`. -/
def readRange (cells : List α) (first last : Nat) : Except Trap (List α) :=
  if first ≤ last ∧ last ≤ cells.length then .ok ((cells.drop first).take (last - first))
  else .error .outOfBounds

/-- `[cells + first, cells + first + values.size())` overwritten. -/
def writeRange (cells : List α) (first : Nat) (values : List α) : Except Trap (List α) :=
  if first + values.length ≤ cells.length then
    .ok (cells.take first ++ values ++ cells.drop (first + values.length))
  else .error .outOfBounds

/-- `a % b`. -/
def modulo (a b : Nat) : Except Trap Nat := if b = 0 then .error .moduloByZero else .ok (a % b)

theorem readAt_of_getElem? (found : cells[i]? = some x) : readAt cells i = .ok x := by
  simp only [readAt, found]

theorem readAt_of_lt (inside : i < cells.length) (default : α) :
    readAt cells i = .ok (cells.getD i default) := by
  rw [List.getD_eq_getElem _ _ inside]
  exact readAt_of_getElem? (List.getElem?_eq_getElem inside)

theorem writeAt_of_lt (inside : i < cells.length) (x : α) :
    writeAt cells i x = .ok (cells.set i x) := if_pos inside

theorem readRange_of_le (ordered : first ≤ last) (inside : last ≤ cells.length) :
    readRange cells first last = .ok ((cells.drop first).take (last - first)) :=
  if_pos ⟨ordered, inside⟩

theorem writeRange_of_le (values : List α) (inside : first + values.length ≤ cells.length) :
    writeRange cells first values =
      .ok (cells.take first ++ values ++ cells.drop (first + values.length)) := if_pos inside

theorem modulo_of_pos {a b : Nat} (positive : 0 < b) : modulo a b = .ok (a % b) :=
  if_neg (by omega)

@[simp] theorem ok_bind (a : α) (rest : α → Except ε β) : (Except.ok a >>= rest) = rest a := rfl

end Zaza
