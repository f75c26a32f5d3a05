import Mathlib.Data.List.Rotate
import Mathlib.Data.Nat.ModEq

/-!
Queues in circular arrays.

A circular array holds a queue from its read position on, and goes on at its
start where it ends. `Circular` says which queue it holds; `Circular.push` and
`Circular.pop` are the rules for the two operations. An array without cells
holds the empty queue, and neither rule applies to it.
-/
namespace Zaza

/-- The queue that a circular array holds in `count` of its cells. -/
structure Circular (cells : List α) (readPos writePos count : Nat) (queue : List α) : Prop where
  held : queue = (cells.rotate readPos).take count
  fits : count ≤ cells.length
  reads : cells ≠ [] → readPos < cells.length
  writes : writePos = (readPos + count) % cells.length

variable {cells queue : List α} {readPos writePos count : Nat}

/-- Within one turn of the array, no cell is met twice. -/
theorem circular_index_ne {size i j : Nat} (start : Nat) (before : i < j) (turn : j < size) :
    (i + start) % size ≠ (start + j) % size := by
  intro same
  rw [Nat.add_comm start j] at same
  have offsets := Nat.ModEq.add_right_cancel' start same
  rw [Nat.ModEq, Nat.mod_eq_of_lt (by omega), Nat.mod_eq_of_lt turn] at offsets
  omega

namespace Circular

theorem length (circular : Circular cells readPos writePos count queue) : queue.length = count := by
  rw [circular.held, List.length_take, List.length_rotate]
  exact Nat.min_eq_left circular.fits

/-- An array that is not in use holds nothing. -/
theorem empty (cells : List α) : Circular cells 0 0 0 [] where
  held := by simp
  fits := Nat.zero_le _
  reads := List.length_pos_iff.mpr
  writes := by simp

/-- A write to the next free cell appends to the queue. -/
theorem push (circular : Circular cells readPos writePos count queue) (room : count < cells.length)
    (x : α) : writePos < cells.length ∧ Circular (cells.set writePos x) readPos
      ((writePos + 1) % cells.length) (count + 1) (queue ++ [x]) := by
  have below : writePos < cells.length := by
    rw [circular.writes]
    exact Nat.mod_lt _ (by omega)
  refine ⟨below, ?_, ?_, ?_, ?_⟩
  · rw [circular.held]
    apply List.ext_getElem
    · simp only [List.length_append, List.length_take, List.length_rotate, List.length_set,
        List.length_singleton]
      omega
    · intro i inside _
      simp only [List.length_append, List.length_take, List.length_rotate,
        List.length_singleton] at inside
      simp only [List.getElem_take, List.getElem_rotate, List.length_set]
      by_cases old : i < count
      · -- A queued element stays where it is.
        have other := circular_index_ne readPos old room
        rw [List.getElem_append_left (by simp; omega), List.getElem_take, List.getElem_rotate,
          List.getElem_set_ne (by rw [circular.writes]; exact other.symm)]
      · obtain rfl : i = count := by omega
        have here : (i + readPos) % cells.length = writePos := by
          rw [circular.writes, Nat.add_comm]
        rw [List.getElem_append_right (by simp)]
        simp [here]
  · rw [List.length_set]
    exact room
  · intro _
    rw [List.length_set]
    exact circular.reads (List.length_pos_iff.mp (by omega))
  · rw [List.length_set, circular.writes, Nat.mod_add_mod, Nat.add_assoc]

/-- The cell at the read position is the first in the queue. -/
theorem pop (circular : Circular cells readPos writePos count queue) (some : 0 < count) :
    ∃ first rest, queue = first :: rest ∧ cells[readPos]? = .some first ∧
      Circular cells ((readPos + 1) % cells.length) writePos (count - 1) rest := by
  have fits := circular.fits
  have inside : readPos < cells.length := circular.reads (List.length_pos_iff.mp (by omega))
  refine ⟨cells[readPos], (cells.rotate (readPos + 1)).take (count - 1), ?_,
    List.getElem?_eq_getElem inside, ?_, ?_, ?_, ?_⟩
  · rw [circular.held]
    apply List.ext_getElem
    · simp only [List.length_cons, List.length_take, List.length_rotate]
      omega
    · intro i _ _
      cases i with
      | zero => simp [List.getElem_rotate, Nat.mod_eq_of_lt inside]
      | succ i =>
        simp only [List.getElem_take, List.getElem_rotate, List.getElem_cons_succ]
        congr 2
        omega
  · rw [List.rotate_mod]
  · omega
  · intro _
    exact Nat.mod_lt _ (by omega)
  · rw [circular.writes, Nat.mod_add_mod]
    congr 1
    omega

end Circular

end Zaza
