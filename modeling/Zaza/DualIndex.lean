import Zaza.Cxx

/-!
Objects stored once and indexed by two hash maps, each under a key of its own.

`Indexed` says that one of the maps is in order: every pointer in it leads to
an object that stands there under its own key and that the other map finds
under its other key. Two maps that are `Indexed` by each other hold the same
objects. The three operations on such a store (add an object to both maps,
write to an object without touching its keys, remove it from both) keep it.
-/
namespace Zaza

variable {α κ κ' : Type} [DecidableEq κ] [DecidableEq κ'] {heap : List α} {key : α → κ}
  {otherKey : α → κ'} {table : UnorderedMap κ Nat} {other : UnorderedMap κ' Nat} {a a' : α}
  {p : Nat}

/-- Every entry of `table` is an object under its own key, known to `other`. -/
def Indexed (heap : List α) (key : α → κ) (table : UnorderedMap κ Nat) (otherKey : α → κ')
    (other : UnorderedMap κ' Nat) : Prop :=
  ∀ ⦃k p⦄, table.lookup k = some p →
    ∃ a, heap[p]? = some a ∧ key a = k ∧ other.lookup (otherKey a) = some p

theorem Indexed.empty : Indexed ([] : List α) key ∅ otherKey ∅ := by
  intro k p found
  simp at found

/-- Adding an object whose other key is unused. -/
theorem Indexed.add (indexed : Indexed heap key table otherKey other)
    (unused : other.lookup (otherKey a) = none) :
    Indexed (heap ++ [a]) key (table.insert (key a) heap.length) otherKey
      (other.insert (otherKey a) heap.length) := by
  intro k p found
  by_cases new : k = key a
  · subst new
    rw [AList.lookup_insert] at found
    obtain rfl := Option.some.inj found
    exact ⟨a, by simp, rfl, AList.lookup_insert _⟩
  · rw [AList.lookup_insert_ne new] at found
    obtain ⟨b, held, named, known⟩ := indexed found
    have apart : otherKey b ≠ otherKey a := by
      intro same
      rw [same, unused] at known
      simp at known
    have bound := (List.getElem?_eq_some_iff.mp held).1
    exact ⟨b, by rw [List.getElem?_append_left bound, held], named,
      by rw [AList.lookup_insert_ne apart, known]⟩

/-- Writing to an object that keeps both its keys. -/
theorem Indexed.set (indexed : Indexed heap key table otherKey other) (held : heap[p]? = some a)
    (sameKey : key a' = key a) (sameOther : otherKey a' = otherKey a) :
    Indexed (heap.set p a') key table otherKey other := by
  intro k q found
  obtain ⟨b, inside, named, known⟩ := indexed found
  by_cases same : q = p
  · subst same
    obtain rfl : a = b := by simpa [held] using inside
    have bound := (List.getElem?_eq_some_iff.mp held).1
    exact ⟨a', List.getElem?_set_self bound, by rw [sameKey, named], by rw [sameOther, known]⟩
  · exact ⟨b, by rw [List.getElem?_set_ne (Ne.symm same), inside], named, known⟩

/-- Removing an object from both maps. -/
theorem Indexed.remove (indexed : Indexed heap key table otherKey other)
    (found : table.lookup (key a) = some p) (held : heap[p]? = some a) :
    Indexed heap key (table.erase (key a)) otherKey (other.erase (otherKey a)) := by
  obtain ⟨b, inside, _, knownHere⟩ := indexed found
  obtain rfl : a = b := by simpa [held] using inside
  intro k q rest
  by_cases gone : k = key a
  · rw [gone, AList.lookup_erase] at rest
    simp at rest
  · rw [AList.lookup_erase_ne gone] at rest
    obtain ⟨b, inside', named, known⟩ := indexed rest
    -- Another entry under the removed object's other key would be that object.
    have apart : otherKey b ≠ otherKey a := by
      intro same
      rw [same, knownHere] at known
      obtain rfl := Option.some.inj known
      obtain rfl : a = b := by simpa [held] using inside'
      exact gone named.symm
    exact ⟨b, inside', named, by rw [AList.lookup_erase_ne apart, known]⟩

/-- In two maps indexed by each other, the same pointers are stored. -/
theorem Indexed.same_pointers (indexed : Indexed heap key table otherKey other)
    (back : Indexed heap otherKey other key table) (p : Nat) :
    (∃ k, table.lookup k = some p) ↔ ∃ k, other.lookup k = some p := by
  constructor
  · rintro ⟨k, found⟩
    obtain ⟨a, _, _, known⟩ := indexed found
    exact ⟨otherKey a, known⟩
  · rintro ⟨k, found⟩
    obtain ⟨a, _, _, known⟩ := back found
    exact ⟨key a, known⟩

end Zaza
