import Mathlib.Data.List.AList
import Mathlib.Data.Set.Basic

/-!
Tables whose entries do not share members.

Each value of the table has a set of members; `Exclusive` says that nobody is a
member of two entries. `Exclusive.step` is the rule for keeping it: entries may
be erased, swept or rewritten in place as long as they get no further members,
and one entry may be added whose members are in no other.
-/
namespace Zaza

variable {κ ν υ : Type} [DecidableEq κ]

/-- Nobody is a member of two entries. -/
def Exclusive (members : ν → Set υ) (m : AList fun _ : κ => ν) : Prop :=
  ∀ k v k' v' u, m.lookup k = some v → m.lookup k' = some v' → u ∈ members v → u ∈ members v' →
    k = k'

variable {members : ν → Set υ} {m m' : AList fun _ : κ => ν}

theorem Exclusive.empty : Exclusive members (∅ : AList fun _ : κ => ν) := by
  intro k v k' v' u found
  simp at found

/-- A table keeps being exclusive when each of its entries had its members before,
or is the one new entry and takes its members from nobody. -/
theorem Exclusive.step (exclusive : Exclusive members m) (New : κ → ν → Prop)
    (one : ∀ k v k' v', New k v → New k' v' → k = k')
    (free : ∀ k v u, New k v → u ∈ members v → ∀ k' v', m.lookup k' = some v' → u ∉ members v')
    (origin : ∀ k v', m'.lookup k = some v' →
      New k v' ∨ ∃ v, m.lookup k = some v ∧ members v' ⊆ members v) :
    Exclusive members m' := by
  intro k v k' v' u found found' inside inside'
  rcases origin k v found with new | ⟨w, held, fewer⟩ <;>
    rcases origin k' v' found' with new' | ⟨w', held', fewer'⟩
  · exact one k v k' v' new new'
  · exact absurd (fewer' inside') (free k v u new inside k' w' held')
  · exact absurd (fewer inside) (free k' v' u new' inside' k w held)
  · exact exclusive k w k' w' u held held' (fewer inside) (fewer' inside')

end Zaza
