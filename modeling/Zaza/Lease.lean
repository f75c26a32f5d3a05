import Mathlib.Data.List.AList
import Mathlib.Data.List.Induction
import Mathlib.Order.Lattice

/-!
Keys that are granted until a deadline, may be revoked, and may be forgotten.

What a key is worth is said by a history: a list of anything, of which `event`
tells what it does to which key. `deadline` reads the history; `live_iff` says when
a key is live in terms of what is in the history and in which order. A table
`Tracks` a history when it holds the same deadlines, up to those that have passed:
granting, revoking and the passing of time keep it so, and so does forgetting what
is not live any more.
-/
namespace Zaza.Lease

inductive Event (κ τ : Type) where
  | grant (k : κ) (deadline : τ)
  | revoke (k : κ)

variable {α κ τ : Type} (event : α → Option (Event κ τ)) {k : κ} {h : List α}

/-- The history grants a key until a time. -/
def Granted (k : κ) (e : τ) (h : List α) : Prop := ∃ x ∈ h, event x = some (.grant k e)

/-- The key is revoked after its last grant. -/
def RevokedSince (k : κ) (h : List α) : Prop :=
  ∃ before x after, h = before ++ x :: after ∧ event x = some (.revoke k) ∧
    ∀ y ∈ after, ∀ e, event y ≠ some (.grant k e)

variable {event}

theorem granted_snoc {e : τ} {x : α} :
    Granted event k e (h ++ [x]) ↔ Granted event k e h ∨ event x = some (.grant k e) := by
  simp [Granted, or_and_right, exists_or]

/-- A revocation stays one as long as the key is not granted again. -/
theorem revokedSince_snoc {x : α} : RevokedSince event k (h ++ [x]) ↔
    event x = some (.revoke k) ∨
      RevokedSince event k h ∧ ∀ e, event x ≠ some (.grant k e) := by
  constructor
  · rintro ⟨before, y, after, split, revokes, ungranted⟩
    rcases List.eq_nil_or_concat after with rfl | ⟨after, z, rfl⟩
    · obtain ⟨-, rfl⟩ := List.append_singleton_inj.mp split
      exact .inl revokes
    · rw [List.concat_eq_append, ← List.cons_append, ← List.append_assoc] at split
      obtain ⟨rfl, rfl⟩ := List.append_singleton_inj.mp split
      refine .inr ⟨⟨before, y, after, rfl, revokes, fun z member => ?_⟩, ?_⟩
      · exact ungranted z (by simp [member])
      · exact ungranted x (by simp)
  · rintro (revokes | ⟨⟨before, y, after, rfl, revokes, ungranted⟩, ungranted'⟩)
    · exact ⟨h, x, [], rfl, revokes, by simp⟩
    · refine ⟨before, y, after ++ [x], by simp, revokes, fun z member => ?_⟩
      rcases List.mem_append.mp member with inside | last
      · exact ungranted z inside
      · rw [List.mem_singleton.mp last]
        exact ungranted'

variable [DecidableEq κ] (event)

/-- What one entry of the history makes of the deadline of a key. -/
def next (k : κ) (deadline : Option τ) (x : α) : Option τ :=
  match event x with
  | some (.grant k' e) => if k' = k then some e else deadline
  | some (.revoke k') => if k' = k then none else deadline
  | none => deadline

/-- Until when a key is granted, by its last grant unless it was revoked since. -/
def deadline (k : κ) (h : List α) : Option τ := h.foldl (next event k) none

variable {event}

@[simp] theorem deadline_nil : deadline event k [] = none := rfl

@[simp] theorem deadline_snoc (x : α) :
    deadline event k (h ++ [x]) = next event k (deadline event k h) x := by
  simp [deadline]

theorem next_grant {x : α} {e : τ} (grants : event x = some (.grant k e)) (d : Option τ) :
    next event k d x = some e := by
  simp [next, grants]

theorem next_revoke {x : α} (revokes : event x = some (.revoke k)) (d : Option τ) :
    next event k d x = none := by
  simp [next, revokes]

/-- What is about no key or another one. -/
theorem next_other {x : α} (noGrant : ∀ e, event x ≠ some (.grant k e))
    (noRevoke : event x ≠ some (.revoke k)) (d : Option τ) : next event k d x = d := by
  unfold next
  split
  · rename_i k' e about
    split
    · subst_vars
      exact absurd about (noGrant e)
    · rfl
  · rename_i k' about
    split
    · subst_vars
      exact absurd about noRevoke
    · rfl
  · rfl

/-- A key has no deadline when it was never granted, or revoked since. -/
theorem deadline_eq_none_iff : deadline event k h = none ↔
    (∀ e, ¬ Granted event k e h) ∨ RevokedSince event k h := by
  induction h using List.reverseRecOn with
  | nil => simp [Granted]
  | append_singleton h x ih =>
    simp only [deadline_snoc, granted_snoc, revokedSince_snoc, not_or]
    by_cases grants : ∃ e, event x = some (.grant k e)
    · obtain ⟨e, grants⟩ := grants
      refine iff_of_false (by simp [next_grant grants]) ?_
      rintro (never | revokes | ⟨-, ungranted⟩)
      · exact (never e).2 grants
      · simp [grants] at revokes
      · exact ungranted e grants
    · have noGrant := not_exists.mp grants
      by_cases revokes : event x = some (.revoke k)
      · simp [next_revoke revokes, revokes]
      · simp [next_other noGrant revokes, noGrant, revokes, ih]

theorem granted_of_deadline {e : τ} (held : deadline event k h = some e) :
    Granted event k e h := by
  induction h using List.reverseRecOn with
  | nil => simp at held
  | append_singleton h x ih =>
    rw [deadline_snoc] at held
    rw [granted_snoc]
    by_cases grants : ∃ e, event x = some (.grant k e)
    · obtain ⟨e', grants⟩ := grants
      rw [next_grant grants] at held
      obtain rfl := Option.some.inj held
      exact .inr grants
    · have noGrant := not_exists.mp grants
      by_cases revokes : event x = some (.revoke k)
      · simp [next_revoke revokes] at held
      · rw [next_other noGrant revokes] at held
        exact .inl (ih held)

/-- Entries of which nothing is seen can be left out. -/
theorem deadline_filterMap {β : Type} (seen : β → Option α) (h : List β) :
    deadline event k (h.filterMap seen) = deadline (fun x => (seen x).bind event) k h := by
  induction h using List.reverseRecOn with
  | nil => rfl
  | append_singleton h x ih =>
    rw [List.filterMap_append, deadline_snoc, ← ih]
    cases visible : seen x with
    | none => simp [visible, next]
    | some y => simp [visible, next]

/-! ## Time -/

variable [LinearOrder τ] {now : τ}

/-- Later grants of a key do not end earlier. -/
def Ordered (event : α → Option (Event κ τ)) (h : List α) : Prop :=
  h.Pairwise fun x y => ∀ k e e', event x = some (.grant k e) →
    event y = some (.grant k e') → e ≤ e'

theorem le_deadline {e e' : τ} (ordered : Ordered event h) (granted : Granted event k e h)
    (held : deadline event k h = some e') : e ≤ e' := by
  induction h using List.reverseRecOn with
  | nil => simp at held
  | append_singleton h x ih =>
    obtain ⟨before, -, last⟩ := List.pairwise_append.mp ordered
    rw [deadline_snoc] at held
    by_cases grants : ∃ e, event x = some (.grant k e)
    · obtain ⟨e'', grants⟩ := grants
      rw [next_grant grants] at held
      obtain rfl := Option.some.inj held
      rcases granted_snoc.mp granted with ⟨y, member, grants'⟩ | grants'
      · exact last y member x (List.mem_singleton_self x) k e e'' grants' grants
      · obtain ⟨-, rfl⟩ := Event.grant.inj (Option.some.inj (grants'.symm.trans grants))
        exact le_rfl
    · have noGrant := not_exists.mp grants
      have granted := (granted_snoc.mp granted).resolve_right (noGrant e)
      by_cases revokes : event x = some (.revoke k)
      · simp [next_revoke revokes] at held
      · rw [next_other noGrant revokes] at held
        exact ih before granted held

/-- **When a key is live**: some grant has not run out, and it has not been revoked
since the last. -/
theorem live_iff (ordered : Ordered event h) :
    (∃ e, deadline event k h = some e ∧ now < e) ↔
      (∃ e, Granted event k e h ∧ now < e) ∧ ¬ RevokedSince event k h := by
  constructor
  · rintro ⟨e, held, early⟩
    refine ⟨⟨e, granted_of_deadline held, early⟩, fun revoked => ?_⟩
    have none := deadline_eq_none_iff.mpr (.inr revoked)
    simp [held] at none
  · rintro ⟨⟨e, granted, early⟩, unrevoked⟩
    cases held : deadline event k h with
    | none =>
      rcases deadline_eq_none_iff.mp held with never | revoked
      · exact absurd granted (never e)
      · exact absurd revoked unrevoked
    | some e' => exact ⟨e', rfl, lt_of_lt_of_le early (le_deadline ordered granted held)⟩

/-- The table holds the deadlines of the history, up to those that have passed. -/
def Tracks (event : α → Option (Event κ τ)) (now : τ) (m : AList fun _ : κ => τ)
    (h : List α) : Prop :=
  ∀ k e, now < e → (m.lookup k = some e ↔ deadline event k h = some e)

namespace Tracks

variable {m : AList fun _ : κ => τ} {x : α}

theorem empty : Tracks event now ∅ [] := by
  intro k e _
  simp

theorem later {now' : τ} (tracks : Tracks event now m h) (passes : now ≤ now') :
    Tracks event now' m h :=
  fun k e early => tracks k e (lt_of_le_of_lt passes early)

theorem grant {e : τ} (tracks : Tracks event now m h) (grants : event x = some (.grant k e)) :
    Tracks event now (m.insert k e) (h ++ [x]) := by
  intro k' e' early
  rw [deadline_snoc]
  by_cases mine : k' = k
  · subst mine
    simp [next_grant grants]
  · rw [AList.lookup_insert_ne mine, next_other (by simp [grants, Ne.symm mine])
      (by simp [grants])]
    exact tracks k' e' early

theorem revoke (tracks : Tracks event now m h) (revokes : event x = some (.revoke k)) :
    Tracks event now (m.erase k) (h ++ [x]) := by
  intro k' e' early
  rw [deadline_snoc]
  by_cases mine : k' = k
  · subst mine
    simp [next_revoke revokes]
  · rw [AList.lookup_erase_ne mine, next_other (by simp [revokes])
      (by simp [revokes, Ne.symm mine])]
    exact tracks k' e' early

/-- What is about no key changes nothing. -/
theorem quiet (tracks : Tracks event now m h) (nothing : event x = none) :
    Tracks event now m (h ++ [x]) := by
  intro k e early
  rw [deadline_snoc, next_other (by simp [nothing]) (by simp [nothing])]
  exact tracks k e early

/-- What is not live any more may be forgotten. -/
theorem sweep {m' : AList fun _ : κ => τ} (tracks : Tracks event now m h)
    (swept : ∀ k, m'.lookup k = (m.lookup k).filter fun e => now < e) :
    Tracks event now m' h := by
  intro k e early
  rw [← tracks k e early, swept, Option.filter_eq_some_iff]
  simp [early]

/-- A key is live in the table when it is in the history. -/
theorem live (tracks : Tracks event now m h) :
    (∃ e, m.lookup k = some e ∧ now < e) ↔ ∃ e, deadline event k h = some e ∧ now < e := by
  constructor
  · rintro ⟨e, held, early⟩
    exact ⟨e, (tracks k e early).mp held, early⟩
  · rintro ⟨e, held, early⟩
    exact ⟨e, (tracks k e early).mpr held, early⟩

end Tracks

end Zaza.Lease
