/-!
Mutexes that are not recursive, in the hands of one thread.

A mutex is a flag somewhere in the state. `lockGuard` runs a body with the flag set and
clears it at the end of the scope; when the flag is set already, the thread that would
have to clear it is the one that waits, and the call ends in a deadlock. Bodies nest, so
a body may take further mutexes.
-/
namespace Zaza

/-- Where a mutex is in a state. -/
structure Mutex (σ : Type) where
  locked : σ → Bool
  set : Bool → σ → σ

variable {σ ε : Type} {mutex : Mutex σ} {s : σ}

/-- `std::lock_guard` around a body. -/
def lockGuard (mutex : Mutex σ) (deadlock : ε) (body : σ → Except ε σ) (s : σ) : Except ε σ :=
  if mutex.locked s then .error deadlock
  else (body (mutex.set true s)).map (mutex.set false)

theorem lockGuard_held (deadlock : ε) (body : σ → Except ε σ) (held : mutex.locked s = true) :
    lockGuard mutex deadlock body s = .error deadlock := if_pos held

theorem lockGuard_free (deadlock : ε) (body : σ → Except ε σ) (free : mutex.locked s = false) :
    lockGuard mutex deadlock body s = (body (mutex.set true s)).map (mutex.set false) :=
  if_neg (by simp [free])

/-- A guard fails when its mutex is taken or when its body fails. -/
theorem lockGuard_error_iff {deadlock e : ε} {body : σ → Except ε σ}
    (free : mutex.locked s = false) :
    lockGuard mutex deadlock body s = .error e ↔ body (mutex.set true s) = .error e := by
  rw [lockGuard_free _ _ free]
  cases body (mutex.set true s) with
  | error e' => rfl
  | ok s' => simp [Except.map]

/-- What a guard leaves is what its body left, with the mutex released. -/
theorem lockGuard_ok {deadlock : ε} {body : σ → Except ε σ} {s' : σ}
    (done : lockGuard mutex deadlock body s = .ok s') :
    mutex.locked s = false ∧
      ∃ inside, body (mutex.set true s) = .ok inside ∧ s' = mutex.set false inside := by
  cases free : mutex.locked s with
  | true =>
    rw [lockGuard_held _ _ free] at done
    cases done
  | false =>
    rw [lockGuard_free _ _ free] at done
    cases ran : body (mutex.set true s) with
    | error e =>
      rw [ran] at done
      cases done
    | ok inside =>
      rw [ran] at done
      exact ⟨rfl, inside, rfl, (Except.ok.inj done).symm⟩

end Zaza
