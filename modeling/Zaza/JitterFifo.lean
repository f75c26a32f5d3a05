import Zaza.Jitter
import Zaza.Ring

/-!
The jitter buffer is a queue.

`fifoMachine` is what the buffer is for: a queue that takes no more than it has
room for, and answers with silence when it runs dry. The circular array of the
code holds that queue (`Holds`), from one call to the next, whatever the
capacity is; the loops are followed sample by sample.
-/
namespace Zaza.JitterFifo
open Zaza JitterBuffer

/-- A call of a bounded queue: what is queued then, and the reply. -/
def fifoStep (capacity : Nat) (queue : List Int16) : JitterCall → List Int16 × JitterReply
  | .write input =>
    (queue ++ (input.data.take input.count).take (capacity - queue.length), .none)
  | .read n =>
    (queue.drop n, .samples n (queue.take n ++ List.replicate (n - queue.length) 0))
  | .available => (queue, .available queue.length)
  | .clear => ([], .none)

/-- A queue of a capacity, empty at first. -/
def fifoMachine (capacity : Nat) : Machine (List Int16) JitterCall JitterReply Empty where
  init := []
  step queue call := .ok (fifoStep capacity queue call)

/-- The buffer of a capacity holds a queue. -/
structure Holds (capacity : Nat) (b : JitterBuffer) (queue : List Int16) : Prop where
  capacity_eq : b.capacity = capacity
  size : b.buffer.length = capacity
  circular : Circular b.buffer b.readPos b.writePos b.available queue

variable {capacity : Nat} {b : JitterBuffer} {queue : List Int16}

theorem Holds.available (holds : Holds capacity b queue) : b.available = queue.length :=
  holds.circular.length.symm

theorem Holds.fits (holds : Holds capacity b queue) : queue.length ≤ capacity := by
  rw [← holds.available, ← holds.size]
  exact holds.circular.fits

/-- A position is taken modulo the capacity. -/
theorem Holds.wraps (holds : Holds capacity b queue) (positive : 0 < capacity) (pos : Nat) :
    modulo pos b.capacity = .ok (pos % capacity) := by
  rw [holds.capacity_eq]
  exact modulo_of_pos positive

theorem holds_new (capacityMs sampleRate : UInt32) :
    Holds (capacityMs * sampleRate / 1000).toNat (new capacityMs sampleRate) [] where
  capacity_eq := rfl
  size := List.length_replicate
  circular := .empty _

theorem holds_clear (holds : Holds capacity b queue) : Holds capacity b.clear [] where
  capacity_eq := holds.capacity_eq
  size := by simpa [clear] using holds.size
  circular := .empty _

/-! ## The loops -/

/-- Writing stops at the capacity. -/
theorem writeLoop_holds (holds : Holds capacity b queue) (data : List Int16) (i left : Nat)
    (readable : i + left ≤ data.length) : ∃ b', writeLoop data i left b = .ok b' ∧
      Holds capacity b' (queue ++ ((data.drop i).take left).take (capacity - queue.length)) := by
  induction left generalizing i b queue with
  | zero => exact ⟨b, rfl, by simpa using holds⟩
  | succ left ih =>
    have present : i < data.length := by omega
    rw [writeLoop]
    by_cases room : b.available < b.capacity
    · rw [if_pos room]
      rw [holds.capacity_eq] at room
      obtain ⟨below, pushed⟩ := holds.circular.push (by rw [holds.size]; exact room) data[i]
      rw [holds.size] at pushed
      have next : Holds capacity
          { b with
            buffer := b.buffer.set b.writePos data[i], writePos := (b.writePos + 1) % capacity
            available := b.available + 1 } (queue ++ [data[i]]) :=
        ⟨holds.capacity_eq, by simpa using holds.size, pushed⟩
      obtain ⟨b', done, after⟩ := ih next (i + 1) (by omega)
      refine ⟨b', ?_, ?_⟩
      · rw [readAt_of_getElem? (List.getElem?_eq_getElem present), ok_bind,
          writeAt_of_lt below, ok_bind, holds.wraps (by omega), ok_bind]
        exact done
      · have count : capacity - queue.length = (capacity - (queue ++ [data[i]]).length) + 1 := by
          rw [← holds.available, List.length_append, ← holds.available, List.length_singleton]
          omega
        rw [List.drop_eq_getElem_cons present, List.take_succ_cons, count, List.take_succ_cons,
          List.append_cons]
        exact after
    · rw [if_neg room]
      have full : capacity - queue.length = 0 := by
        rw [← holds.available, ← holds.capacity_eq]
        omega
      exact ⟨b, rfl, by simpa [full] using holds⟩

/-- Reading takes from the front of the queue, until there is nothing. -/
theorem readLoop_holds (holds : Holds capacity b queue) (left : Nat) :
    ∃ b', readLoop left b = .ok (queue.take left, b') ∧ Holds capacity b' (queue.drop left) := by
  induction left generalizing b queue with
  | zero => exact ⟨b, rfl, by simpa using holds⟩
  | succ left ih =>
    rw [readLoop]
    by_cases some : b.available > 0
    · rw [if_pos some]
      obtain ⟨first, rest, rfl, found, popped⟩ := holds.circular.pop some
      have fits := holds.fits
      have positive : 0 < capacity := Nat.lt_of_lt_of_le (by simp) fits
      rw [holds.size] at popped
      have next : Holds capacity
          { b with readPos := (b.readPos + 1) % capacity, available := b.available - 1 } rest :=
        ⟨holds.capacity_eq, holds.size, popped⟩
      obtain ⟨b', done, after⟩ := ih next
      refine ⟨b', ?_, after⟩
      rw [readAt_of_getElem? found, ok_bind, holds.wraps positive, ok_bind, done, ok_bind,
        List.take_succ_cons]
    · rw [if_neg some]
      obtain rfl : queue = [] := by
        rw [← List.length_eq_zero_iff, ← holds.available]
        omega
      exact ⟨b, by simp, by simpa using holds⟩

/-! ## Every call, and every sequence of calls -/

/-- **One call**: the buffer replies as the queue does, and holds it afterwards. -/
theorem call_holds (capacityMs sampleRate : UInt32) (holds : Holds capacity b queue)
    (call : JitterCall) : ∃ b' queue' reply,
      (jitterMachine capacityMs sampleRate).step b call = .ok (b', reply) ∧
      (fifoMachine capacity).step queue call = .ok (queue', reply) ∧
      Holds capacity b' queue' := by
  cases call with
  | write input =>
    obtain ⟨b', done, after⟩ := writeLoop_holds holds input.data 0 input.count
      (by simpa using input.readable)
    refine ⟨b', _, .none, ?_, rfl, by simpa using after⟩
    simp [jitterMachine, write, done, Except.map]
  | read n =>
    obtain ⟨b', done, after⟩ := readLoop_holds holds n
    have total : (queue.take n).length + (n - (queue.take n).length) = n := by
      rw [List.length_take]
      omega
    have silence : n - (queue.take n).length = n - queue.length := by
      rw [List.length_take]
      omega
    refine ⟨b', _, _, ?_, rfl, after⟩
    simp only [jitterMachine, JitterBuffer.read, done, ok_bind, Except.map,
      List.length_replicate, total]
    rw [silence]
  | available => exact ⟨b, queue, _, by simp [jitterMachine, holds.available], rfl, holds⟩
  | clear => exact ⟨b.clear, [], .none, rfl, rfl, holds_clear holds⟩

/-- **The jitter buffer is a bounded queue**: for every capacity and every calls, nothing is
read or written outside the buffer, no remainder is taken by zero, and the replies are
those of the queue. -/
theorem jitterBuffer_is_fifo (capacityMs sampleRate : UInt32) (calls : List JitterCall) :
    let capacity := capacityMs.toNat * sampleRate.toNat % 4294967296 / 1000
    ∃ ts b steps queue,
      (jitterMachine capacityMs sampleRate).exec (new capacityMs sampleRate) calls = .ok (ts, b) ∧
      (fifoMachine capacity).exec [] calls = .ok (steps, queue) ∧
      ts.map Transition.output = steps.map Transition.output ∧
      b.buffer.length = capacity ∧ b.available = queue.length ∧ b.available ≤ capacity := by
  have capacity_eq : (capacityMs * sampleRate / 1000).toNat =
      capacityMs.toNat * sampleRate.toNat % 4294967296 / 1000 := by
    simp [UInt32.toNat_div, UInt32.toNat_mul]
  intro capacity
  obtain ⟨ts, b, steps, queue, done, done', same, holds⟩ := Machine.exec_simulates
    (Holds capacity) (fun _ _ call holds => call_holds capacityMs sampleRate holds call)
    (capacity_eq ▸ holds_new capacityMs sampleRate) calls
  exact ⟨ts, b, steps, queue, done, done', same, holds.size, holds.available,
    holds.available ▸ holds.fits⟩

end Zaza.JitterFifo
