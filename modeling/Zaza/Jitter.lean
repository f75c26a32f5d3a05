import Zaza.Checked
import Zaza.Machine

/-!
`audio/jitter_buffer.hpp`: the samples that wait to be played.

Every member function takes the lock for all it does, so a call is one step.
`size_t` does not overflow: no position gets past the capacity, which has
thirty-two bits. The accesses are checked, and `clear` fills the whole vector.
-/
namespace Zaza

/-- What a caller hands over: a pointer to at least `count` samples. -/
structure Samples where
  data : List Int16
  count : Nat
  readable : count ≤ data.length

/-- `sample_rate_` is never read. -/
structure JitterBuffer where
  capacity : Nat
  buffer : List Int16
  writePos : Nat
  readPos : Nat
  available : Nat
  deriving DecidableEq

namespace JitterBuffer

/-- The constructor. The product wraps at thirty-two bits. -/
def new (capacityMs sampleRate : UInt32) : JitterBuffer where
  capacity := (capacityMs * sampleRate / 1000).toNat
  buffer := List.replicate (capacityMs * sampleRate / 1000).toNat 0
  writePos := 0
  readPos := 0
  available := 0

/-- The loop of `write`, with `left` iterations to go. -/
def writeLoop (data : List Int16) : (i left : Nat) → JitterBuffer → Except Trap JitterBuffer
  | _, 0, b => .ok b
  | i, left + 1, b =>
    if b.available < b.capacity then do
      let sample ← readAt data i
      let buffer ← writeAt b.buffer b.writePos sample
      let writePos ← modulo (b.writePos + 1) b.capacity
      writeLoop data (i + 1) left { b with buffer, writePos, available := b.available + 1 }
    else .ok b

def write (b : JitterBuffer) (input : Samples) : Except Trap JitterBuffer :=
  writeLoop input.data 0 input.count b

/-- The first loop of `read`: the samples it stores, in order. -/
def readLoop : (left : Nat) → JitterBuffer → Except Trap (List Int16 × JitterBuffer)
  | 0, b => .ok ([], b)
  | left + 1, b =>
    if b.available > 0 then do
      let sample ← readAt b.buffer b.readPos
      let readPos ← modulo (b.readPos + 1) b.capacity
      let (out, b) ← readLoop left { b with readPos, available := b.available - 1 }
      .ok (sample :: out, b)
    else .ok ([], b)

/-- What it returns, what `out` holds then, and the buffer. -/
def read (b : JitterBuffer) (count : Nat) : Except Trap (Nat × List Int16 × JitterBuffer) := do
  let (out, b) ← readLoop count b
  let silence := List.replicate (count - out.length) 0
  .ok (out.length + silence.length, out ++ silence, b)

def clear (b : JitterBuffer) : JitterBuffer :=
  { b with writePos := 0, readPos := 0, available := 0, buffer := b.buffer.map fun _ => 0 }

end JitterBuffer

inductive JitterCall where
  | write (input : Samples)
  | read (count : Nat)
  | available
  | clear

inductive JitterReply where
  | none
  /-- The result of `read`, and what it has stored. -/
  | samples (returned : Nat) (out : List Int16)
  | available (n : Nat)
  deriving DecidableEq

/-- A buffer, from its construction on. -/
def jitterMachine (capacityMs sampleRate : UInt32) :
    Machine JitterBuffer JitterCall JitterReply Trap where
  init := JitterBuffer.new capacityMs sampleRate
  step b call :=
    match call with
    | .write input => (b.write input).map (·, .none)
    | .read count => (b.read count).map fun (returned, out, b) => (b, .samples returned out)
    | .available => .ok (b, .available b.available)
    | .clear => .ok (b.clear, .none)

end Zaza
