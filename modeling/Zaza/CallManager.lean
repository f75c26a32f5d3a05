import Zaza.Cxx
import Zaza.Machine

/-!
The calls the backend knows of: `backend/calls/call_manager.cpp`.

Every method holds the mutex from its first line to its last, so it is one step.
A method that may throw returns what it returns or the text of the
`std::runtime_error`, and in both cases the manager it leaves behind.
-/
namespace Zaza

inductive CallState where
  | ringing
  | active
  | ended
  deriving DecidableEq

structure CallSession where
  callId : Bytes
  callerId : Bytes
  calleeId : Bytes
  state : CallState
  /-- Nanoseconds of the steady clock. -/
  createdAt : Int
  deriving DecidableEq

/-- What one call of the backend reads from its surroundings. -/
structure BackendEnv where
  /-- `steady_clock::now()`, in nanoseconds. -/
  now : Int
  /-- `system_clock::now()` in seconds, at its successive readings. -/
  wall : Nat → Int
  /-- The two numbers `generateUuid` draws. -/
  draws : UInt64 × UInt64
  order : IterOrder

structure CallManager where
  /-- `ring_timeout_`, in seconds. -/
  ringTimeout : Int
  sessions : UnorderedMap Bytes CallSession

namespace CallManager

def new (ringTimeout : Int) : CallManager := ⟨ringTimeout, ∅⟩

/-- `std::hex << std::setw(width)` with leading zeros. -/
def hexField (width : Nat) (v : UInt64) : Bytes :=
  (List.range width).reverse.map fun i => hexDigit ((v >>> (4 * i).toUInt64) &&& 0xF).toUInt8

def generateUuid (draws : UInt64 × UInt64) : Bytes :=
  let a := (draws.1 &&& 0xFFFFFFFFFFFF0FFF) ||| 0x0000000000004000
  let b := (draws.2 &&& 0x3FFFFFFFFFFFFFFF) ||| 0x8000000000000000
  List.intercalate (ascii "-") [hexField 8 ((a >>> 32) &&& 0xFFFFFFFF),
    hexField 4 ((a >>> 16) &&& 0xFFFF), hexField 4 (a &&& 0xFFFF),
    hexField 4 ((b >>> 48) &&& 0xFFFF), hexField 12 (b &&& 0xFFFFFFFFFFFF)]

/-- The loop stops at the first hit, so its order is immaterial. -/
def isBusy (m : CallManager) (userId : Bytes) : Bool :=
  m.sessions.entries.any fun entry =>
    entry.2.state ≠ .ended ∧ (entry.2.callerId = userId ∨ entry.2.calleeId = userId)

/-- `sessions_[callId] = s`. -/
def put (m : CallManager) (s : CallSession) (callId : Bytes) : CallManager :=
  { m with sessions := m.sessions.insert callId s }

/-- `sessions_.erase(it)`. -/
def drop (m : CallManager) (callId : Bytes) : CallManager :=
  { m with sessions := m.sessions.erase callId }

def create (env : BackendEnv) (m : CallManager) (callerId calleeId : Bytes) :
    Except Bytes Bytes × CallManager :=
  if m.isBusy callerId then (.error (ascii "caller is busy"), m)
  else if m.isBusy calleeId then (.error (ascii "callee is busy"), m)
  else
    let callId := generateUuid env.draws
    (.ok callId, m.put ⟨callId, callerId, calleeId, .ringing, env.now⟩ callId)

/-- The three checks `accept` and `reject` make. -/
def ringingFor (m : CallManager) (callId calleeId : Bytes) : Except Bytes CallSession :=
  match m.sessions.lookup callId with
  | none => .error (ascii "call not found: " ++ callId)
  | some s =>
    if s.calleeId ≠ calleeId then .error (ascii "wrong callee")
    else if s.state ≠ .ringing then .error (ascii "call not ringing")
    else .ok s

def accept (m : CallManager) (callId calleeId : Bytes) : Except Bytes CallSession × CallManager :=
  match m.ringingFor callId calleeId with
  | .error e => (.error e, m)
  | .ok s => (.ok { s with state := .active }, m.put { s with state := .active } callId)

def reject (m : CallManager) (callId calleeId : Bytes) : Except Bytes CallSession × CallManager :=
  match m.ringingFor callId calleeId with
  | .error e => (.error e, m)
  | .ok s =>
    (.ok { s with state := .ended }, (m.put { s with state := .ended } callId).drop callId)

def hangup (m : CallManager) (callId userId : Bytes) : Except Bytes CallSession × CallManager :=
  match m.sessions.lookup callId with
  | none => (.error (ascii "call not found: " ++ callId), m)
  | some s =>
    if s.callerId ≠ userId ∧ s.calleeId ≠ userId then (.error (ascii "user not in call"), m)
    else (.ok { s with state := .ended }, (m.put { s with state := .ended } callId).drop callId)

def find (m : CallManager) (callId : Bytes) : Option CallSession := m.sessions.lookup callId

/-- The condition `expireRinging` ends a call on. -/
def overdue (m : CallManager) (now : Int) (s : CallSession) : Bool :=
  s.state = .ringing ∧ now - s.createdAt > m.ringTimeout * 1000000000

/-- The `for` loop of `expireRinging` over the entries from the iterator on, with
`expired`. Erasing an entry does not move the others. -/
def expireLoop (now : Int) : List (Bytes × CallSession) → CallManager → List CallSession →
    List CallSession × CallManager
  | [], m, expired => (expired, m)
  | (callId, s) :: rest, m, expired =>
    if m.overdue now s then
      expireLoop now rest ((m.put { s with state := .ended } callId).drop callId)
        (expired ++ [{ s with state := .ended }])
    else expireLoop now rest m expired

def expireRinging (env : BackendEnv) (m : CallManager) : List CallSession × CallManager :=
  expireLoop env.now (m.sessions.iterate env.order) m []

end CallManager

/-! ## Any sequence of calls -/

/-- A call of one of the methods that change the sessions. -/
inductive CallOp where
  | create (callerId calleeId : Bytes)
  | accept (callId calleeId : Bytes)
  | reject (callId calleeId : Bytes)
  | hangup (callId userId : Bytes)
  | expireRinging

/-- What such a call returns. -/
inductive CallReply where
  | callId (id : Bytes)
  | session (s : CallSession)
  | expired (sessions : List CallSession)

/-- The method an operation stands for. -/
def CallManager.call (env : BackendEnv) (m : CallManager) :
    CallOp → Except Bytes CallReply × CallManager
  | .create callerId calleeId => (m.create env callerId calleeId).map (·.map .callId) id
  | .accept callId calleeId => (m.accept callId calleeId).map (·.map .session) id
  | .reject callId calleeId => (m.reject callId calleeId).map (·.map .session) id
  | .hangup callId userId => (m.hangup callId userId).map (·.map .session) id
  | .expireRinging => (m.expireRinging env).map (.ok ∘ .expired) id

/-- A manager as constructed, called in any way at any time. -/
def callMachine (ringTimeout : Int) :
    Machine CallManager (CallOp × BackendEnv) (Except Bytes CallReply) Empty where
  init := CallManager.new ringTimeout
  step m input :=
    let (reply, m') := m.call input.2 input.1
    .ok (m', reply)

end Zaza
