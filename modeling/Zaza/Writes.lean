import Zaza.CallLife
import Zaza.Client
import Zaza.ComposedWrite
import Zaza.WsServer

/-!
The writes of the three kinds of sessions.

`WsSession::do_send`, `TcpSession::send` and `TlsSession::send` start a composed write
at once, whatever is outstanding: there is no queue, and nobody locks `send_mutex_`.
They are called by the router, by the expiry timer and by the dispatcher, at any time;
the writes complete at any time. So whether a session has one write outstanding at a
time is up to its callers.
-/
namespace Zaza.Writes
open Zaza CallManager CallInvariant CallLife ComposedWrite

/-- The write side of a session. The text of a WebSocket message stands for its frames,
and that of a TLS message for its records. -/
abbrev Stream := Connection UInt8

def WsSession.doSend (stream : Stream) (message : Bytes) : Stream := stream.asyncWrite message

def WsSession.send (stream : Stream) (message : Bytes) : Stream := WsSession.doSend stream message

def TcpSession.send (stream : Stream) (data : Bytes) : Stream := stream.asyncWrite data

def TlsSession.send (stream : Stream) (data : Bytes) : Stream := stream.asyncWrite data

inductive SessionClass where
  | ws
  | tcp
  | tls

structure Session where
  kind : SessionClass
  stream : Stream := {}

def Session.send (s : Session) (message : Bytes) : Session :=
  { s with stream := match s.kind with
    | .ws => WsSession.send s.stream message
    | .tcp => TcpSession.send s.stream message
    | .tls => TlsSession.send s.stream message }

/-- What happens to the sessions, which are known by their numbers: one is opened, `send`
is called, and a write that is outstanding gets further or completes. -/
inductive WriteInput where
  | opens (kind : SessionClass)
  | send (k : Nat) (message : Bytes)
  | progress (k i n : Nat)
  | completes (k i : Nat)
  | fails (k i : Nat)

/-- Something happens to the stream of a session. -/
def onStream (sessions : List Session) (k : Nat) (f : Stream → Stream) : List Session :=
  sessions.modify k fun s => { s with stream := f s.stream }

def writeStep (sessions : List Session) : WriteInput → List Session
  | .opens kind => sessions ++ [{ kind }]
  | .send k message => sessions.modify k fun s => s.send message
  | .progress k i n => onStream sessions k fun stream => stream.progress i n
  | .completes k i => onStream sessions k fun stream => stream.complete i
  | .fails k i => onStream sessions k fun stream => stream.fail i

def writeMachine : Machine (List Session) WriteInput Unit Empty where
  init := []
  step sessions input := .ok (writeStep sessions input, ())

abbrev Step := Transition (List Session) WriteInput Unit

/-- Every session has at most one write outstanding and puts its messages on the connection
in the order of `send`. -/
def OneWriteEach (sessions : List Session) : Prop :=
  ∀ s ∈ sessions, s.stream.OneAtATime ∧ s.stream.InOrder

/-- `send` is called on a session only when all its earlier writes have completed. -/
def SendsWhenDone (t : Step) : Prop :=
  ∀ k message, t.input = .send k message → ∀ s ∈ t.before[k]?, s.stream.outstanding = []

/-! ## One step -/

variable {sessions : List Session} {t : Step} {ts : List Step}

theorem send_stream (s : Session) (message : Bytes) :
    (s.send message).stream = s.stream.asyncWrite message := by
  unfold Session.send
  cases s.kind <;> rfl

def AllDisciplined (sessions : List Session) : Prop := ∀ s ∈ sessions, s.stream.Disciplined

theorem forall_modify {P : Session → Prop} {f : Session → Session} {k : Nat}
    (all : ∀ s ∈ sessions, P s) (changed : ∀ s, sessions[k]? = some s → P (f s)) :
    ∀ s ∈ sessions.modify k f, P s := by
  intro s member
  obtain ⟨j, found⟩ := List.mem_iff_getElem?.mp member
  rw [List.getElem?_modify] at found
  split at found
  · rename_i same
    subst same
    obtain ⟨s', held, rfl⟩ := Option.map_eq_some_iff.mp found
    exact changed s' held
  · obtain ⟨s', held, rfl⟩ := Option.map_eq_some_iff.mp found
    exact all s' (List.mem_of_getElem? held)

theorem AllDisciplined.onStream {k : Nat} {f : Stream → Stream}
    (all : AllDisciplined sessions)
    (keeps : ∀ stream : Stream, stream.Disciplined → (f stream).Disciplined) :
    AllDisciplined (Writes.onStream sessions k f) :=
  forall_modify all fun s held => keeps s.stream (all s (List.mem_of_getElem? held))

/-- **One step keeps the discipline**, if it sends only when nothing is outstanding. -/
theorem AllDisciplined.preserved (all : AllDisciplined t.before)
    (taken : writeMachine.Takes t) (sends : SendsWhenDone t) : AllDisciplined t.after := by
  have after : writeStep t.before t.input = t.after := congrArg Prod.fst (Except.ok.inj taken)
  rw [← after]
  cases input : t.input with
  | opens kind =>
    intro s member
    rcases List.mem_append.mp member with old | new
    · exact all s old
    · rw [List.mem_singleton.mp new]
      exact Connection.disciplined_new
  | send k message =>
    refine forall_modify all fun s held => ?_
    have done := sends k message input s held
    rw [send_stream]
    exact ((all s (List.mem_of_getElem? held)).asyncWrite_iff message).mpr done
  | progress k i n => exact all.onStream fun _ disciplined => disciplined.progress i n
  | completes k i => exact all.onStream fun _ disciplined => disciplined.complete i
  | fails k i => exact all.onStream fun _ disciplined => disciplined.fail i

/-- A `send` before the last write has completed makes two. -/
theorem sendsWhenDone_of_one (taken : writeMachine.Takes t) (one : OneWriteEach t.after) :
    SendsWhenDone t := by
  intro k message input s held
  have after : writeStep t.before t.input = t.after := congrArg Prod.fst (Except.ok.inj taken)
  rw [input] at after
  have sent : t.after[k]? = some (s.send message) := by
    have held : t.before[k]? = some s := held
    rw [← after]
    simp [writeStep, held]
  have single : (s.send message).stream.outstanding.length ≤ 1 :=
    (one _ (List.mem_of_getElem? sent)).1
  rw [send_stream] at single
  simp only [Connection.asyncWrite, List.length_append, List.length_singleton] at single
  exact List.eq_nil_of_length_eq_zero (by omega)

/-! ## Every run -/

/-- **One write at a time**: along a run every session has at most one write outstanding
and keeps its messages in order, exactly if `send` is never called on a session before
all its earlier writes have completed. -/
theorem one_write_iff (run : Run writeMachine ts sessions) :
    (∀ earlier s', earlier <+: ts → Run writeMachine earlier s' → OneWriteEach s') ↔
      ∀ t ∈ ts, SendsWhenDone t := by
  constructor
  · intro one t member
    obtain ⟨earlier, before, inside, taken⟩ := run.history member
    exact sendsWhenDone_of_one taken (one _ t.after inside (before.step taken))
  · intro sends earlier s' inside early s member
    have disciplined : AllDisciplined s' := by
      have initial : AllDisciplined writeMachine.init := by simp [AllDisciplined, writeMachine]
      exact early.invariant_when AllDisciplined SendsWhenDone initial
        (fun t all taken => all.preserved taken) fun t member => sends t (inside.subset member)
    exact ⟨(disciplined s member).one, (disciplined s member).inOrder⟩

instance (t : Step) : Decidable (SendsWhenDone t) :=
  match input : t.input with
  | .send k _ =>
    decidable_of_iff (∀ s ∈ t.before[k]?, s.stream.outstanding = []) <| by
      simp [SendsWhenDone, input]
  | .opens _ => isTrue (by simp [SendsWhenDone, input])
  | .progress _ _ _ => isTrue (by simp [SendsWhenDone, input])
  | .completes _ _ => isTrue (by simp [SendsWhenDone, input])
  | .fails _ _ => isTrue (by simp [SendsWhenDone, input])

/-- Two messages, the second after the first is through. -/
theorem one_write_iff_in_turn : ∃ ts sessions, Run writeMachine ts sessions ∧
    (sessions.map fun s => s.stream.started) = [[ascii "one", ascii "two"]] ∧
    ∀ earlier s', earlier <+: ts → Run writeMachine earlier s' → OneWriteEach s' := by
  obtain ⟨ts, sessions, run, check⟩ := Run.of_exec writeMachine
    [.opens .ws, .send 0 (ascii "one"), .progress 0 0 3, .completes 0 0, .send 0 (ascii "two")]
    (fun ts sessions => (sessions.map fun s => s.stream.started) = [[ascii "one", ascii "two"]] ∧
      ∀ t ∈ ts, SendsWhenDone t) (by decide +kernel)
  obtain ⟨started, inTurn⟩ := of_decide_eq_true check
  exact ⟨ts, sessions, run, started, (one_write_iff run).mpr inTurn⟩

/-- Two messages to one session, the second before the first is through: there are two
writes outstanding, and their pieces may get on the connection in any order. -/
theorem two_writes_outstanding : ¬ ∀ ts sessions, Run writeMachine ts sessions →
    OneWriteEach sessions := by
  intro all
  obtain ⟨ts, sessions, run, check⟩ := Run.of_exec writeMachine
    [.opens .ws, .send 0 (ascii "ab"), .send 0 (ascii "cd"), .progress 0 0 1, .progress 0 1 1]
    (fun _ sessions => ∃ s ∈ sessions, s.stream.outstanding.length = 2 ∧
      s.stream.wire = ascii "ac") (by decide +kernel)
  obtain ⟨s, member, two, _⟩ := of_decide_eq_true check
  have one : s.stream.outstanding.length ≤ 1 := (all ts sessions run s member).1
  omega

/-! ## The backend -/

/-- The backend does send so: bob takes alice's call up before she has got the answer to
her request for it, and her session has two writes pending. -/
theorem backend_sends_before_done : ∃ ts b, Run (backendMachine deployed 30) ts b ∧
    ∃ s ∈ b.ws.accepted, s.phase = .established ∧ s.writes = 2 := by
  obtain ⟨ts, b, run, check⟩ := Run.of_exec (backendMachine deployed 30)
    [.accept some (ascii "/ws?token=alice"), .handshake 0,
      .accept some (ascii "/ws?token=bob"), .handshake 1,
      .message 0 (some (createMessage (ascii "bob"))) (surroundings 0 1),
      .message 1 (some (callMessage "call.accept" (generateUuid (1, 1)))) (surroundings 1 0)]
    (fun _ b => ∃ s ∈ b.ws.accepted, s.phase = .established ∧ s.writes = 2) (by decide +kernel)
  exact ⟨ts, b, run, of_decide_eq_true check⟩

end Zaza.Writes
