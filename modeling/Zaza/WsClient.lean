import Zaza.Machine

/-!
The threads of the client's WebSocket connection: `signaling/ws_client.cpp`, as the
REPL and `main` use it.

`connect` is called by the REPL after a login and by `reconnectLoop`, and starts a
thread with `readLoop`; a read error there starts one with `reconnectLoop`; the
destructor in `main` disconnects. The two handles are shared by all of them without a
lock. A step is one call of a thread, and the threads take their steps in any order: a
network operation, a look at a handle, a `join`, an assignment with the start of its
thread. A `join` that has to wait is a step that changes nothing.

What is sent and received, the tokens, `connected_` and the delays are left out.
-/
namespace Zaza

/-- How a step can end the process. -/
inductive ThreadFault where
  /-- A handle that is joinable is assigned to: `std::terminate`. -/
  | overwritten
  /-- A thread joins itself: `resource_deadlock_would_occur`. -/
  | selfJoin
  /-- A handle is joined that another thread has joined meanwhile: `invalid_argument`. -/
  | notJoinable
  deriving DecidableEq

/-- Where a thread is in `readLoop`. -/
inductive ReadStage where
  /-- At the condition of the loop. -/
  | top
  /-- In `read`, on the stream it has taken. -/
  | reading
  /-- `read` has returned an error. -/
  | failed
  /-- `on_close_` has returned. -/
  | closed
  /-- In `reconnect_thread_.join()`. -/
  | joining
  /-- At the assignment to `reconnect_thread_`. -/
  | assigning
  | finished
  deriving DecidableEq

/-- Where a thread is in `reconnectLoop`. -/
inductive ReconnectStage where
  /-- At the start of an attempt: the condition of the loop, and the delay. -/
  | waiting
  /-- At `read_thread_.joinable()`. -/
  | checking
  /-- In `read_thread_.join()`. -/
  | joining
  /-- At `ws_.reset()`. -/
  | resetting
  /-- In `connect`, up to its handshake. -/
  | connecting
  /-- In `connect`, at the assignment to `read_thread_`. -/
  | assigning
  | finished
  deriving DecidableEq

/-- A thread the client has started. -/
inductive WsThread where
  | reader (stage : ReadStage)
  | reconnecter (stage : ReconnectStage) (attempt : Nat)
  deriving DecidableEq

def WsThread.isFinished : WsThread → Bool
  | reader stage => stage = .finished
  | reconnecter stage _ => stage = .finished

/-- Where the REPL's thread is. -/
inductive ReplStage where
  /-- Outside of `connect`. -/
  | idle
  | connecting
  | assigning
  deriving DecidableEq

/-- Where `main` is. -/
inductive MainStage where
  /-- In `repl.run()`. -/
  | running
  /-- In `disconnect`, at `read_thread_.joinable()`. -/
  | checkingRead
  | joiningRead
  | resetting
  /-- At `reconnect_thread_.joinable()`. -/
  | checkingReconnect
  | joiningReconnect
  | disconnected
  deriving DecidableEq

structure WsClient where
  stop : Bool := false
  /-- Whether `ws_` is set. -/
  ws : Bool := false
  /-- `read_thread_`, by the number of its thread if it is joinable. -/
  readThread : Option Nat := none
  /-- `reconnect_thread_`. -/
  reconnectThread : Option Nat := none
  /-- Every thread the client has started, in order. -/
  threads : List WsThread := []
  repl : ReplStage := .idle
  main : MainStage := .running
  deriving DecidableEq

/-- What comes of `connect` before it starts its thread. -/
inductive Handshake where
  /-- It throws, before it has set `ws_` or after. -/
  | fails (wsSet : Bool)
  | succeeds
  deriving DecidableEq

/-- What a network operation comes to, where the thread is in one. -/
structure NetResult where
  /-- `read` returns an error. -/
  readFails : Bool
  handshake : Handshake
  deriving DecidableEq

inductive WsInput where
  /-- A login command has succeeded, and the REPL calls `connect`. -/
  | login
  /-- The REPL's thread goes on in `connect`. -/
  | repl (net : NetResult)
  /-- A thread of the client takes a step. -/
  | thread (id : Nat) (net : NetResult)
  /-- `main` takes a step: it disconnects when the REPL is done. -/
  | main

namespace WsClient

def kMaxRetries : Nat := 10

def setThread (c : WsClient) (id : Nat) (t : WsThread) : WsClient :=
  { c with threads := c.threads.set id t }

/-- `read_thread_ = std::thread([this]() { readLoop(); })`. -/
def assignRead (c : WsClient) : Except ThreadFault WsClient :=
  match c.readThread with
  | some _ => .error .overwritten
  | none => .ok { c with
      readThread := some c.threads.length, threads := c.threads ++ [.reader .top] }

/-- `reconnect_thread_ = std::thread([this]() { reconnectLoop(last_token_); })`. -/
def assignReconnect (c : WsClient) : Except ThreadFault WsClient :=
  match c.reconnectThread with
  | some _ => .error .overwritten
  | none => .ok { c with
      reconnectThread := some c.threads.length
      threads := c.threads ++ [.reconnecter .waiting 1] }

/-- A thread of the client has returned. -/
def hasFinished (c : WsClient) (id : Nat) : Bool :=
  match c.threads[id]? with
  | some t => t.isFinished
  | none => false

/-- `handle.join()` by a thread, `none` being one the client has not started: whether the thread
behind the handle has finished. -/
def tryJoin (c : WsClient) (handle joiner : Option Nat) : Except ThreadFault Bool :=
  match handle with
  | none => .error .notJoinable
  | some id => if joiner = some id then .error .selfJoin else .ok (c.hasFinished id)

/-- What `connect` leaves of `ws_`. -/
def afterHandshake (c : WsClient) : Handshake → WsClient
  | .fails wsSet => { c with ws := c.ws || wsSet }
  | .succeeds => { c with ws := true }

/-- The next step of `readLoop`. -/
def readStep (c : WsClient) (id : Nat) (net : NetResult) : ReadStage → Except ThreadFault WsClient
  | .top =>
    if c.stop || !c.ws then .ok (c.setThread id (.reader .finished))
    else .ok (c.setThread id (.reader .reading))
  | .reading => .ok (c.setThread id (.reader (if net.readFails then .failed else .top)))
  | .failed =>
    if c.stop then .ok (c.setThread id (.reader .finished))
    else .ok (c.setThread id (.reader .closed))
  | .closed =>
    if c.reconnectThread.isSome ∧ c.reconnectThread ≠ some id then
      .ok (c.setThread id (.reader .joining))
    else .ok (c.setThread id (.reader .assigning))
  | .joining =>
    match c.tryJoin c.reconnectThread (some id) with
    | .error e => .error e
    | .ok false => .ok c
    | .ok true => .ok { c.setThread id (.reader .assigning) with reconnectThread := none }
  | .assigning => (c.setThread id (.reader .finished)).assignReconnect
  | .finished => .ok c

/-- The next step of `reconnectLoop`. -/
def reconnectStep (c : WsClient) (id : Nat) (net : NetResult) (attempt : Nat) :
    ReconnectStage → Except ThreadFault WsClient
  | .waiting =>
    if c.stop || attempt > kMaxRetries then .ok (c.setThread id (.reconnecter .finished attempt))
    else .ok (c.setThread id (.reconnecter .checking attempt))
  | .checking =>
    if c.readThread.isSome then .ok (c.setThread id (.reconnecter .joining attempt))
    else .ok (c.setThread id (.reconnecter .resetting attempt))
  | .joining =>
    match c.tryJoin c.readThread (some id) with
    | .error e => .error e
    | .ok false => .ok c
    | .ok true => .ok { c.setThread id (.reconnecter .resetting attempt) with readThread := none }
  | .resetting => .ok { c.setThread id (.reconnecter .connecting attempt) with ws := false }
  | .connecting =>
    let next : WsThread :=
      match net.handshake with
      | .fails _ => .reconnecter .waiting (attempt + 1)
      | .succeeds => .reconnecter .assigning attempt
    .ok ((c.setThread id next).afterHandshake net.handshake)
  | .assigning => (c.setThread id (.reconnecter .finished attempt)).assignRead
  | .finished => .ok c

/-- The next step of the REPL's thread in `connect`. -/
def replStep (c : WsClient) (net : NetResult) : Except ThreadFault WsClient :=
  match c.repl with
  | .idle => .ok c
  | .connecting =>
    let next : ReplStage :=
      match net.handshake with
      | .fails _ => .idle
      | .succeeds => .assigning
    .ok ({ c with repl := next }.afterHandshake net.handshake)
  | .assigning => { c with repl := .idle }.assignRead

/-- The next step of `main`: `disconnect` by the destructor, when the REPL has returned. -/
def mainStep (c : WsClient) : Except ThreadFault WsClient :=
  match c.main with
  | .running =>
    if c.repl = .idle then .ok { c with stop := true, main := .checkingRead } else .ok c
  | .checkingRead =>
    .ok { c with main := if c.readThread.isSome then .joiningRead else .resetting }
  | .joiningRead =>
    match c.tryJoin c.readThread none with
    | .error e => .error e
    | .ok false => .ok c
    | .ok true => .ok { c with readThread := none, main := .resetting }
  | .resetting => .ok { c with ws := false, main := .checkingReconnect }
  | .checkingReconnect =>
    .ok { c with main := if c.reconnectThread.isSome then .joiningReconnect else .disconnected }
  | .joiningReconnect =>
    match c.tryJoin c.reconnectThread none with
    | .error e => .error e
    | .ok false => .ok c
    | .ok true => .ok { c with reconnectThread := none, main := .disconnected }
  | .disconnected => .ok c

def step (c : WsClient) : WsInput → Except ThreadFault WsClient
  | .login => .ok (if c.repl = .idle ∧ c.main = .running then { c with repl := .connecting } else c)
  | .repl net => c.replStep net
  | .thread id net =>
    match c.threads[id]? with
    | none => .ok c
    | some (.reader stage) => c.readStep id net stage
    | some (.reconnecter stage attempt) => c.reconnectStep id net attempt stage
  | .main => c.mainStep

end WsClient

/-- The client's connection, from its construction on. -/
def wsClientMachine : Machine WsClient WsInput Unit ThreadFault where
  init := {}
  step c input := (c.step input).map (·, ())

end Zaza
