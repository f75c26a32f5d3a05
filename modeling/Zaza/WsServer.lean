import Zaza.Router

/-!
The WebSocket server of the backend, `backend/signaling/ws_server.cpp`, and the
backend as its `main` puts it together.

A session is known by its number, in the order of `WsServer::accept`. Of what
Beast does with its connection, only the completions of the operations that were
started on it matter: the handshake, then one read after the other, and one write
for every message. A connection ends at some time. What is pending then completes
with an error, later and in any order, and each such error is a call of
`removeSession`.
-/
namespace Zaza

inductive Phase where
  | handshaking
  | established
  | closed
  deriving DecidableEq

structure WsSession where
  userId : Bytes
  phase : Phase := .handshaking
  /-- Whether the handshake or a read is pending. -/
  reading : Bool := true
  /-- How many writes are pending. -/
  writes : Nat := 0
  deriving DecidableEq

structure WsServer where
  /-- All sessions there have been. -/
  accepted : List WsSession := []
  /-- `sessions_`, by the numbers of the sessions. -/
  sessions : UnorderedMap Bytes Nat := ∅

namespace WsServer

/-- What follows the first `token=`, up to an `&`. -/
def extractToken (target : Bytes) : Bytes :=
  match target.tails.find? (ascii "token=").isPrefixOf with
  | none => []
  | some rest => (rest.drop 6).takeWhile (· ≠ 0x26)

/-- `verifyToken` is the one of `AuthService`: the user of a token, unless it throws. -/
def accept (verifyToken : Bytes → Option Bytes) (target : Bytes) (s : WsServer) : WsServer :=
  let token := extractToken target
  if token = [] then s
  else match verifyToken token with
  | none => s
  | some userId =>
    { accepted := s.accepted ++ [{ userId }]
      sessions := s.sessions.insert userId s.accepted.length }

def removeSession (s : WsServer) (userId : Bytes) : WsServer :=
  { s with sessions := s.sessions.erase userId }

def modify (s : WsServer) (k : Nat) (f : WsSession → WsSession) : WsServer :=
  { s with accepted := s.accepted.modify k f }

/-- The session a message to a user is handed to, if any; the source returns whether
there is one. -/
def send (s : WsServer) (userId : Bytes) : Option Nat × WsServer :=
  match s.sessions.lookup userId with
  | none => (none, s)
  | some k => (some k, s.modify k fun session => { session with writes := session.writes + 1 })

/-- The calls of `send` a handler makes, with what is handed to which session. -/
def sendAll : List Outgoing → WsServer → List (Nat × Json) × WsServer
  | [], s => ([], s)
  | out :: rest, s =>
    let (session, s) := s.send out.userId
    let (handed, s) := sendAll rest s
    ((session.map (·, out.msg)).toList ++ handed, s)

end WsServer

/-! ## The backend -/

structure Backend where
  calls : CallManager
  ws : WsServer := {}

inductive BackendInput where
  /-- An upgrade request. -/
  | accept (verifyToken : Bytes → Option Bytes) (target : Bytes)
  /-- The handshake of a session completes. -/
  | handshake (k : Nat)
  /-- A read completes. -/
  | message (k : Nat) (raw : Option Json) (env : BackendEnv)
  /-- The connection of a session ends. -/
  | close (k : Nat)
  /-- The handshake or a read completes with an error. -/
  | readFails (k : Nat)
  | writeDone (k : Nat)
  | writeFails (k : Nat)
  | checkExpired (env : BackendEnv)

namespace Backend

/-- Something happens to a session that can happen to it. -/
def onSession (b : Backend) (k : Nat) (enabled : WsSession → Bool)
    (act : WsSession → Backend × List (Nat × Json)) : Backend × List (Nat × Json) :=
  match b.ws.accepted[k]? with
  | none => (b, [])
  | some session => if enabled session then act session else (b, [])

/-- What the router has done, and what it sends. -/
def answer (b : Backend) (result : CallManager × List Outgoing) :
    Backend × List (Nat × Json) :=
  let (handed, ws) := b.ws.sendAll result.2
  (⟨result.1, ws⟩, handed)

def setWs (b : Backend) (ws : WsServer) : Backend × List (Nat × Json) := ({ b with ws }, [])

def step (cfg : RouterConfig) (b : Backend) : BackendInput → Backend × List (Nat × Json)
  | .accept verifyToken target => b.setWs (b.ws.accept verifyToken target)
  | .handshake k =>
    b.onSession k (fun s => s.phase = .handshaking ∧ s.reading) fun _ =>
      b.setWs (b.ws.modify k fun s => { s with phase := .established })
  | .message k raw env =>
    b.onSession k (fun s => s.phase = .established ∧ s.reading) fun session =>
      b.answer (Router.handle cfg env b.calls session.userId raw)
  | .close k =>
    b.onSession k (fun _ => true) fun _ =>
      b.setWs (b.ws.modify k fun s => { s with phase := .closed })
  | .readFails k =>
    b.onSession k (fun s => s.phase = .closed ∧ s.reading) fun session =>
      b.setWs ((b.ws.modify k fun s => { s with reading := false }).removeSession session.userId)
  | .writeDone k =>
    b.onSession k (fun s => 0 < s.writes) fun _ =>
      b.setWs (b.ws.modify k fun s => { s with writes := s.writes - 1 })
  | .writeFails k =>
    b.onSession k (fun s => s.phase = .closed ∧ 0 < s.writes) fun session =>
      b.setWs ((b.ws.modify k fun s => { s with writes := s.writes - 1 }).removeSession
        session.userId)
  | .checkExpired env => b.answer (Router.checkExpired env b.calls)

end Backend

/-- The backend, from its start on; a step shows what is handed to which session. -/
def backendMachine (cfg : RouterConfig) (ringTimeout : Int) :
    Machine Backend BackendInput (List (Nat × Json)) Empty where
  init := { calls := CallManager.new ringTimeout }
  step b input := .ok (b.step cfg input)

end Zaza
