import Zaza.Dispatcher
import Zaza.Stream

/-!
The TURN server with its stream sessions: `TcpTransport` and `TlsTransport`
around the dispatcher, wired together as `main.cpp` does.

Both transports keep a table of sessions under the text of the remote endpoint,
find a session by that text alone and write to it whatever they are given. A
session is known by the order in which it was accepted. Bytes arrive at a
session one by one (`byte`); the byte that completes a frame hands it to
`onPacket` at once, and the packets this sends are handed to the transports.
The two datagram transports have no part in the streams: their packets come in
as `datagram`, and what is sent to them goes nowhere here.
-/
namespace Zaza

/-- The two transports that carry streams. -/
inductive StreamKind where
  | tcp
  | tls
  deriving DecidableEq

def StreamKind.transport : StreamKind → Transport
  | .tcp => .tcp
  | .tls => .tls

/-- A `TcpSession` or a `TlsSession`. -/
structure StreamSession where
  kind : StreamKind
  /-- `from_`; `key_` is its text. -/
  sender : Endpoint
  /-- A TLS handshake is under way. -/
  handshaking : Bool
  /-- The read under way, if there is one. -/
  reads : Option ReadState
  /-- What `send` was called with, oldest first. -/
  written : List Bytes

/-- How a step can end the process: an exception nobody catches, or a receiver
that reads behind the buffer it was given. -/
inductive Fault where
  | exception (e : Exn)
  | overread
  deriving DecidableEq

structure StreamServer where
  dispatcher : TurnDispatcher
  sessions : List StreamSession
  /-- `sessions_` of the `TcpTransport`. -/
  tcpSessions : UnorderedMap Bytes Nat
  /-- `sessions_` of the `TlsTransport`. -/
  tlsSessions : UnorderedMap Bytes Nat

/-- What happens at the sockets. -/
inductive SocketEvent where
  | accept (kind : StreamKind) (sender : Endpoint)
  | handshake (session : Nat) (error : Bool)
  | byte (session : Nat) (b : UInt8)
  | readError (session : Nat)
  | writeError (session : Nat)
  | datagram (data : Bytes) (sender : Endpoint) (dtls : Bool)
  | peerData (data : Bytes) (peer relayAddr : Endpoint)

namespace StreamServer

def init : StreamServer := ⟨TurnDispatcher.init, [], ∅, ∅⟩

/-- The session table of a transport. -/
def table (s : StreamServer) : Transport → UnorderedMap Bytes Nat
  | .tcp => s.tcpSessions
  | .tls => s.tlsSessions
  | _ => ∅

/-- `send`: the session under the text of the endpoint, if there is one, gets
the bytes as they are. -/
def send (s : StreamServer) (sent : Sent) : StreamServer :=
  match (s.table sent.via).lookup (endpointKey sent.dest) with
  | none => s
  | some i => { s with sessions :=
      s.sessions.modify i fun session => { session with written := session.written ++ [sent.data] } }

/-- `accept`: the session is stored, also in the place of another, and run. -/
def accept (s : StreamServer) (kind : StreamKind) (sender : Endpoint) : StreamServer :=
  let reads := match kind with
    | .tcp => some TcpSession.run
    | .tls => TlsSession.run
  let session : StreamSession := ⟨kind, sender, kind = .tls, reads, []⟩
  let s := { s with sessions := s.sessions ++ [session] }
  match kind with
  | .tcp => { s with
      tcpSessions := s.tcpSessions.insert (endpointKey sender) (s.sessions.length - 1) }
  | .tls => { s with
      tlsSessions := s.tlsSessions.insert (endpointKey sender) (s.sessions.length - 1) }

/-- `removeSession`: whatever is stored under the session's key goes. -/
def removeSession (s : StreamServer) (session : StreamSession) : StreamServer :=
  match session.kind with
  | .tcp => { s with tcpSessions := s.tcpSessions.erase (endpointKey session.sender) }
  | .tls => { s with tlsSessions := s.tlsSessions.erase (endpointKey session.sender) }

/-- The read of a session goes on from here; no handshake does any more. -/
def setReads (s : StreamServer) (i : Nat) (reads : Option ReadState) : StreamServer :=
  { s with sessions :=
      s.sessions.modify i fun session => { session with handshaking := false, reads } }

/-- The frame a byte completes, if it completes one. A byte never completes two. -/
def received (s : StreamServer) (i : Nat) (b : UInt8) : Option (StreamSession × Received) :=
  s.sessions[i]?.bind fun session =>
    session.reads.bind fun reads =>
      ((sessionReader.item reads b).2.head?).map fun r => (session, r)

/-- What an event amounts to for the dispatcher. -/
def packet (s : StreamServer) : SocketEvent → Option Event
  | .byte i b => (s.received i b).map fun (session, r) =>
      .packet r.data session.sender session.kind.transport
  | .datagram data sender dtls => some (.packet data sender (if dtls then .dtls else .udp))
  | .peerData data peer relayAddr => some (.peerData data peer relayAddr)
  | _ => none

/-- The transports' own bookkeeping for an event. -/
def socket (s : StreamServer) : SocketEvent → StreamServer
  | .accept kind sender => s.accept kind sender
  | .handshake i error =>
    match s.sessions[i]? with
    | some session =>
      if session.handshaking then
        let s := s.setReads i (TlsSession.handshaken error)
        if error then s.removeSession session else s
      else s
    | none => s
  | .byte i b =>
    match s.sessions[i]? with
    | some session =>
      match session.reads with
      | some reads => s.setReads i (some (sessionReader.item reads b).1)
      | none => s
    | none => s
  | .readError i =>
    match s.sessions[i]? with
    | some session => (s.setReads i none).removeSession session
    | none => s
  | .writeError i =>
    match s.sessions[i]? with
    | some session => s.removeSession session
    | none => s
  | _ => s

/-- The receiver is given more than there is. -/
def overreads (s : StreamServer) : SocketEvent → Bool
  | .byte i b => (s.received i b).any fun (_, r) => r.buf.length < r.size
  | _ => false

end StreamServer

/-- The server with its sockets. -/
def streamServer (host : Host) (cfg : Config) :
    Machine StreamServer (SocketEvent × Env) (List Sent) Fault where
  init := StreamServer.init
  step s input :=
    if s.overreads input.1 then .error .overread
    else match s.packet input.1 with
    | none => .ok (s.socket input.1, [])
    | some event =>
      match (turnServer host cfg).step s.dispatcher (event, input.2) with
      | .error e => .error (.exception e)
      | .ok (dispatcher, out) =>
        .ok (out.foldl StreamServer.send { s.socket input.1 with dispatcher }, out)

end Zaza
