import Zaza.Dispatcher
import Zaza.Locks

/-!
The TURN server with its DTLS sessions: `turn_server/src/transport/dtls_transport.cpp`,
wired to the dispatcher as `main.cpp` does, with its mutexes.

`sessions_` has one `DtlsSession` under the text of each remote endpoint that has ever
sent a datagram; entries are neither replaced nor erased, so the key stands for the
session. The handler of a datagram takes `sessions_mutex_` to find or make the session,
releases it and calls `feed`, which takes the session's `mutex_` and keeps it while the
receive callback runs. The callback calls `onPacket`, which calls `send`, which takes
`sessions_mutex_` and, through the session, another `mutex_`. All of this is one call
chain on the one thread that runs the `io_context`.

What OpenSSL makes of a datagram is part of the input: whether `SSL_do_handshake` returns
1, and the bytes `SSL_read` delivers, none if it returns zero or less. What `SSL_write` is
given is kept with the session; flushing the records is left out, and so is what is
logged.
-/
namespace Zaza

/-- `asio::ip::make_address`, followed by `to_string`: the text Boost writes for the
address it reads, `none` when it throws. It reads what it has written. -/
structure AddressText where
  canonical : Bytes → Option Bytes
  rereads : ∀ text written, canonical text = some written → canonical written = some written

/-- A `udp::endpoint`, as its text. -/
structure UdpEndpoint (net : AddressText) extends Endpoint where
  written : net.canonical address = some address

structure DtlsSession where
  /-- `peer_endpoint_`. -/
  peer : Endpoint
  handshakeDone : Bool
  /-- `mutex_` is taken. -/
  locked : Bool
  /-- What `SSL_write` was given, oldest first. -/
  writes : List Bytes

/-- The mutexes. -/
inductive DtlsLock where
  | sessions
  | session (key : Bytes)
  deriving DecidableEq

/-- How a call chain can fail to return: it waits for a mutex that it has taken itself,
or an exception leaves it. -/
inductive DtlsFault where
  | relock (lock : DtlsLock)
  | exception (e : Exn)
  /-- `make_address` throws. -/
  | badAddress (text : Bytes)
  deriving DecidableEq

/-- The dispatcher and the `DtlsTransport`. -/
structure DtlsServer where
  dispatcher : TurnDispatcher
  /-- `sessions_mutex_` is taken. -/
  sessionsLocked : Bool
  sessions : UnorderedMap Bytes DtlsSession
  /-- The socket waits for the next datagram. -/
  receiving : Bool

/-- What happens: a datagram, with what OpenSSL makes of it; an error of the socket; or
something at another transport or a relayed address. -/
inductive DtlsEvent (net : AddressText) where
  | datagram (source : UdpEndpoint net) (data : Bytes) (handshake : Bool) (decrypted : Bytes)
  | socketError
  | elsewhere (event : Event) (foreign : ∀ data sender, event ≠ .packet data sender .dtls)

namespace DtlsServer

/-- Writing to a session. -/
def modify (s : DtlsServer) (key : Bytes) (f : DtlsSession → DtlsSession) : DtlsServer :=
  match s.sessions.lookup key with
  | none => s
  | some session => { s with sessions := s.sessions.insert key (f session) }

theorem lookup_modify (s : DtlsServer) (key k : Bytes) (f : DtlsSession → DtlsSession) :
    (s.modify key f).sessions.lookup k =
      if k = key then (s.sessions.lookup key).map f else s.sessions.lookup k := by
  unfold DtlsServer.modify
  by_cases same : k = key
  · subst same
    cases found : s.sessions.lookup k with
    | none => simp [found]
    | some session => simp [AList.lookup_insert]
  · cases s.sessions.lookup key with
    | none => simp [same]
    | some session => simp [same, AList.lookup_insert_ne same]

theorem modify_modify (s : DtlsServer) (key : Bytes) (f g : DtlsSession → DtlsSession) :
    (s.modify key f).modify key g = s.modify key (g ∘ f) := by
  unfold DtlsServer.modify
  cases found : s.sessions.lookup key with
  | none => simp only [found]
  | some session => simp [AList.lookup_insert, AList.insert_insert]

@[simp] theorem modify_sessionsLocked (s : DtlsServer) (key : Bytes)
    (f : DtlsSession → DtlsSession) : (s.modify key f).sessionsLocked = s.sessionsLocked := by
  unfold DtlsServer.modify
  split <;> rfl

@[simp] theorem modify_dispatcher (s : DtlsServer) (key : Bytes)
    (f : DtlsSession → DtlsSession) : (s.modify key f).dispatcher = s.dispatcher := by
  unfold DtlsServer.modify
  split <;> rfl

/-- `sessions_mutex_`. -/
def sessionsMutex : Mutex DtlsServer where
  locked s := s.sessionsLocked
  set flag s := { s with sessionsLocked := flag }

/-- `mutex_` of the session under a key. -/
def sessionMutex (key : Bytes) : Mutex DtlsServer where
  locked s := (s.sessions.lookup key).any (·.locked)
  set flag s := s.modify key fun session => { session with locked := flag }

/-- `DtlsSession::send`. -/
def sessionSend (key data : Bytes) : DtlsServer → Except DtlsFault DtlsServer :=
  lockGuard (sessionMutex key) (.relock (.session key)) fun s =>
    .ok (s.modify key fun session =>
      if !session.handshakeDone then session
      else { session with writes := session.writes ++ [data] })

/-- `DtlsTransport::send`. -/
def send (net : AddressText) (data : Bytes) (dest : Endpoint) (s : DtlsServer) :
    Except DtlsFault DtlsServer :=
  match net.canonical dest.address with
  | none => .error (.badAddress dest.address)
  | some text =>
    let key := endpointKey ⟨text, dest.port⟩
    lockGuard sessionsMutex (.relock .sessions) (fun s =>
      match s.sessions.lookup key with
      | some _ => sessionSend key data s
      | none => .ok s) s

/-- The packets `onPacket` sends, in order. The other transports take none of these
mutexes. -/
def deliver (net : AddressText) : List Sent → DtlsServer → Except DtlsFault DtlsServer
  | [], s => .ok s
  | sent :: rest, s =>
    if sent.via = .dtls then
      match s.send net sent.data sent.dest with
      | .error e => .error e
      | .ok s => deliver net rest s
    else deliver net rest s

/-- The dispatcher handles an event. -/
def handle (net : AddressText) (host : Host) (cfg : Config) (env : Env) (event : Event)
    (s : DtlsServer) : Except DtlsFault DtlsServer :=
  match (turnServer host cfg).step s.dispatcher (event, env) with
  | .error e => .error (.exception e)
  | .ok (dispatcher, out) => deliver net out { s with dispatcher }

/-- `DtlsSession::feed`. -/
def feed (net : AddressText) (host : Host) (cfg : Config) (env : Env) (key : Bytes)
    (handshake : Bool) (decrypted : Bytes) : DtlsServer → Except DtlsFault DtlsServer :=
  lockGuard (sessionMutex key) (.relock (.session key)) fun s =>
    match s.sessions.lookup key with
    | none => .ok s
    | some session =>
      if !session.handshakeDone then
        if handshake then
          .ok (s.modify key fun session => { session with handshakeDone := true })
        else .ok s
      else if decrypted.length > 0 then
        s.handle net host cfg env (.packet decrypted session.peer .dtls)
      else .ok s

/-- The first part of the handler in `receive`: the session is found, or made. -/
def obtainSession (source : Endpoint) : DtlsServer → Except DtlsFault DtlsServer :=
  lockGuard sessionsMutex (.relock .sessions) fun s =>
    match s.sessions.lookup (endpointKey source) with
    | some _ => .ok s
    | none =>
      let session : DtlsSession := ⟨source, false, false, []⟩
      .ok { s with sessions := s.sessions.insert (endpointKey source) session }

/-- The handler in `receive`. -/
def receive (net : AddressText) (host : Host) (cfg : Config) (env : Env) (source : Endpoint)
    (data : Bytes) (handshake : Bool) (decrypted : Bytes) (s : DtlsServer) :
    Except DtlsFault DtlsServer :=
  if data.length > 0 then
    match s.obtainSession source with
    | .error e => .error e
    | .ok s => s.feed net host cfg env (endpointKey source) handshake decrypted
  else .ok s

/-- One event. After an error the socket is not asked for another datagram. -/
def onEvent (net : AddressText) (host : Host) (cfg : Config) (env : Env) (event : DtlsEvent net)
    (s : DtlsServer) : Except DtlsFault DtlsServer :=
  match event with
  | .datagram source data handshake decrypted =>
    if s.receiving then s.receive net host cfg env source.toEndpoint data handshake decrypted
    else .ok s
  | .socketError => .ok { s with receiving := false }
  | .elsewhere event _ => s.handle net host cfg env event

end DtlsServer

/-- The server as `run` leaves it, around a dispatcher in any state. -/
def dtlsServer (net : AddressText) (host : Host) (cfg : Config) (start : TurnDispatcher) :
    Machine DtlsServer (DtlsEvent net × Env) Unit DtlsFault where
  init := ⟨start, false, ∅, true⟩
  step s input := (s.onEvent net host cfg input.2 input.1).map fun s => (s, ())

end Zaza
