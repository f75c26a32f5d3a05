import Zaza.Dtls
import Zaza.OutputLengths

/-!
Mutexes a DTLS call chain takes twice.

`feed` keeps the session's mutex while the dispatcher handles the packet, and whatever
the dispatcher sends goes through the session of its destination. The chain waits for
itself exactly when that session is the one it came from (`relock_free_iff`). Every
message but an indication is answered to its sender, so over DTLS no request is answered;
what remains are indications and ChannelData for others.
-/
namespace Zaza.DtlsLocks
open Zaza AllocationManager TurnDispatcher RelaySteps DispatcherSteps DtlsServer

/-! ## Where the dispatcher sends to -/

/-- The packet is a message that is answered to its sender, whatever comes of it. -/
def answered (data : Bytes) : Bool :=
  match parse data with
  | .ok msg => msg.msgClass ≠ .indication
  | .error _ => false

/-- The endpoint that gets what a packet asks to be relayed: the client behind a relayed
address of the server, or the peer itself. -/
def relayDest (host : Host) (env : Env) (m : AllocationManager) (data : Bytes)
    (sender : Endpoint) : Option Endpoint :=
  match relayRequest host env m data sender with
  | none => none
  | some (a, peer, _) =>
    match m.find m.byRelay peer with
    | none => some peer
    | some (_, b) =>
      if isChannelData data ∧ peerChannel env.order b a.relayedAddr = 0 ∧
        host.makeAddressV4 a.relayedAddr.address = none then none
      else some b.clientAddr

variable {host : Host} {cfg : Config} {env : Env} {d d' : TurnDispatcher} {data : Bytes}
  {sender : Endpoint} {via : Transport} {msg : TurnMessage} {out : List Sent}

/-- Where packets go, and on which transport. -/
def dests (out : List Sent) : List (Endpoint × Transport) :=
  out.map fun sent => (sent.dest, sent.via)

/-- What a relay request is answered with goes to one endpoint. -/
theorem dests_relayed (m : AllocationManager) :
    dests ((relayed host env m data sender).map fun datagram => ⟨datagram, via⟩) =
      (relayDest host env m data sender).toList.map (·, via) := by
  unfold relayed relayDest
  cases relayRequest host env m data sender with
  | none => rfl
  | some asked =>
    obtain ⟨a, peer, payload⟩ := asked
    simp only
    cases m.find m.byRelay peer with
    | none => rfl
    | some entry =>
      obtain ⟨q, b⟩ := entry
      simp only [frames]
      cases isChannelData data with
      | false => simp [dests]
      | true =>
        simp only [localFrames]
        by_cases bound : peerChannel env.order b a.relayedAddr ≠ 0
        · simp [dests, bound]
        · cases host.makeAddressV4 a.relayedAddr.address with
          | none => simp [dests, not_not.mp bound]
          | some relayIp => simp [dests, bound]

theorem dests_challenge {code : UInt16} {reason : String}
    (taken : d.challenge cfg env msg sender via code reason = .ok (d', out)) :
    dests out = [(sender, via)] := by
  unfold challenge at taken
  split at taken
  · cases taken
  · obtain ⟨_, rfl⟩ := Prod.mk.inj (Except.ok.inj taken)
    rfl

theorem dests_reply (class_ne : msg.msgClass ≠ .indication)
    (taken : d.handleStun host cfg env msg data sender via = .ok (d', out)) :
    dests out = [(sender, via)] := by
  simp only [handleStun, if_neg class_ne] at taken
  cases verdict : ({ d with currentTransport := some via } : TurnDispatcher).authResult host cfg env
      msg data sender <;> simp only [verdict] at taken
  case missingCredentials | staleNonce | badIntegrity | credentialsExpired =>
    exact dests_challenge taken
  case wrongCredentials =>
    obtain ⟨_, rfl⟩ := Prod.mk.inj (Except.ok.inj taken)
    rfl
  case ok =>
    have some : (Replies.requestCall host cfg env d.manager msg sender).build ≠ [] := by
      simp [Call.build, MessageBuilder.build]
    rw [Replies.handleRequest_call, if_pos some] at taken
    obtain ⟨_, rfl⟩ := Prod.mk.inj (Except.ok.inj taken)
    rfl

/-- A packet is answered to its sender, or relayed to one endpoint, or nothing is sent. -/
theorem onPacket_dests (taken : d.onPacket host cfg env data sender via = .ok (d', out)) :
    dests out = if answered data then [(sender, via)]
      else (relayDest host env d.manager data sender).toList.map (·, via) := by
  rcases onPacket_cases taken with ⟨msg, parsed, class_ne, stun⟩ | ⟨indication, rfl⟩
  · have yes : answered data = true := by simp [answered, parsed, class_ne]
    rw [if_pos yes]
    exact dests_reply class_ne stun
  · have no : ¬ answered data = true := by
      unfold answered
      cases parsed : parse data with
      | error e => simp
      | ok msg => simp [indication msg parsed]
    rw [if_neg no]
    exact dests_relayed d.manager

/-! ## The mutexes -/

/-- What holds of the sessions while a chain has taken the mutex of at most one: they are
stored under the text of their own endpoints, and the others' mutexes are free. -/
structure SessionsInv (net : AddressText) (held : Option Bytes)
    (sessions : UnorderedMap Bytes DtlsSession) : Prop where
  keyed : ∀ key session, sessions.lookup key = some session →
    endpointKey session.peer = key ∧ net.canonical session.peer.address = some session.peer.address
  locks : ∀ key session, sessions.lookup key = some session →
    session.locked = decide (held = some key)

variable {net : AddressText} {held held' : Option Bytes} {s s' : DtlsServer} {key : Bytes}
  {f g : DtlsSession → DtlsSession}

/-- Writing to a session keeps the invariant when it leaves the endpoint alone and the
mutex as it is to be. -/
theorem SessionsInv.modify (inv : SessionsInv net held s.sessions)
    (peer : ∀ session, (f session).peer = session.peer)
    (mine : ∀ session, s.sessions.lookup key = some session →
      (f session).locked = decide (held' = some key))
    (others : ∀ k, k ≠ key → (held' = some k ↔ held = some k)) :
    SessionsInv net held' (s.modify key f).sessions := by
  constructor
  · intro k session found
    rw [lookup_modify] at found
    split at found
    · rename_i same
      obtain ⟨before, located, rfl⟩ := Option.map_eq_some_iff.mp found
      rw [peer, same]
      exact inv.keyed key before located
    · exact inv.keyed k session found
  · intro k session found
    rw [lookup_modify] at found
    split at found
    · rename_i same
      obtain ⟨before, located, rfl⟩ := Option.map_eq_some_iff.mp found
      rw [mine before located, same]
    · rename_i other
      rw [inv.locks k session found, decide_eq_decide]
      exact (others k other).symm

/-- Taking a session's mutex, when none is taken. -/
theorem SessionsInv.take (inv : SessionsInv net none s.sessions) (key : Bytes) :
    SessionsInv net (some key) ((sessionMutex key).set true s).sessions := by
  refine inv.modify (fun _ => rfl) (fun _ _ => by simp) fun k other => ?_
  simp [Ne.symm other]

/-- Giving it back. -/
theorem SessionsInv.giveBack (inv : SessionsInv net (some key) s.sessions) :
    SessionsInv net none ((sessionMutex key).set false s).sessions := by
  refine inv.modify (fun _ => rfl) (fun _ _ => by simp) fun k other => ?_
  simp [Ne.symm other]

theorem locked_iff (inv : SessionsInv net held s.sessions) (key : Bytes) :
    (sessionMutex key).locked s = true ↔ held = some key ∧ (s.sessions.lookup key).isSome := by
  cases found : s.sessions.lookup key with
  | none => simp [sessionMutex, found]
  | some session => simp [sessionMutex, found, inv.locks key session found]

/-- A server between two calls that take `sessions_mutex_`. -/
structure TransportInv (net : AddressText) (held : Option Bytes) (s : DtlsServer) : Prop where
  sessions : SessionsInv net held s.sessions
  free : s.sessionsLocked = false

/-- Sending through a session whose mutex is not taken. -/
theorem sessionSend_ok (inv : SessionsInv net held s.sessions) (other : held ≠ some key)
    (data : Bytes) : ∃ s', sessionSend key data s = .ok s' ∧
      SessionsInv net held s'.sessions := by
  have unlocked : (sessionMutex key).locked s = false := by
    rw [Bool.eq_false_iff, ne_eq, locked_iff inv]
    exact fun taken => other taken.1
  rw [sessionSend, lockGuard_free _ _ unlocked]
  refine ⟨_, rfl, ?_⟩
  simp only [sessionMutex, modify_modify]
  refine inv.modify (fun session => ?_) (fun session _ => ?_) fun _ _ => Iff.rfl
  · simp only [Function.comp_apply]
    split <;> rfl
  · simp [other]

/-- `send` waits for itself exactly when it leads to the session whose mutex is taken. -/
theorem send_relock_iff (inv : TransportInv net held s) (data : Bytes) (dest : Endpoint) :
    (∃ lock, s.send net data dest = .error (.relock lock)) ↔
      ∃ text, net.canonical dest.address = some text ∧
        held = some (endpointKey ⟨text, dest.port⟩) ∧
        (s.sessions.lookup (endpointKey ⟨text, dest.port⟩)).isSome := by
  unfold send
  cases net.canonical dest.address with
  | none => simp
  | some text =>
    have free : sessionsMutex.locked s = false := inv.free
    simp only [lockGuard_error_iff free, Option.some.injEq, exists_eq_left']
    have within : SessionsInv net held (sessionsMutex.set true s).sessions := inv.sessions
    have same : (sessionsMutex.set true s).sessions = s.sessions := rfl
    cases found : (sessionsMutex.set true s).sessions.lookup (endpointKey ⟨text, dest.port⟩) with
    | none => simp [← same, found]
    | some session =>
      rw [← same, found]
      by_cases mine : held = some (endpointKey ⟨text, dest.port⟩)
      · have taken := (locked_iff within _).mpr ⟨mine, by rw [found]; rfl⟩
        simp [sessionSend, lockGuard_held _ _ taken, mine]
      · obtain ⟨s', done, _⟩ := sessionSend_ok within mine data
        simp [done, mine]

theorem send_ok (inv : TransportInv net held s) {data : Bytes} {dest : Endpoint}
    (done : s.send net data dest = .ok s') : TransportInv net held s' := by
  unfold send at done
  cases resolved : net.canonical dest.address with
  | none =>
    rw [resolved] at done
    cases done
  | some text =>
    simp only [resolved] at done
    obtain ⟨_, inside, ran, rfl⟩ := lockGuard_ok done
    have within : SessionsInv net held (sessionsMutex.set true s).sessions := inv.sessions
    cases found : (sessionsMutex.set true s).sessions.lookup (endpointKey ⟨text, dest.port⟩) with
    | none =>
      simp only [found] at ran
      obtain rfl := Except.ok.inj ran
      exact ⟨within, rfl⟩
    | some session =>
      simp only [found] at ran
      by_cases mine : held = some (endpointKey ⟨text, dest.port⟩)
      · have taken := (locked_iff within _).mpr ⟨mine, by rw [found]; rfl⟩
        rw [sessionSend, lockGuard_held _ _ taken] at ran
        cases ran
      · obtain ⟨s', done, kept⟩ := sessionSend_ok within mine data
        obtain rfl := Except.ok.inj (done.symm.trans ran)
        exact ⟨kept, rfl⟩

/-! ## A packet -/

theorem deliver_ok (inv : TransportInv net held s) (done : deliver net out s = .ok s') :
    TransportInv net held s' := by
  induction out generalizing s with
  | nil =>
    obtain rfl := Except.ok.inj done
    exact inv
  | cons sent rest ih =>
    rw [deliver] at done
    split at done
    · cases went : s.send net sent.data sent.dest with
      | error e =>
        rw [went] at done
        cases done
      | ok next =>
        rw [went] at done
        exact ih (send_ok inv went) done
    · exact ih inv done

/-- One packet for a DTLS session waits for a mutex when sending it does. -/
theorem deliver_one_iff (inv : TransportInv net held s) {dest : Endpoint}
    (goes : dests out = [(dest, .dtls)]) :
    (∃ lock, deliver net out s = .error (.relock lock)) ↔
      ∃ text, net.canonical dest.address = some text ∧
        held = some (endpointKey ⟨text, dest.port⟩) ∧
        (s.sessions.lookup (endpointKey ⟨text, dest.port⟩)).isSome := by
  obtain ⟨sent, rfl, named⟩ := List.map_eq_singleton_iff.mp goes
  obtain ⟨rfl, via⟩ := Prod.mk.inj named
  rw [← send_relock_iff inv sent.data sent.dest]
  simp only [deliver, via, ↓reduceIte]
  cases s.send net sent.data sent.dest with
  | error e => rfl
  | ok next => simp

/-- Outside of `feed` no packet can lead back to a mutex that is taken. -/
theorem deliver_calm (inv : TransportInv net none s) (lock : DtlsLock) :
    deliver net out s ≠ .error (.relock lock) := by
  induction out generalizing s with
  | nil => simp [deliver]
  | cons sent rest ih =>
    rw [deliver]
    split
    · cases went : s.send net sent.data sent.dest with
      | error e =>
        rintro ⟨rfl⟩
        obtain ⟨_, _, taken, _⟩ := (send_relock_iff inv sent.data sent.dest).mp ⟨lock, went⟩
        cases taken
      | ok next => exact ih (send_ok inv went)
    · exact ih inv

/-- The packet makes the dispatcher send to the sender itself: it is a message other than an
indication, and the nonce of a challenge, if it is challenged, can be drawn; or it is to be
relayed to the sender's own endpoint. -/
def SelfSends (net : AddressText) (host : Host) (cfg : Config) (env : Env) (d : TurnDispatcher)
    (data : Bytes) (sender : Endpoint) : Prop :=
  (answered data = true ∧ (OutputLengths.challenged host cfg env d data sender = true →
    ∃ nonce, drawNonce d.nonces env.randBytes = .ok nonce)) ∨
  ∃ dest, relayDest host env d.manager data sender = some dest ∧
    net.canonical dest.address = some sender.address ∧ dest.port = sender.port

theorem relayDest_answered (yes : answered data = true) (m : AllocationManager) :
    relayDest host env m data sender = none := by
  unfold answered at yes
  cases parsed : parse data with
  | error e => simp [parsed] at yes
  | ok msg =>
    have class_ne : msg.msgClass ≠ .indication := by simpa [parsed] using yes
    simp [relayDest, relayRequest, parsed, class_ne]

theorem challenge_throws_iff {code : UInt16} {reason : String} :
    (∃ e, d.challenge cfg env msg sender via code reason = .error e) ↔
      ∃ e, drawNonce d.nonces env.randBytes = .error e := by
  unfold challenge NonceManager.generate
  cases drawNonce d.nonces env.randBytes with
  | error e => simp
  | ok nonce => simp

/-- The dispatcher throws exactly when the nonce of a challenge cannot be drawn. -/
theorem onPacket_throws_iff : (∃ e, d.onPacket host cfg env data sender via = .error e) ↔
    OutputLengths.challenged host cfg env d data sender = true ∧
      ∃ e, drawNonce d.nonces env.randBytes = .error e := by
  unfold OutputLengths.challenged
  cases parsed : parse data with
  | error e =>
    simp only [Bool.false_eq_true, false_and, iff_false]
    rintro ⟨e', threw⟩
    unfold onPacket at threw
    rw [parsed] at threw
    split at threw
    · cases threw
    · split at threw
      · cases threw
      · split at threw <;> cases threw
  | ok msg =>
    rw [onPacket_of_parse parsed]
    by_cases indication : msg.msgClass = .indication
    · have calm (e : Exn) : d.handleStun host cfg env msg data sender via ≠ .error e := by
        intro threw
        simp only [handleStun, if_pos indication] at threw
        split at threw <;> cases threw
      simp [indication, calm]
    · simp only [handleStun, if_neg indication]
      simp only [ne_eq, indication, not_false_eq_true, decide_true, Bool.true_and]
      have same : ({ d with currentTransport := some via } : TurnDispatcher).authResult host cfg
          env msg data sender = d.authResult host cfg env msg data sender := rfl
      rw [same]
      cases d.authResult host cfg env msg data sender with
      | missingCredentials | staleNonce | badIntegrity | credentialsExpired =>
        simp only [OutputLengths.challengeOf, Option.isSome_some, true_and]
        exact challenge_throws_iff
      | wrongCredentials => simp [OutputLengths.challengeOf]
      | ok =>
        simp only [OutputLengths.challengeOf, Option.isSome_none, Bool.false_eq_true, false_and,
          iff_false]
        rintro ⟨e, threw⟩
        split at threw <;> cases threw

/-- A packet that the dispatcher throws on is not answered. -/
theorem not_selfSends_of_throws {e : Exn}
    (threw : d.onPacket host cfg env data sender via = .error e) :
    ¬ SelfSends net host cfg env d data sender := by
  obtain ⟨challenged, e', undrawn⟩ := onPacket_throws_iff.mp ⟨e, threw⟩
  have message : answered data = true := by
    unfold OutputLengths.challenged at challenged
    unfold answered
    cases parsed : parse data with
    | error e => simp [parsed] at challenged
    | ok msg =>
      simp only [parsed, Bool.and_eq_true] at challenged
      exact challenged.1
  rintro (⟨_, drawn⟩ | ⟨dest, relayed, _⟩)
  · obtain ⟨nonce, drawn⟩ := drawn challenged
    rw [undrawn] at drawn
    cases drawn
  · rw [relayDest_answered message] at relayed
    cases relayed

/-- A message that is not thrown on is answered. -/
theorem selfSends_of_answered (taken : d.onPacket host cfg env data sender via = .ok (d', out))
    (message : answered data = true) : SelfSends net host cfg env d data sender := by
  refine .inl ⟨message, fun challenged => ?_⟩
  cases drew : drawNonce d.nonces env.randBytes with
  | ok nonce => exact ⟨nonce, rfl⟩
  | error e =>
    obtain ⟨e', threw⟩ := onPacket_throws_iff.mpr ⟨challenged, e, drew⟩
    rw [taken] at threw
    cases threw

/-- A destination leads to the session of an endpoint when Boost writes it the same way. -/
theorem leads_iff (peer dest : Endpoint)
    (known : (s.sessions.lookup (endpointKey peer)).isSome) :
    (∃ text, net.canonical dest.address = some text ∧
        some (endpointKey peer) = some (endpointKey ⟨text, dest.port⟩) ∧
        (s.sessions.lookup (endpointKey ⟨text, dest.port⟩)).isSome) ↔
      net.canonical dest.address = some peer.address ∧ dest.port = peer.port := by
  constructor
  · rintro ⟨text, resolved, same, _⟩
    obtain rfl := AllocationInvariant.endpointKey_injective (Option.some.inj same)
    exact ⟨resolved, rfl⟩
  · rintro ⟨resolved, port⟩
    rw [resolved, port]
    exact ⟨_, rfl, rfl, known⟩

/-- While the mutex of the sender's session is taken, handling its packet waits for that
mutex exactly when something is sent back to the sender. -/
theorem handle_relock_iff (peer : Endpoint) (inv : TransportInv net (some (endpointKey peer)) s)
    (known : (s.sessions.lookup (endpointKey peer)).isSome)
    (written : net.canonical peer.address = some peer.address) :
    (∃ lock, s.handle net host cfg env (.packet data peer .dtls) = .error (.relock lock)) ↔
      SelfSends net host cfg env s.dispatcher data peer := by
  have step : (turnServer host cfg).step s.dispatcher (.packet data peer .dtls, env) =
    s.dispatcher.onPacket host cfg env data peer .dtls := rfl
  unfold handle
  rw [step]
  cases taken : s.dispatcher.onPacket host cfg env data peer .dtls with
  | error e => simp [not_selfSends_of_throws taken]
  | ok result =>
    obtain ⟨d', out⟩ := result
    have goes := onPacket_dests taken
    have inv' : TransportInv net (some (endpointKey peer)) { s with dispatcher := d' } :=
      ⟨inv.sessions, inv.free⟩
    simp only
    cases message : answered data with
    | true =>
      rw [if_pos message] at goes
      refine iff_of_true ((deliver_one_iff inv' goes).mpr ?_) (selfSends_of_answered taken message)
      exact (leads_iff peer peer known).mpr ⟨written, rfl⟩
    | false =>
      rw [if_neg (by simp [message])] at goes
      cases relayed : relayDest host env s.dispatcher.manager data peer with
      | none =>
        rw [relayed] at goes
        obtain rfl := List.map_eq_nil_iff.mp goes
        simp [SelfSends, deliver, message, relayed]
      | some dest =>
        rw [relayed] at goes
        rw [deliver_one_iff inv' goes, leads_iff peer dest known]
        simp [SelfSends, message, relayed]

theorem handle_ok (inv : TransportInv net held s) {event : Event}
    (done : s.handle net host cfg env event = .ok s') : TransportInv net held s' := by
  unfold handle at done
  split at done
  · cases done
  · rename_i dispatcher out _
    have inv' : TransportInv net held { s with dispatcher } := ⟨inv.sessions, inv.free⟩
    exact deliver_ok inv' done

/-! ## A datagram -/

/-- The session that a datagram from here goes to, and has finished its handshake. -/
def established (s : DtlsServer) (source : Endpoint) : Bool :=
  (s.sessions.lookup (endpointKey source)).any (·.handshakeDone)

/-- A new session, with its mutex free. -/
theorem SessionsInv.insert {sessions : UnorderedMap Bytes DtlsSession}
    (inv : SessionsInv net none sessions) (source : UdpEndpoint net) :
    SessionsInv net none (sessions.insert (endpointKey source.toEndpoint)
      (⟨source.toEndpoint, false, false, []⟩ : DtlsSession)) := by
  constructor
  · intro k session found
    by_cases new : k = endpointKey source.toEndpoint
    · subst new
      rw [AList.lookup_insert] at found
      obtain rfl := Option.some.inj found
      exact ⟨rfl, source.written⟩
    · rw [AList.lookup_insert_ne new] at found
      exact inv.keyed k session found
  · intro k session found
    by_cases new : k = endpointKey source.toEndpoint
    · subst new
      rw [AList.lookup_insert] at found
      obtain rfl := Option.some.inj found
      rfl
    · rw [AList.lookup_insert_ne new] at found
      exact inv.locks k session found

/-- The session of the sender is there once its datagram has been admitted; no mutex is
taken then. -/
theorem obtainSession_ok (inv : TransportInv net none s) (source : UdpEndpoint net) :
    ∃ s', s.obtainSession source.toEndpoint = .ok s' ∧ TransportInv net none s' ∧
      s'.dispatcher = s.dispatcher ∧
      (∃ session, s'.sessions.lookup (endpointKey source.toEndpoint) = some session ∧
        session.peer = source.toEndpoint) ∧
      established s' source.toEndpoint = established s source.toEndpoint := by
  have free : sessionsMutex.locked s = false := inv.free
  rw [obtainSession, lockGuard_free _ _ free]
  have same : (sessionsMutex.set true s).sessions = s.sessions := rfl
  cases found : (sessionsMutex.set true s).sessions.lookup (endpointKey source.toEndpoint) with
  | some session =>
    have keyed := inv.sessions.keyed _ session found
    exact ⟨_, rfl, ⟨inv.sessions, rfl⟩, rfl, ⟨session, found,
      AllocationInvariant.endpointKey_injective keyed.1⟩, rfl⟩
  | none =>
    rw [same] at found
    refine ⟨_, rfl, ⟨inv.sessions.insert source, rfl⟩, rfl, ⟨_, AList.lookup_insert _, rfl⟩, ?_⟩
    simp [established, found, sessionsMutex, AList.lookup_insert]

/-- `feed` waits for itself exactly when the session is established and what it decrypts
is answered to itself. -/
theorem feed_relock_iff (inv : TransportInv net none s) (source : UdpEndpoint net)
    {session : DtlsSession}
    (found : s.sessions.lookup (endpointKey source.toEndpoint) = some session)
    (mine : session.peer = source.toEndpoint) (handshake : Bool) (decrypted : Bytes) :
    (∃ lock, s.feed net host cfg env (endpointKey source.toEndpoint) handshake decrypted =
      .error (.relock lock)) ↔
      session.handshakeDone = true ∧ decrypted ≠ [] ∧
        SelfSends net host cfg env s.dispatcher decrypted source.toEndpoint := by
  have free : (sessionMutex (endpointKey source.toEndpoint)).locked s = false := by
    rw [Bool.eq_false_iff, ne_eq, locked_iff inv.sessions]
    rintro ⟨none, _⟩
    cases none
  have taken := inv.sessions.take (endpointKey source.toEndpoint)
  have inv' : TransportInv net (some (endpointKey source.toEndpoint))
      ((sessionMutex (endpointKey source.toEndpoint)).set true s) :=
    ⟨taken, by simpa [sessionMutex] using inv.free⟩
  have inside : ((sessionMutex (endpointKey source.toEndpoint)).set true s).sessions.lookup
      (endpointKey source.toEndpoint) = some { session with locked := true } := by
    simp [sessionMutex, lookup_modify, found]
  have dispatcher : ((sessionMutex (endpointKey source.toEndpoint)).set true s).dispatcher =
      s.dispatcher := by simp [sessionMutex]
  rw [feed]
  simp only [lockGuard_error_iff free, inside, mine]
  cases session.handshakeDone with
  | false =>
    cases handshake with
    | false => simp
    | true => simp
  | true =>
    cases decrypted with
    | nil => simp
    | cons b rest =>
      simp only [Bool.not_true, Bool.false_eq_true, ↓reduceIte, List.length_cons, gt_iff_lt,
        Nat.zero_lt_succ, true_and, ne_eq, reduceCtorEq, not_false_eq_true]
      rw [handle_relock_iff source.toEndpoint inv' (by rw [inside]; rfl) source.written, dispatcher]

theorem feed_ok (inv : TransportInv net none s) {handshake : Bool} {decrypted : Bytes}
    (done : s.feed net host cfg env key handshake decrypted = .ok s') :
    TransportInv net none s' := by
  obtain ⟨_, inside, ran, rfl⟩ := lockGuard_ok done
  have inv' : TransportInv net (some key) ((sessionMutex key).set true s) :=
    ⟨inv.sessions.take key, by simpa [sessionMutex] using inv.free⟩
  have kept : TransportInv net (some key) inside := by
    split at ran
    · obtain rfl := Except.ok.inj ran
      exact inv'
    · split at ran
      · split at ran
        · obtain rfl := Except.ok.inj ran
          refine ⟨inv'.sessions.modify (fun _ => rfl) (fun session found => ?_)
            fun _ _ => Iff.rfl, by simpa using inv'.free⟩
          exact inv'.sessions.locks key session found
        · obtain rfl := Except.ok.inj ran
          exact inv'
      · split at ran
        · exact handle_ok inv' ran
        · obtain rfl := Except.ok.inj ran
          exact inv'
  exact ⟨kept.sessions.giveBack, by simpa [sessionMutex] using kept.free⟩

/-- The event makes a chain wait for itself: a datagram for an established session, which
decrypts to a packet that the dispatcher answers to the session's own endpoint. -/
def Reenters (net : AddressText) (host : Host) (cfg : Config) (s : DtlsServer)
    (input : DtlsEvent net × Env) : Prop :=
  match input.1 with
  | .datagram source data _ decrypted =>
    s.receiving = true ∧ data ≠ [] ∧ established s source.toEndpoint = true ∧ decrypted ≠ [] ∧
      SelfSends net host cfg input.2 s.dispatcher decrypted source.toEndpoint
  | .socketError => False
  | .elsewhere _ _ => False

/-- **One event** waits for a mutex of its own exactly when it re-enters. -/
theorem onEvent_relock_iff (inv : TransportInv net none s) (event : DtlsEvent net) :
    (∃ lock, s.onEvent net host cfg env event = .error (.relock lock)) ↔
      Reenters net host cfg s (event, env) := by
  cases event with
  | socketError => simp [onEvent, Reenters]
  | elsewhere event foreign =>
    simp only [onEvent, Reenters, iff_false, not_exists]
    intro lock
    unfold handle
    split
    · simp
    · rename_i dispatcher out _
      have inv' : TransportInv net none { s with dispatcher } := ⟨inv.sessions, inv.free⟩
      exact deliver_calm inv' lock
  | datagram source data handshake decrypted =>
    simp only [onEvent, Reenters]
    cases s.receiving with
    | false => simp
    | true =>
      cases data with
      | nil => simp [receive]
      | cons b rest =>
        obtain ⟨s', admitted, inv', dispatcher, ⟨session, found, mine⟩, same⟩ :=
          obtainSession_ok inv source
        have done : session.handshakeDone = established s source.toEndpoint := by
          rw [← same, established, found]
          rfl
        have fed := @feed_relock_iff host cfg env net s' inv' source session found mine handshake
          decrypted
        simp only [↓reduceIte, receive, List.length_cons, gt_iff_lt, Nat.zero_lt_succ, admitted,
          ne_eq, reduceCtorEq, not_false_eq_true, true_and]
        rw [fed, done, dispatcher]

theorem onEvent_ok (inv : TransportInv net none s) {event : DtlsEvent net}
    (done : s.onEvent net host cfg env event = .ok s') : TransportInv net none s' := by
  cases event with
  | socketError =>
    obtain rfl := Except.ok.inj done
    exact ⟨inv.sessions, inv.free⟩
  | elsewhere event foreign => exact handle_ok inv done
  | datagram source data handshake decrypted =>
    simp only [onEvent] at done
    split at done
    · unfold receive at done
      split at done
      · obtain ⟨s', admitted, inv', _⟩ := obtainSession_ok inv source
        rw [admitted] at done
        exact feed_ok inv' done
      · obtain rfl := Except.ok.inj done
        exact inv
    · obtain rfl := Except.ok.inj done
      exact inv

/-! ## Every sequence of events -/

section Runs
variable {start : TurnDispatcher}

/-- No mutex is taken between two events. -/
theorem transportInv_of_reachable (reached : Reachable (dtlsServer net host cfg start) s) :
    TransportInv net none s := by
  obtain ⟨ts, run⟩ := reached
  refine run.invariant (TransportInv net none) ⟨⟨?_, ?_⟩, rfl⟩ ?_
  · intro key session found
    simp [dtlsServer] at found
  · intro key session found
    simp [dtlsServer] at found
  · intro t before taken
    unfold Machine.Takes dtlsServer at taken
    simp only at taken
    cases ran : t.before.onEvent net host cfg t.input.2 t.input.1 with
    | error e =>
      rw [ran] at taken
      cases taken
    | ok next =>
      rw [ran] at taken
      obtain ⟨rfl, _⟩ := Prod.mk.inj (Except.ok.inj taken)
      exact onEvent_ok before ran

theorem step_relock_iff (reached : Reachable (dtlsServer net host cfg start) s)
    (input : DtlsEvent net × Env) :
    (∃ lock, (dtlsServer net host cfg start).step s input = .error (.relock lock)) ↔
      Reenters net host cfg s input := by
  rw [← onEvent_relock_iff (transportInv_of_reachable reached) input.1]
  simp only [dtlsServer]
  cases s.onEvent net host cfg input.2 input.1 with
  | error e => simp [Except.map]
  | ok next => simp [Except.map]

end Runs

/-- **When DTLS never locks a mutex it already holds.** For every sequence of events around
a dispatcher in any state: no call chain waits for a mutex that it has taken itself, if and
only if none of the events, in the state it finds, re-enters; and between the events no
mutex is taken. -/
theorem relock_free_iff (net : AddressText) (host : Host) (cfg : Config) (start : TurnDispatcher)
    (inputs : List (DtlsEvent net × Env)) :
    ((∀ lock, (dtlsServer net host cfg start).exec (dtlsServer net host cfg start).init inputs ≠
        .error (.relock lock)) ↔
      ∀ before input after ts s, inputs = before ++ input :: after →
        (dtlsServer net host cfg start).exec (dtlsServer net host cfg start).init before =
          .ok (ts, s) →
        ¬ Reenters net host cfg s input) ∧
    ∀ before after ts s, inputs = before ++ after →
      (dtlsServer net host cfg start).exec (dtlsServer net host cfg start).init before =
        .ok (ts, s) →
      s.sessionsLocked = false ∧
        ∀ key session, s.sessions.lookup key = some session → session.locked = false := by
  have reached {before ts s} (done : (dtlsServer net host cfg start).exec
      (dtlsServer net host cfg start).init before = .ok (ts, s)) :
      Reachable (dtlsServer net host cfg start) s := ⟨_, Run.start.exec done⟩
  constructor
  · constructor
    · intro calm before input after ts s whole done reenters
      obtain ⟨lock, waits⟩ := (step_relock_iff (reached done) input).mpr reenters
      exact calm lock (Machine.exec_error_iff.mpr ⟨before, input, after, ts, s, whole, done, waits⟩)
    · intro calm lock waits
      obtain ⟨before, input, after, ts, s, whole, done, waits⟩ := Machine.exec_error_iff.mp waits
      exact calm before input after ts s whole done
        ((step_relock_iff (reached done) input).mp ⟨lock, waits⟩)
  · intro before after ts s _ done
    have inv := transportInv_of_reachable (reached done)
    refine ⟨inv.free, fun key session found => ?_⟩
    rw [inv.sessions.locks key session found]
    rfl

/-! ## The first request -/

/-- Dotted decimal text, and nothing else, is an address. -/
def dottedText : AddressText where
  canonical text := (inetPton text).map dottedQuad
  rereads text written read := by
    obtain ⟨ip, _, rfl⟩ := Option.map_eq_some_iff.mp read
    rw [inetPton_dottedQuad]
    rfl

def aliceSocket : UdpEndpoint dottedText := ⟨Deployment.aliceAddr, by decide +kernel⟩

/-- A client finishes its handshake, and sends an Allocate without credentials. -/
def firstRequest : List (DtlsEvent dottedText × Env) :=
  [(.datagram aliceSocket [22] true [], Deployment.surroundings 0),
    (.datagram aliceSocket [23] false
      (MessageBuilder.new .allocate .request (Vector.replicate 12 0)).build,
      Deployment.surroundings 0)]

/-- How a computation failed. -/
def faultOf (result : Except DtlsFault α) : Option DtlsFault :=
  match result with
  | .error fault => some fault
  | .ok _ => none

/-- The challenge to the first request goes back through the session that is being fed. -/
theorem first_request_relocks : ¬ ∀ net host cfg start (inputs : List (DtlsEvent net × Env)) lock,
    (dtlsServer net host cfg start).exec (dtlsServer net host cfg start).init inputs ≠
      .error (.relock lock) := by
  intro calm
  have stuck : faultOf ((dtlsServer dottedText Deployment.host Deployment.config
      TurnDispatcher.init).exec (dtlsServer dottedText Deployment.host Deployment.config
        TurnDispatcher.init).init firstRequest) =
      some (.relock (.session (endpointKey Deployment.aliceAddr))) := by decide +kernel
  cases ran : (dtlsServer dottedText Deployment.host Deployment.config
      TurnDispatcher.init).exec (dtlsServer dottedText Deployment.host Deployment.config
        TurnDispatcher.init).init firstRequest with
  | ok result =>
    rw [ran] at stuck
    cases stuck
  | error fault =>
    rw [ran] at stuck
    obtain rfl := Option.some.inj stuck
    exact calm _ _ _ _ _ _ ran

end Zaza.DtlsLocks
