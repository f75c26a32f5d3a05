import Zaza.StreamSafety

/-!
The server with its sockets is the server.

However bytes arrive at the stream sessions, and whatever connects, fails or closes
in between, the dispatcher goes through a run of its own, with the packets that were
completed as its events (`dispatched`). What a session hands over depends on its own
bytes only: it is what the reader makes of them, under the session's own address and
transport.
-/
namespace Zaza.StreamRefinement
open Zaza ExactReader StreamServer StreamSafety

abbrev SocketStep := Transition StreamServer (SocketEvent × Env) (List Sent)

/-- The step of the dispatcher inside a step at the sockets. -/
def dispatched (t : SocketStep) :
    Option (Transition TurnDispatcher (Event × Env) (List Sent)) :=
  (t.before.packet t.input.1).map fun event =>
    ⟨t.before.dispatcher, (event, t.input.2), t.after.dispatcher, t.output⟩

/-- The byte a session reads in a step. -/
def byteFor (i : Nat) (t : SocketStep) : Option UInt8 :=
  match t.input.1 with
  | .byte j b =>
    if j = i ∧ (t.before.sessions[i]?.bind (·.reads)).isSome then some b else none
  | _ => none

/-- The packet a session hands over in a step. -/
def handed (i : Nat) (t : SocketStep) : Option Event :=
  match t.input.1 with
  | .byte j _ => if j = i then t.before.packet t.input.1 else none
  | _ => none

/-- A packet of a session. -/
def packetOf (session : StreamSession) (r : Received) : Event :=
  .packet r.data session.sender session.kind.transport

variable {host : Host} {cfg : Config} {s : StreamServer} {t : SocketStep} {ts : List SocketStep}
  {i : Nat}

/-! ## The dispatcher -/

theorem dispatched_run (run : Run (streamServer host cfg) ts s) :
    Run (turnServer host cfg) (ts.filterMap dispatched) s.dispatcher := by
  refine run.project StreamServer.dispatcher dispatched rfl fun t taken => ?_
  rcases stream_step taken with ⟨quiet, after⟩ | ⟨event, dispatcher, reaches, stepped, after⟩
  · refine .inl ⟨by simp [dispatched, quiet], ?_⟩
    rw [after, socket_dispatcher]
  · have last : t.after.dispatcher = dispatcher := by
      rw [after, sendAll_dispatcher]
    refine .inr ⟨_, by rw [dispatched, reaches, Option.map_some], rfl, rfl, ?_⟩
    rw [last]
    exact stepped

/-! ## The reader -/

/-- A read that has completed a frame goes on with the next one. -/
theorem completed_single (phase : Reading) (buf : Bytes) :
    (sessionReader.completed phase buf).2 = [] ∨
    (sessionReader.completed phase buf).1 = .firstByte ∧
      (sessionReader.completed phase buf).2.length = 1 := by
  cases phase with
  | firstByte =>
    simp only [sessionReader, Reading.completed]
    split <;> simp
  | stunHeader first => exact .inl rfl
  | stunBody header attrsLen => exact .inr ⟨rfl, rfl⟩
  | channelHeader first => exact .inl rfl
  | channelBody header dataLen paddedLen => exact .inr ⟨rfl, rfl⟩

theorem issue_single (phase : Reading) : (sessionReader.issue phase).2.length ≤ 1 := by
  unfold issue
  split
  · rcases completed_single phase [] with none | ⟨_, one⟩
    · simp [none]
    · exact one.le
  · simp

/-- A byte never completes two frames. -/
theorem item_single (reads : ReadState) (b : UInt8) :
    (sessionReader.item reads b).2 = (sessionReader.item reads b).2.head?.toList := by
  have short : (sessionReader.item reads b).2.length ≤ 1 := by
    unfold item
    split
    · simp
    · simp only [List.length_append]
      rcases completed_single reads.phase (reads.filled ++ [b]) with none | ⟨boundary, one⟩
      · rw [none]
        simpa using issue_single _
      · have waits : (sessionReader.issue .firstByte).2 = [] := rfl
        rw [boundary, waits, one]
        simp
  cases out : (sessionReader.item reads b).2 with
  | nil => rfl
  | cons r rest =>
    rw [out] at short
    cases rest with
    | nil => rfl
    | cons r' rest => simp at short

/-- One more byte. -/
theorem run_concat (bytes : Bytes) (b : UInt8) :
    sessionReader.run .firstByte (bytes ++ [b]) =
      ((sessionReader.item (sessionReader.run .firstByte bytes).1 b).1,
        (sessionReader.run .firstByte bytes).2 ++
          (sessionReader.item (sessionReader.run .firstByte bytes).1 b).2) := by
  simp [ExactReader.run, feed_append, feed]

/-! ## The sessions -/

/-- A session without what has been written to it. -/
def core (session : StreamSession) : StreamSession := { session with written := [] }

def cores (s : StreamServer) : List StreamSession := s.sessions.map core

theorem cores_modify (s : StreamServer) (j : Nat) {f g : StreamSession → StreamSession}
    (same : ∀ session, core (f session) = g (core session)) :
    (s.sessions.modify j f).map core = (cores s).modify j g := by
  apply List.ext_getElem?
  intro k
  simp only [cores, List.getElem?_map, List.getElem?_modify]
  cases s.sessions[k]? with
  | none => rfl
  | some session =>
    by_cases here : j = k <;> simp [here, same]

theorem cores_send (s : StreamServer) (sent : Sent) : cores (s.send sent) = cores s := by
  unfold StreamServer.send
  cases (s.table sent.via).lookup (endpointKey sent.dest) with
  | none => rfl
  | some j =>
    have unchanged := cores_modify s j (g := id) (f := fun session : StreamSession =>
      { session with written := session.written ++ [sent.data] }) fun session => rfl
    rw [List.modify_id] at unchanged
    exact unchanged

theorem cores_sendAll (s : StreamServer) (out : List Sent) :
    cores (out.foldl StreamServer.send s) = cores s := by
  induction out generalizing s with
  | nil => rfl
  | cons sent out ih => rw [List.foldl_cons, ih, cores_send]

theorem step_cores (taken : (streamServer host cfg).Takes t) :
    cores t.after = cores (t.before.socket t.input.1) := by
  rcases stream_step taken with ⟨_, after⟩ | ⟨event, dispatcher, _, _, after⟩
  · rw [after]
  · rw [after, cores_sendAll]
    rfl

theorem cores_setReads (s : StreamServer) (j : Nat) (reads : Option ReadState) :
    cores (s.setReads j reads) =
      (cores s).modify j fun c => { c with handshaking := false, reads } :=
  cores_modify s j fun _ => rfl

theorem cores_removeSession (s : StreamServer) (session : StreamSession) :
    cores (s.removeSession session) = cores s := by
  rw [cores, (removeSession_sessions s session).1]
  rfl

/-- What becomes of a session in a step, with the byte it reads. -/
inductive Progress (c : StreamSession) : StreamSession → Option UInt8 → Prop where
  | keep : Progress c c none
  | stop : Progress c { c with handshaking := false, reads := none } none
  | ready : c.handshaking = true →
      Progress c { c with handshaking := false, reads := some ReadState.boundary } none
  | read (r : ReadState) (b : UInt8) : c.reads = some r →
      Progress c { c with handshaking := false, reads := some (sessionReader.item r b).1 } (some b)

theorem getElem?_cores {session : StreamSession} (found : s.sessions[i]? = some session) :
    (cores s)[i]? = some (core session) := by
  simp [cores, found]

/-- A session that is not concerned, and one that is. -/
theorem progress_setReads {c : StreamSession} {j : Nat} {reads : Option ReadState}
    {b : Option UInt8} (there : (cores s)[i]? = some c)
    (mine : j = i → Progress c { c with handshaking := false, reads } b)
    (other : j ≠ i → b = none) :
    ∃ c', (cores (s.setReads j reads))[i]? = some c' ∧ Progress c c' b := by
  rw [cores_setReads, List.getElem?_modify, there]
  by_cases here : j = i
  · exact ⟨_, by simp [here], mine here⟩
  · obtain rfl := other here
    exact ⟨c, by simp [here], .keep⟩

theorem cores_accept (s : StreamServer) (kind : StreamKind) (sender : Endpoint) :
    cores (s.accept kind sender) = cores s ++ [⟨kind, sender, kind = .tls,
      if kind = .tcp then some ReadState.boundary else none, []⟩] := by
  cases kind with
  | tcp =>
    simp only [cores, StreamServer.accept, List.map_append]
    rfl
  | tls =>
    simp only [cores, StreamServer.accept, List.map_append]
    rfl

/-- **What a step does to a session.** -/
theorem step_progress {c : StreamSession} (taken : (streamServer host cfg).Takes t)
    (there : (cores t.before)[i]? = some c) :
    ∃ c', (cores t.after)[i]? = some c' ∧ Progress c c' (byteFor i t) := by
  rw [step_cores taken]
  obtain ⟨before, ⟨event, env⟩, after, output⟩ := t
  replace there : (cores before)[i]? = some c := there
  cases event with
  | accept kind sender =>
    refine ⟨c, ?_, .keep⟩
    obtain ⟨inside, _⟩ := List.getElem?_eq_some_iff.mp there
    simp only [StreamServer.socket, cores_accept]
    rw [List.getElem?_append_left inside, there]
  | handshake j error =>
    simp only [StreamServer.socket, byteFor]
    cases found : before.sessions[j]? with
    | none => exact ⟨c, there, .keep⟩
    | some session =>
      simp only
      split
      · rename_i handshaking
        have moved := @progress_setReads before i c j (TlsSession.handshaken error) none there
          (fun here => by
            subst here
            obtain rfl := Option.some.inj ((getElem?_cores found).symm.trans there)
            cases error with
            | true => exact .stop
            | false => exact .ready handshaking)
          (fun _ => rfl)
        split
        · rw [cores_removeSession]
          exact moved
        · exact moved
      · exact ⟨c, there, .keep⟩
  | byte j b =>
    simp only [StreamServer.socket, byteFor]
    cases found : before.sessions[j]? with
    | none =>
      refine ⟨c, there, ?_⟩
      have other : j ≠ i := by
        rintro rfl
        simp [cores, found] at there
      simp only [other, false_and, ↓reduceIte]
      exact .keep
    | some session =>
      simp only
      cases reads : session.reads with
      | none =>
        refine ⟨c, there, ?_⟩
        have silent : ¬ (j = i ∧ (before.sessions[i]?.bind (·.reads)).isSome = true) := by
          rintro ⟨rfl, reading⟩
          simp [found, reads] at reading
        rw [if_neg silent]
        exact .keep
      | some r =>
        refine progress_setReads there (fun here => ?_) fun other => by simp [other]
        subst here
        obtain rfl := Option.some.inj ((getElem?_cores found).symm.trans there)
        rw [if_pos ⟨rfl, by simp [found, reads]⟩]
        exact .read r b reads
  | readError j =>
    simp only [StreamServer.socket, byteFor]
    cases before.sessions[j]? with
    | none => exact ⟨c, there, .keep⟩
    | some session =>
      simp only [cores_removeSession]
      exact progress_setReads there (fun _ => .stop) fun _ => rfl
  | writeError j =>
    simp only [StreamServer.socket, byteFor]
    cases before.sessions[j]? with
    | none => exact ⟨c, there, .keep⟩
    | some session =>
      simp only [cores_removeSession]
      exact ⟨c, there, .keep⟩
  | datagram data sender dtls => exact ⟨c, there, .keep⟩
  | peerData data peer relayAddr => exact ⟨c, there, .keep⟩

/-- Only `accept` makes sessions. -/
theorem new_session {c : StreamSession} (taken : (streamServer host cfg).Takes t)
    (absent : (cores t.before)[i]? = none) (found : (cores t.after)[i]? = some c) :
    ∃ kind sender, c = ⟨kind, sender, kind = .tls,
      if kind = .tcp then some ReadState.boundary else none, []⟩ := by
  rw [step_cores taken] at found
  obtain ⟨before, ⟨event, env⟩, after, output⟩ := t
  replace absent : (cores before)[i]? = none := absent
  have kept (s : StreamServer) (same : (cores s).length = (cores before).length) :
      (cores s)[i]? = none := by
    rw [List.getElem?_eq_none_iff] at absent ⊢
    omega
  have modified (j : Nat) (reads : Option ReadState) :
      (cores (before.setReads j reads)).length = (cores before).length := by
    rw [cores_setReads, List.length_modify]
  cases event with
  | accept kind sender =>
    simp only [StreamServer.socket, cores_accept] at found
    rw [List.getElem?_append_right (List.getElem?_eq_none_iff.mp absent),
      List.getElem?_singleton] at found
    split at found
    · exact ⟨kind, sender, (Option.some.inj found).symm⟩
    · cases found
  | handshake j error =>
    rw [kept] at found
    · cases found
    · simp only [StreamServer.socket]
      split
      · split
        · split
          · rw [cores_removeSession, modified]
          · exact modified _ _
        · rfl
      · rfl
  | byte j b =>
    rw [kept] at found
    · cases found
    · simp only [StreamServer.socket]
      split
      · split
        · exact modified _ _
        · rfl
      · rfl
  | readError j =>
    rw [kept] at found
    · cases found
    · simp only [StreamServer.socket]
      split
      · rw [cores_removeSession, modified]
      · rfl
  | writeError j =>
    rw [kept] at found
    · cases found
    · simp only [StreamServer.socket]
      split
      · rw [cores_removeSession]
      · rfl
  | datagram data sender dtls => cases absent.symm.trans found
  | peerData data peer relayAddr => cases absent.symm.trans found

/-- What a session hands over is what the byte it reads completes. -/
theorem handed_eq {c : StreamSession} (there : (cores t.before)[i]? = some c) :
    handed i t = (byteFor i t).bind fun b => c.reads.bind fun r =>
      (sessionReader.item r b).2.head?.map (packetOf c) := by
  obtain ⟨before, ⟨event, env⟩, after, output⟩ := t
  replace there : (cores before)[i]? = some c := there
  rw [cores, List.getElem?_map] at there
  obtain ⟨session, found, rfl⟩ := Option.map_eq_some_iff.mp there
  cases event with
  | byte j b =>
    simp only [handed, byteFor]
    by_cases here : j = i
    · subst here
      cases reads : session.reads with
      | none => simp [packet, received, found, reads, core]
      | some r =>
        simp only [packet, received, found, reads, core, Option.bind_some, Option.map_map,
          Option.isSome_some, and_self, ↓reduceIte]
        rfl
    · simp [here]
  | _ => rfl

/-- A session that there is not yet has neither read nor handed over anything. -/
theorem quiet_of_absent (absent : (cores t.before)[i]? = none) :
    byteFor i t = none ∧ handed i t = none := by
  obtain ⟨before, ⟨event, env⟩, after, output⟩ := t
  replace absent : (cores before)[i]? = none := absent
  have absent : before.sessions[i]? = none := by
    rw [cores, List.getElem?_map] at absent
    exact Option.map_eq_none_iff.mp absent
  cases event with
  | byte j b =>
    simp only [handed, byteFor, absent]
    refine ⟨by simp, ?_⟩
    split
    · rename_i here
      subst here
      simp [packet, received, absent]
    · rfl
  | _ => exact ⟨rfl, rfl⟩

/-- The bytes a session has read. -/
def bytesOf (i : Nat) (ts : List SocketStep) : Bytes := ts.filterMap (byteFor i)

/-- The packets a session has handed over. -/
def packetsOf (i : Nat) (ts : List SocketStep) : List Event := ts.filterMap (handed i)

/-- Where a session is, and what it has handed over, by the bytes it has read. -/
structure Reads (ts : List SocketStep) (i : Nat) (c : StreamSession) : Prop where
  untouched : c.handshaking = true → bytesOf i ts = []
  underway : ∀ r, c.reads = some r → r = (sessionReader.run .firstByte (bytesOf i ts)).1
  handedOver : packetsOf i ts =
    (sessionReader.run .firstByte (bytesOf i ts)).2.map (packetOf c)

theorem Reads.next {c c' : StreamSession} (reads : Reads ts i c)
    (progress : Progress c c' (byteFor i t))
    (given : handed i t = (byteFor i t).bind fun b => c.reads.bind fun r =>
      (sessionReader.item r b).2.head?.map (packetOf c)) : Reads (ts ++ [t]) i c' := by
  generalize read : byteFor i t = b at progress given
  have bytes : bytesOf i (ts ++ [t]) = bytesOf i ts ++ b.toList := by
    simp only [bytesOf, List.filterMap_append, List.filterMap_cons, read, List.filterMap_nil]
    cases b <;> rfl
  have packets : packetsOf i (ts ++ [t]) = packetsOf i ts ++ (handed i t).toList := by
    simp only [packetsOf, List.filterMap_append, List.filterMap_cons, List.filterMap_nil]
    cases handed i t <;> rfl
  rw [given] at packets
  obtain ⟨untouched, underway, handedOver⟩ := reads
  cases progress with
  | keep =>
    rw [Option.toList_none, List.append_nil] at bytes
    exact ⟨fun waits => bytes.trans (untouched waits), fun r found => bytes ▸ underway r found,
      by rw [packets, bytes, handedOver]; simp⟩
  | stop =>
    rw [Option.toList_none, List.append_nil] at bytes
    refine ⟨fun waits => (by cases waits), fun r found => (by cases found), ?_⟩
    rw [packets, bytes, handedOver, Option.bind_none, Option.toList_none, List.append_nil]
    rfl
  | ready waits =>
    rw [Option.toList_none, List.append_nil, untouched waits] at bytes
    rw [untouched waits] at handedOver
    refine ⟨fun waits => (by cases waits), fun r found => ?_, ?_⟩
    · rw [bytes, ← Option.some.inj found]
      rfl
    · rw [packets, bytes, handedOver, Option.bind_none, Option.toList_none, List.append_nil]
      rfl
  | read r b reading =>
    have here := underway r reading
    rw [Option.toList_some] at bytes
    refine ⟨fun waits => (by cases waits), fun r' found => ?_, ?_⟩
    · rw [bytes, run_concat, ← here, ← Option.some.inj found]
    · rw [packets, bytes, run_concat, handedOver, List.map_append, ← here, item_single]
      simp only [reading, Option.bind_some]
      cases (sessionReader.item r b).2.head? <;> rfl

/-- A session as it is accepted. -/
theorem reads_accepted (unread : bytesOf i ts = []) (silent : packetsOf i ts = [])
    (kind : StreamKind) (sender : Endpoint) :
    Reads ts i ⟨kind, sender, kind = .tls, if kind = .tcp then some ReadState.boundary else none,
      []⟩ := by
  refine ⟨fun _ => unread, fun r found => ?_, ?_⟩
  · cases kind with
    | tcp =>
      rw [unread, ← Option.some.inj found]
      rfl
    | tls => cases found
  · rw [silent, unread]
    rfl

theorem reads_of_run (run : Run (streamServer host cfg) ts s) :
    (∀ c, (cores s)[i]? = some c → Reads ts i c) ∧
      ((cores s)[i]? = none → bytesOf i ts = [] ∧ packetsOf i ts = []) := by
  refine run.invariant_with_history (fun ts s => (∀ c, (cores s)[i]? = some c → Reads ts i c) ∧
      ((cores s)[i]? = none → bytesOf i ts = [] ∧ packetsOf i ts = []))
    ⟨fun c found => ?_, fun _ => ⟨rfl, rfl⟩⟩ fun earlier t ⟨known, unknown⟩ taken => ?_
  · cases found
  · cases there : (cores t.before)[i]? with
    | some c =>
      obtain ⟨c', found, progress⟩ := step_progress taken there
      rw [found]
      refine ⟨fun c'' same => ?_, fun absent => by cases absent⟩
      obtain rfl := Option.some.inj same
      exact (known c there).next progress (handed_eq there)
    | none =>
      obtain ⟨unread, silent⟩ := unknown there
      obtain ⟨noByte, noPacket⟩ := quiet_of_absent there
      have bytes : bytesOf i (earlier ++ [t]) = [] := by
        rw [bytesOf, List.filterMap_append, List.filterMap_cons_none noByte, List.filterMap_nil,
          List.append_nil]
        exact unread
      have packets : packetsOf i (earlier ++ [t]) = [] := by
        rw [packetsOf, List.filterMap_append, List.filterMap_cons_none noPacket, List.filterMap_nil,
          List.append_nil]
        exact silent
      refine ⟨fun c found => ?_, fun _ => ⟨bytes, packets⟩⟩
      obtain ⟨kind, sender, rfl⟩ := new_session taken there found
      exact reads_accepted bytes packets kind sender

/-- **The sockets refine the dispatcher.** In every run of the server with its sockets, the
dispatcher goes through a run of its own, with the packets as events and the same output.
Each stream session hands over what the reader makes of its own bytes, as packets from its
own address on its own transport; so if these are a sequence of frames, exactly their
data, in order. -/
theorem sockets_refine_dispatcher (host : Host) (cfg : Config)
    (run : Run (streamServer host cfg) ts s) :
    Run (turnServer host cfg) (ts.filterMap dispatched) s.dispatcher ∧
    ∀ i session, s.sessions[i]? = some session →
      packetsOf i ts =
        (sessionReader.run .firstByte (bytesOf i ts)).2.map (packetOf session) ∧
      ∀ frames : List Bytes, (∀ f ∈ frames, IsFrame f) → bytesOf i ts = frames.flatten →
        packetsOf i ts = frames.map fun f =>
          .packet (frameData f) session.sender session.kind.transport := by
  refine ⟨dispatched_run run, fun i session found => ?_⟩
  have handedOver := ((reads_of_run run).1 (core session) (getElem?_cores found)).handedOver
  refine ⟨handedOver, fun frames each whole => ?_⟩
  obtain ⟨received, data, _, read⟩ := StreamFrames.run_frames each
  have packets : received.map (packetOf (core session)) = (received.map Received.data).map fun d =>
      .packet d session.sender session.kind.transport := by
    rw [List.map_map]
    rfl
  rw [handedOver, whole, read, packets, data, List.map_map]
  rfl

/-- Two clients connect over TCP, and the bytes of their first requests arrive by turns. -/
theorem sockets_refine_dispatcher_by_turns :
    ∃ ts s bare, Run (streamServer Deployment.host Deployment.config) ts s ∧
      Run (turnServer Deployment.host Deployment.config) (ts.filterMap dispatched) s.dispatcher ∧
      packetsOf 0 ts = [.packet bare Deployment.aliceAddr .tcp] ∧
      packetsOf 1 ts = [.packet bare Deployment.bobAddr .tcp] := by
  let bare := (MessageBuilder.new .allocate .request (Vector.replicate 12 0)).build
  let env : Env := { Deployment.surroundings 0 with
    randBytes := [Vector.replicate 16 0, Vector.replicate 16 1] }
  obtain ⟨ts, s, run, check⟩ := Run.of_exec (streamServer Deployment.host Deployment.config)
    ([(.accept .tcp Deployment.aliceAddr, env), (.accept .tcp Deployment.bobAddr, env)] ++
      bare.flatMap fun b => [(.byte 0 b, env), (.byte 1 b, env)])
    (fun ts s => bytesOf 0 ts = bare ∧ bytesOf 1 ts = bare ∧
      s.sessions[0]?.any (fun session => session.sender = Deployment.aliceAddr ∧
        session.kind = .tcp) = true ∧
      s.sessions[1]?.any (fun session => session.sender = Deployment.bobAddr ∧
        session.kind = .tcp) = true)
    (by decide +kernel)
  obtain ⟨aliceBytes, bobBytes, alice, bob⟩ := of_decide_eq_true check
  obtain ⟨session₀, found₀, mine₀⟩ := (Option.any_eq_true _ _).mp alice
  obtain ⟨session₁, found₁, mine₁⟩ := (Option.any_eq_true _ _).mp bob
  obtain ⟨sender₀, kind₀⟩ := of_decide_eq_true mine₀
  obtain ⟨sender₁, kind₁⟩ := of_decide_eq_true mine₁
  have frame : ∀ f ∈ [bare], IsFrame f := by decide +kernel
  have whole : frameData bare = bare := by decide +kernel
  obtain ⟨inner, sessions⟩ := sockets_refine_dispatcher Deployment.host Deployment.config run
  have packets₀ := (sessions 0 session₀ found₀).2 [bare] frame (by simpa using aliceBytes)
  have packets₁ := (sessions 1 session₁ found₁).2 [bare] frame (by simpa using bobBytes)
  rw [List.map_singleton, whole, sender₀, kind₀] at packets₀
  rw [List.map_singleton, whole, sender₁, kind₁] at packets₁
  exact ⟨ts, s, bare, run, inner, packets₀, packets₁⟩

end Zaza.StreamRefinement
