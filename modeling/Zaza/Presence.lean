import Zaza.CallLife
import Zaza.Client
import Zaza.WsServer

/-!
Whether the users of the active calls are there.

The connections are the business of the WebSocket server and the calls that of
the call manager, and nothing tells the one of the other: `removeSession` ends no
call. A call that rings is swept when it has rung too long; an active call ends
with a `call.hangup` and with nothing else. So everybody in an active call has an
open connection exactly as long as nobody leaves an active call by disconnecting,
and nobody takes up a call whose caller is gone.
-/
namespace Zaza.Presence
open Zaza CallManager CallInvariant CallLife

/-- The user has an open WebSocket session. -/
def Online (ws : WsServer) (u : Bytes) : Prop :=
  ∃ s ∈ ws.accepted, s.userId = u ∧ s.phase = .established

/-- The user takes part in an active call. -/
def InActiveCall (m : CallManager) (u : Bytes) : Prop :=
  ∃ id s, m.find id = some s ∧ s.state = .active ∧ u ∈ participants s

/-- No close callback is outstanding. -/
def CallbacksDone (b : Backend) : Prop :=
  ∀ s ∈ b.ws.accepted, s.phase = .closed → s.reading = false ∧ s.writes = 0

/-- Once the timer has run after the last moment a call of the user may ring, the user
can call everybody who is free. -/
def CanCallAgain (m : CallManager) (u : Bytes) : Prop :=
  ∀ env, (∀ id s, m.find id = some s → u ∈ participants s →
      env.now - s.createdAt > m.ringTimeout * 1000000000) →
    ∀ env' v, (Router.checkExpired env m).1.isBusy v = false →
      ∃ id, ((Router.checkExpired env m).1.create env' u v).1 = .ok id

/-- The call a message takes up, if it takes one up. -/
def takenUp (m : CallManager) (userId : Bytes) (raw : Option Json) : Option CallSession :=
  match operation userId raw with
  | some (.accept id calleeId) => (m.ringingFor id calleeId).toOption
  | _ => none

/-- The step does not leave an active call without one of its users: the last open
session of a user ends only while the user is in no active call, and a call is taken
up only while its caller is there. -/
def Kept (b : Backend) : BackendInput → Prop
  | .close k => ∀ s ∈ b.ws.accepted[k]?, s.phase = .established → InActiveCall b.calls s.userId →
      ∃ other ∈ b.ws.accepted.eraseIdx k, other.userId = s.userId ∧ other.phase = .established
  | .message k raw _ => ∀ s ∈ b.ws.accepted[k]?, s.phase = .established →
      ∀ call ∈ takenUp b.calls s.userId raw, Online b.ws call.callerId
  | _ => True

/-! ## Calls -/

variable {m : CallManager} {env : BackendEnv}

/-- An active call was active before, or is being taken up. -/
theorem active_origin (op : CallOp) (found : (m.call env op).2.sessions.lookup c = some s')
    (active : s'.state = .active) : m.sessions.lookup c = some s' ∨
      ∃ u s, op = .accept c u ∧ m.sessions.lookup c = some s ∧ s.state = .ringing ∧
        s.calleeId = u ∧ s' = { s with state := .active } := by
  cases op with
  | create callerId calleeId =>
    simp only [call, create] at found
    split at found
    · exact .inl found
    split at found
    · exact .inl found
    simp only [Prod.map, id_eq, lookup_put] at found
    split at found
    · obtain rfl := Option.some.inj found
      cases active
    · exact .inl found
  | accept callId calleeId =>
    simp only [call, accept] at found
    cases checked : m.ringingFor callId calleeId with
    | error e =>
      rw [checked] at found
      exact .inl found
    | ok s =>
      obtain ⟨stored, rings, callee⟩ := ringingFor_eq_ok.mp checked
      simp only [checked, Prod.map, id_eq, lookup_put] at found
      split at found
      · subst_vars
        obtain rfl := Option.some.inj found
        exact .inr ⟨_, s, rfl, stored, rings, rfl, rfl⟩
      · exact .inl found
  | reject callId calleeId =>
    simp only [call, reject] at found
    cases checked : m.ringingFor callId calleeId with
    | error e =>
      rw [checked] at found
      exact .inl found
    | ok s =>
      simp only [checked, Prod.map, id_eq, lookup_end] at found
      split at found
      · cases found
      · exact .inl found
  | hangup callId userId =>
    simp only [call, hangup] at found
    cases stored : m.sessions.lookup callId with
    | none =>
      simp only [stored] at found
      exact .inl found
    | some s =>
      simp only [stored] at found
      split at found
      · exact .inl found
      · simp only [Prod.map, id_eq, lookup_end] at found
        split at found
        · cases found
        · exact .inl found
  | expireRinging =>
    have lookup := expireRinging_lookup env m c
    exact .inl (Option.filter_eq_some_iff.mp (lookup.symm.trans found)).1

/-- Who takes a call up does so for itself. -/
theorem operation_accept {userId u id : Bytes} {raw : Option Json}
    (asked : operation userId raw = some (.accept id u)) : u = userId := by
  cases raw with
  | none => cases asked
  | some msg =>
    simp only [operation, Option.bind_eq_bind, Option.bind_some] at asked
    cases type : msg.stringMember "type" with
    | none => simp [type] at asked
    | some type =>
      simp only [type, Option.bind_some] at asked
      split at asked
      · simp at asked
      split at asked
      · simp at asked
        exact asked.2.symm
      split at asked
      · simp at asked
      split at asked
      · simp at asked
      · simp at asked

/-! ## Connections -/

variable {ws : WsServer} {u : Bytes}

theorem online_modify {f : WsSession → WsSession} (online : Online ws u) (k : Nat)
    (user : ∀ s, (f s).userId = s.userId)
    (phase : ∀ s, s.phase = .established → (f s).phase = .established) :
    Online (ws.modify k f) u := by
  obtain ⟨s, member, mine, established⟩ := online
  obtain ⟨j, found⟩ := List.mem_iff_getElem?.mp member
  refine ⟨if k = j then f s else s, List.mem_iff_getElem?.mpr ⟨j, ?_⟩, ?_, ?_⟩
  · simp [WsServer.modify, List.getElem?_modify, found]
  · split
    · rw [user, mine]
    · exact mine
  · split
    · exact phase s established
    · exact established

/-- A session that ends takes nothing from the users of the others. -/
theorem online_close {k : Nat} {s : WsSession} (other : s ∈ ws.accepted.eraseIdx k)
    (established : s.phase = .established) :
    Online (ws.modify k fun s => { s with phase := .closed }) s.userId := by
  obtain ⟨j, differs, found⟩ := List.mem_eraseIdx_iff_getElem?.mp other
  refine ⟨s, List.mem_iff_getElem?.mpr ⟨j, ?_⟩, rfl, established⟩
  simp [WsServer.modify, found, Ne.symm differs]

theorem online_sendAll (online : Online ws u) (sent : List Outgoing) :
    Online (ws.sendAll sent).2 u := by
  induction sent generalizing ws with
  | nil => exact online
  | cons out rest ih =>
    simp only [WsServer.sendAll, WsServer.send]
    cases ws.sessions.lookup out.userId with
    | none => exact ih online
    | some k => exact ih (online_modify online k (fun _ => rfl) fun _ established => established)

theorem online_accept (online : Online ws u) (verifyToken : Bytes → Option Bytes)
    (target : Bytes) : Online (ws.accept verifyToken target) u := by
  unfold WsServer.accept
  simp only
  split
  · exact online
  · cases verifyToken (WsServer.extractToken target) with
    | none => exact online
    | some userId =>
      obtain ⟨s, member, mine⟩ := online
      exact ⟨s, List.mem_append_left _ member, mine⟩

/-! ## Every run -/

variable {b : Backend} {cfg : RouterConfig}

/-- The invariant: the call table is sound, and whoever is in an active call is there. -/
structure Present (b : Backend) : Prop where
  table : Table b.calls
  online : ∀ u, InActiveCall b.calls u → Online b.ws u

/-- A step that is about connections only. -/
theorem Present.setWs (present : Present b)
    (online : ∀ u, InActiveCall b.calls u → Online b.ws u → Online ws u) :
    Present (b.setWs ws).1 :=
  ⟨present.table, fun u active => online u active (present.online u active)⟩

/-- Something that happens to a session, or does not. -/
theorem Present.onSession {k : Nat} {enabled : WsSession → Bool}
    {act : WsSession → Backend × List (Nat × Json)} (present : Present b)
    (acts : ∀ s, b.ws.accepted[k]? = some s → enabled s = true → Present (act s).1) :
    Present (b.onSession k enabled act).1 := by
  unfold Backend.onSession
  cases found : b.ws.accepted[k]? with
  | none => exact present
  | some s =>
    simp only
    split
    · exact acts s found ‹_›
    · exact present

/-- What the router does with a message of a user who is there. -/
theorem Present.handle {userId : Bytes} {raw : Option Json} (present : Present b)
    (there : Online b.ws userId)
    (kept : ∀ call ∈ takenUp b.calls userId raw, Online b.ws call.callerId) :
    Present (b.answer (Router.handle cfg env b.calls userId raw)).1 := by
  have handled := handle_cases cfg env b.calls userId raw
  generalize Router.handle cfg env b.calls userId raw = result at handled
  obtain ⟨calls, sent⟩ := result
  have unchanged : calls = b.calls → Present (b.answer (calls, sent)).1 := by
    rintro rfl
    exact ⟨present.table, fun u active => online_sendAll (present.online u active) sent⟩
  cases handled with
  | done op reply c event asked done named =>
    refine ⟨present.table.preserved env op, ?_⟩
    rintro u ⟨id, s', found, active, member⟩
    refine online_sendAll ?_ _
    rcases active_origin op found active with
      before | ⟨calleeId, s, rfl, stored, rings, callee, rfl⟩
    · exact present.online u ⟨id, s', before, active, member⟩
    · -- The call is being taken up: by the sender, whose caller is there.
      have taken : takenUp b.calls userId raw = some s := by
        simp [takenUp, asked, ringingFor_eq_ok.mpr ⟨stored, rings, callee⟩, Except.toOption]
      rcases member with rfl | rfl
      · exact kept s taken
      · obtain rfl : s.calleeId = userId := callee.trans (operation_accept asked)
        exact there
  | refused op e asked failed => exact unchanged rfl
  | error reason asked => exact unchanged rfl
  | relay msg callId s asked text type named found => exact unchanged rfl

theorem Present.checkExpired (present : Present b) :
    Present (b.answer (Router.checkExpired env b.calls)).1 := by
  refine ⟨present.table.preserved env .expireRinging, ?_⟩
  rintro u ⟨id, s', found, active, member⟩
  refine online_sendAll ?_ _
  rcases active_origin .expireRinging found active with before | ⟨_, _, accept, _⟩
  · exact present.online u ⟨id, s', before, active, member⟩
  · cases accept

/-- **One step preserves the invariant**, if it leaves no active call. -/
theorem Present.preserved (present : Present b) (input : BackendInput) (kept : Kept b input) :
    Present (b.step cfg input).1 := by
  cases input with
  | accept verifyToken target =>
    exact present.setWs fun u _ online => online_accept online verifyToken target
  | handshake k =>
    exact present.onSession fun s _ _ => present.setWs fun u _ online =>
      online_modify online k (fun _ => rfl) fun _ _ => rfl
  | message k raw env =>
    refine present.onSession fun s found enabled => ?_
    obtain ⟨established, _⟩ := of_decide_eq_true enabled
    exact present.handle ⟨s, List.mem_of_getElem? found, rfl, established⟩
      (kept s found established)
  | close k =>
    refine present.onSession fun s found _ => present.setWs fun u active online => ?_
    obtain ⟨s', member, rfl, established⟩ := online
    obtain ⟨j, found'⟩ := List.mem_iff_getElem?.mp member
    by_cases mine : j = k
    · -- The user's session is the one that ends, so there is another.
      subst mine
      obtain rfl := Option.some.inj (found.symm.trans found')
      obtain ⟨other, member', same, established'⟩ := kept s found established active
      rw [← same]
      exact online_close member' established'
    · exact online_close (List.mem_eraseIdx_iff_getElem?.mpr ⟨j, mine, found'⟩) established
  | readFails k =>
    exact present.onSession fun s _ _ => present.setWs fun u _ online =>
      online_modify online k (fun _ => rfl) fun _ established => established
  | writeDone k =>
    exact present.onSession fun s _ _ => present.setWs fun u _ online =>
      online_modify online k (fun _ => rfl) fun _ established => established
  | writeFails k =>
    exact present.onSession fun s _ _ => present.setWs fun u _ online =>
      online_modify online k (fun _ => rfl) fun _ established => established
  | checkExpired env => exact present.checkExpired

/-- Who is in no active call can call again when the calls that ring too long are
swept. -/
theorem canCallAgain (table : Table m) (idle : ¬ InActiveCall m u) : CanCallAgain m u := by
  intro env late env' v free
  have swept : Table (Router.checkExpired env m).1 := table.preserved env .expireRinging
  refine ((operations _).create env' u v).mpr ⟨?_, free⟩
  rw [← Bool.not_eq_true, swept.isBusy_iff]
  rintro ⟨id, s, found, member⟩
  have lookup := expireRinging_lookup env m id
  obtain ⟨stored, early⟩ := Option.filter_eq_some_iff.mp (lookup.symm.trans found)
  rcases table.running id s stored with rings | active
  · have overdue : m.overdue env.now s = true := by
      simpa [CallManager.overdue, rings] using late id s stored member
    simp [overdue] at early
  · exact idle ⟨id, s, stored, active, member⟩

/-- **A disconnected user is not left in a call**, in every run of the backend in
which nobody leaves an active call by disconnecting and nobody takes up a call whose
caller is gone: in every state a user with no open session is in no active call, and
after the sweep of the calls that ring too long can call again. -/
theorem offline_not_in_call (cfg : RouterConfig) (ringTimeout : Int)
    (run : Run (backendMachine cfg ringTimeout) ts b) (kept : ∀ t ∈ ts, Kept t.before t.input)
    (u : Bytes) (offline : ¬ Online b.ws u) :
    ¬ InActiveCall b.calls u ∧ CanCallAgain b.calls u := by
  have present : Present b := by
    refine run.invariant_when Present (fun t => Kept t.before t.input) ?_ ?_ kept
    · refine ⟨Table.new ringTimeout, ?_⟩
      rintro u ⟨id, s, found, _⟩
      simp [backendMachine, CallManager.new, CallManager.find] at found
    · intro t before taken kept
      have after : (t.before.step cfg t.input).1 = t.after :=
        congrArg Prod.fst (Except.ok.inj taken)
      rw [← after]
      exact before.preserved t.input kept
  have idle : ¬ InActiveCall b.calls u := fun active => offline (present.online u active)
  exact ⟨idle, canCallAgain present.table idle⟩

instance (ws : WsServer) (u : Bytes) : Decidable (Online ws u) :=
  inferInstanceAs (Decidable (∃ s ∈ ws.accepted, _))

instance (b : Backend) : Decidable (CallbacksDone b) :=
  inferInstanceAs (Decidable (∀ s ∈ b.ws.accepted, _))

theorem inActiveCall_iff : InActiveCall m u ↔ ∃ entry ∈ m.sessions.entries,
    entry.2.state = .active ∧ (entry.2.callerId = u ∨ entry.2.calleeId = u) := by
  constructor
  · rintro ⟨id, s, found, active, member⟩
    exact ⟨⟨id, s⟩, AList.mem_lookup_iff.mp found, active, member⟩
  · rintro ⟨⟨id, s⟩, stored, active, member⟩
    exact ⟨id, s, AList.mem_lookup_iff.mpr stored, active, member⟩

instance (m : CallManager) (u : Bytes) : Decidable (InActiveCall m u) :=
  decidable_of_iff' _ inActiveCall_iff

instance (b : Backend) (input : BackendInput) : Decidable (Kept b input) :=
  match input with
  | .close k => inferInstanceAs (Decidable (∀ s ∈ b.ws.accepted[k]?, _))
  | .message k _ _ => inferInstanceAs (Decidable (∀ s ∈ b.ws.accepted[k]?, _))
  | .accept _ _ => isTrue trivial
  | .handshake _ => isTrue trivial
  | .readFails _ => isTrue trivial
  | .writeDone _ => isTrue trivial
  | .writeFails _ => isTrue trivial
  | .checkExpired _ => isTrue trivial

/-- Alice and bob connect, and alice calls bob, who takes the call up. -/
def connectAndCall : List BackendInput :=
  let verifyToken (token : Bytes) : Option Bytes := some token
  [.accept verifyToken (ascii "/ws?token=alice"), .handshake 0,
    .accept verifyToken (ascii "/ws?token=bob"), .handshake 1,
    .message 0 (some (createMessage (ascii "bob"))) (surroundings 0 1), .writeDone 0, .writeDone 1,
    .message 1 (some (callMessage "call.accept" (generateUuid (1, 1)))) (surroundings 1 0),
    .writeDone 0, .writeDone 1]

/-- Alice hangs up and leaves. -/
def leaves : List BackendInput :=
  [.message 0 (some (callMessage "call.hangup" (generateUuid (1, 1)))) (surroundings 2 0),
    .writeDone 1, .close 0, .readFails 0]

theorem offline_not_in_call_after_hangup :
    ∃ ts b, Run (backendMachine deployed 30) ts b ∧ CallbacksDone b ∧
      ¬ Online b.ws (ascii "alice") ∧ ¬ InActiveCall b.calls (ascii "alice") ∧
      CanCallAgain b.calls (ascii "alice") := by
  obtain ⟨ts, b, run, check⟩ := Run.of_exec (backendMachine deployed 30) (connectAndCall ++ leaves)
    (fun ts b => CallbacksDone b ∧ ¬ Online b.ws (ascii "alice") ∧
      ∀ t ∈ ts, Kept t.before t.input) (by decide +kernel)
  obtain ⟨done, offline, kept⟩ := of_decide_eq_true check
  exact ⟨ts, b, run, done, offline, offline_not_in_call deployed 30 run kept _ offline⟩

/-- Alice's connection is lost during the call, and the call stays active. -/
theorem lost_connection_stays_in_call : ¬ ∀ cfg ringTimeout ts b,
    Run (backendMachine cfg ringTimeout) ts b → CallbacksDone b → ∀ u, ¬ Online b.ws u →
    ¬ InActiveCall b.calls u ∧ CanCallAgain b.calls u := by
  intro all
  obtain ⟨ts, b, run, check⟩ := Run.of_exec (backendMachine deployed 30)
    (connectAndCall ++ [.close 0, .readFails 0])
    (fun _ b => CallbacksDone b ∧ ¬ Online b.ws (ascii "alice") ∧
      InActiveCall b.calls (ascii "alice")) (by decide +kernel)
  obtain ⟨done, offline, active⟩ := of_decide_eq_true check
  exact (all deployed 30 ts b run done (ascii "alice") offline).1 active

end Zaza.Presence
