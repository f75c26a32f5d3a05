import Zaza.ClientLife
import Zaza.Handshake
import Zaza.Presence

/-!
How a client comes by its relay.

The router sends a configuration to the two parties of a call that is taken up; a
client stores what it finds in it, and opens its peer connection with that. Nothing
that users send each other gets there, whatever it is made of: the router passes on
three types of messages, and a client touches its servers for none of them. So the
name and password a client holds are ones the backend has issued to its user, and the
TURN server takes them until they expire (`relay_access_genuine`).

A plain url in which `turns:` occurs is neither stored as the one nor as the other:
with a host whose name ends in `turns` the client never has a plain url.
-/
namespace Zaza.RelayAccess
open Zaza Client CallManager CallLife ClientSafety ClientSteps Handshake

/-- What a client that has been given a configuration holds, with the plain url it had. -/
def stored (cfg : RouterConfig) (wall : Int) (u : Bytes) (before : Bytes) : TurnAccess where
  turnUrl :=
    let url := Routes.url "turn:" cfg.turn cfg.turn.portPlain
    if containsText "turns:" url then before else url
  turnsUrl := Routes.url "turns:" cfg.turn cfg.turn.portTls
  username := Routes.username cfg.turn wall u
  credential := Routes.password cfg.host cfg.turn (Routes.username cfg.turn wall u)

/-- The step takes up a call of a user, and sends it a configuration. -/
structure Configures (cfg : RouterConfig) (u callId : Bytes) (wall : Int) (r : RouterStep) :
    Prop where
  sent : ⟨u, configuration cfg wall callId u⟩ ∈ r.output
  takenUp : ∃ callee raw s, r.input.1 = .message callee raw ∧
    operation callee raw = some (.accept callId callee) ∧
    r.before.accept callId callee = (.ok s, r.after) ∧ u ∈ CallInvariant.participants s

/-- What the client hears in a step, if anything, is what the router has sent to its user. -/
def Hears (u : Bytes) (ts : List RouterStep) (t : Step) : Prop :=
  ∀ rtc raw, t.input = .message rtc raw → ∃ msg, raw = some msg ∧ ∃ r ∈ ts, ⟨u, msg⟩ ∈ r.output

/-- The client's servers are the same, and no connection has been opened. -/
def Keeps (c c' : Client) : Prop :=
  c'.session.turnConfig = c.session.turnConfig ∧ (c'.pc = c.pc ∨ c'.pc = none)

theorem Keeps.refl (c : Client) : Keeps c c := ⟨rfl, .inl rfl⟩

/-- The message does nothing more to any client. -/
def Harmless (msg : Json) : Prop :=
  ∀ rtc (c : Client), Keeps c (c.onMessage rtc (some msg)).2

variable {cfg : RouterConfig} {ringTimeout : Int} {u callId : Bytes} {ts : List RouterStep}
  {r : RouterStep} {out : Outgoing} {cs : List Step} {p : Program} {c : Client} {msg : Json}

/-! ## The router -/

theorem cleanupCall_keeps (c : Client) : Keeps c c.cleanupCall := by
  unfold cleanupCall
  cases c.callCleanupDone with
  | true => exact .refl c
  | false => exact ⟨rfl, .inr rfl⟩

theorem harmless_error (reason : Bytes) : Harmless (Router.error reason) := by
  intro rtc c
  rw [onMessage_error]
  simp only
  split
  · exact cleanupCall_keeps c
  · exact .refl c

theorem harmless_failed (callId : Bytes) : Harmless (Router.callFailed callId) := by
  intro rtc c
  rw [onMessage_failed]
  exact cleanupCall_keeps (c.setCall {})

theorem harmless_ended (callId : Bytes) (reason : String) :
    Harmless (Router.callEnded callId reason) := by
  intro rtc c
  rw [onMessage_ended]
  exact cleanupCall_keeps (c.setCall {})

/-- What an accepted call is the event of. -/
theorem accepted_of_event {env : BackendEnv} {m : CallManager} {op : CallOp} {reply : CallReply}
    {s : CallSession} (done : (m.call env op).1 = .ok reply)
    (named : eventOf env op reply = some (callId, .accepted s)) :
    ∃ callee, op = .accept callId callee ∧ (m.accept callId callee).1 = .ok s := by
  cases op <;> cases reply <;> simp only [eventOf, Option.some.injEq, Prod.mk.injEq,
    CallInvariant.CallEvent.accepted.injEq, reduceCtorEq, and_false] at named
  obtain ⟨rfl, rfl⟩ := named
  rename_i callee s
  refine ⟨callee, rfl, ?_⟩
  have done : (m.accept _ callee).1.map CallReply.session = .ok (.session s) := done
  cases result : (m.accept _ callee).1 with
  | error e => simp [result, Except.map] at done
  | ok s' => simpa [result, Except.map] using done

/-- What the router sends is a configuration for its receiver, or harmless. -/
theorem sent_cases (taken : (routerMachine cfg ringTimeout).Takes r) (sent : out ∈ r.output) :
    (∃ wall callId, out.msg = Router.rtcConfig cfg wall out.userId callId ∧
      Configures cfg out.userId callId wall r) ∨ Harmless out.msg := by
  obtain ⟨before, ⟨input, env⟩, after, output⟩ := r
  cases input with
  | checkExpired =>
    have result : Router.checkExpired env before = (after, output) := Except.ok.inj taken
    obtain ⟨rfl, rfl⟩ := Prod.mk.inj result
    obtain ⟨s, _, told⟩ := List.mem_flatMap.mp sent
    rcases List.mem_pair.mp told with rfl | rfl
    · exact .inr (harmless_failed _)
    · exact .inr (harmless_failed _)
  | message userId raw =>
    have result : Router.handle cfg env before userId raw = (after, output) := Except.ok.inj taken
    have handled := handle_cases cfg env before userId raw
    rw [result] at handled
    replace sent : out ∈ output := sent
    cases handled with
    | refused op e asked failed =>
      obtain rfl := List.mem_singleton.mp sent
      exact .inr (harmless_error e)
    | error reason asked =>
      obtain rfl := List.mem_singleton.mp sent
      exact .inr (harmless_error reason)
    | relay msg callId s asked text type named found =>
      obtain rfl := List.mem_singleton.mp sent
      refine .inr fun rtc c => ?_
      rw [onMessage_relayed rtc c type]
      exact .refl c
    | done op reply callId event asked done named =>
      cases event with
      | created s =>
        rcases List.mem_pair.mp sent with rfl | rfl
        · exact .inr fun rtc c => ⟨rfl, .inl rfl⟩
        · exact .inr fun rtc c => ⟨rfl, .inl rfl⟩
      | rejected s =>
        obtain rfl := List.mem_singleton.mp sent
        exact .inr (harmless_ended callId _)
      | hungUp s by' =>
        obtain rfl := List.mem_singleton.mp sent
        exact .inr (harmless_ended callId _)
      | expired s =>
        rcases List.mem_pair.mp sent with rfl | rfl
        · exact .inr (harmless_failed callId)
        · exact .inr (harmless_failed callId)
      | accepted s =>
        obtain ⟨callee, rfl, accepted⟩ := accepted_of_event done named
        obtain rfl := Presence.operation_accept asked
        have both := sent
        rcases List.mem_pair.mp sent with rfl | rfl
        · exact .inl ⟨_, callId, rfl, both, _, raw, s, rfl, asked, Prod.ext accepted rfl, .inl rfl⟩
        · exact .inl ⟨_, callId, rfl, both, _, raw, s, rfl, asked, Prod.ext accepted rfl, .inr rfl⟩

/-! ## The configuration -/

@[simp] theorem stored_stored (cfg : RouterConfig) (wall : Int) (u before : Bytes) :
    stored cfg wall u (stored cfg wall u before).turnUrl = stored cfg wall u before := by
  simp only [stored]
  split <;> rfl

/-- What is stored of a configuration. -/
theorem handle_config (rtc : Rtc) (c : Client) (cfg : RouterConfig) (wall : Int)
    (u callId : Bytes) : c.handle rtc (some (Router.rtcConfig cfg wall u callId)) =
      (.ok (), c.setTurnConfig (stored cfg wall u c.session.turnConfig.turnUrl)) := by
  have plain : startsWith "turn:" (Routes.url "turn:" cfg.turn cfg.turn.portPlain) = true :=
    List.isPrefixOf_iff_prefix.mpr (List.prefix_append _ _)
  have notPlain : startsWith "turn:" (Routes.url "turns:" cfg.turn cfg.turn.portTls) = false := rfl
  have notTls : startsWith "turns:" (Routes.url "turn:" cfg.turn cfg.turn.portPlain) = false := rfl
  have tls : startsWith "turns:" (Routes.url "turns:" cfg.turn cfg.turn.portTls) = true :=
    List.isPrefixOf_iff_prefix.mpr (List.prefix_append _ _)
  have type : (Router.rtcConfig cfg wall u callId).stringMember "type" =
      some (ascii "rtc.config") := rfl
  have servers : (Router.rtcConfig cfg wall u callId).member "iceServers" =
      some (.array [Routes.iceServer cfg.host cfg.turn wall u]) := rfl
  have named : (Routes.iceServer cfg.host cfg.turn wall u).contains "username" = true := rfl
  have urls : (Routes.iceServer cfg.host cfg.turn wall u).member "urls" =
      some (.array [.string (Routes.url "turn:" cfg.turn cfg.turn.portPlain),
        .string (Routes.url "turns:" cfg.turn cfg.turn.portTls)]) := rfl
  have username : (Routes.iceServer cfg.host cfg.turn wall u).value "username" Json.getString [] =
      .ok (Routes.username cfg.turn wall u) := rfl
  have credential : (Routes.iceServer cfg.host cfg.turn wall u).value "credential"
      Json.getString [] =
        .ok (Routes.password cfg.host cfg.turn (Routes.username cfg.turn wall u)) := rfl
  rw [handle_of_config type]
  simp only [handleRtcConfig, servers, storeServers, named, storeServer, urls, elements, storeUrls,
    Json.getString, convert_ok, username, credential, storeUrl, plain, notPlain, notTls, tls,
    Bool.not_true, Bool.false_eq_true, Bool.true_and, Bool.false_and, ↓reduceIte]
  by_cases hidden : containsText "turns:" (Routes.url "turn:" cfg.turn cfg.turn.portPlain) = true
  · simp [hidden, stored, setTurnConfig]
  · simp [hidden, stored, setTurnConfig]

/-- A configuration is stored, whatever becomes of the setup. -/
theorem onMessage_config (rtc : Rtc) (c : Client) (cfg : RouterConfig) (wall : Int)
    (u callId : Bytes) :
    (c.onMessage rtc (some (Router.rtcConfig cfg wall u callId))).2.session.turnConfig =
      stored cfg wall u c.session.turnConfig.turnUrl := by
  have type : (Router.rtcConfig cfg wall u callId).value "type" Json.getString [] =
      .ok (ascii "rtc.config") := rfl
  obtain ⟨result, c₁, started, caught, kept⟩ :=
    startRtc_frame rtc (c.setTurnConfig (stored cfg wall u c.session.turnConfig.turnUrl))
  unfold onMessage tryBlock
  simp only [type, convert_ok, handle_config, started,
    show ascii "rtc.config" ≠ ascii "error" by decide, ↓reduceIte]
  cases result with
  | ok _ =>
    simp only [kept]
    rfl
  | error e =>
    -- The setup has thrown, and the message is handled once more.
    have again : (c₁.setTurnConfig
        (stored cfg wall u c₁.session.turnConfig.turnUrl)).session.turnConfig =
          stored cfg wall u c.session.turnConfig.turnUrl := by
      simp [kept, setTurnConfig]
    cases e with
    | undefined => exact absurd rfl caught
    | parse => exact again
    | json e => exact again
    | rtc => exact again

/-! ## The commands -/

variable {http : HttpClient} {args : List Bytes}

theorem login_turnConfig (s : Session) :
    (Commands.login http args s).2.1.turnConfig = s.turnConfig := by
  unfold Commands.login
  split
  · split
    · rfl
    split
    · rfl
    split
    · rfl
    split
    · rfl
    split
    · rfl
    dsimp only
    split <;> rfl
  · rfl

theorem call_turnConfig (s : Session) :
    (Commands.call args s).2.1.turnConfig = s.turnConfig := by
  unfold Commands.call
  split
  · rfl
  split
  · rfl
  split
  · rfl
  split <;> rfl

theorem accept_turnConfig (s : Session) :
    (Commands.accept s).2.1.turnConfig = s.turnConfig := by
  unfold Commands.accept
  split <;> rfl

theorem reject_turnConfig (s : Session) :
    (Commands.reject s).2.1.turnConfig = s.turnConfig := by
  unfold Commands.reject
  split <;> rfl

theorem hangup_turnConfig (s : Session) :
    (Commands.hangup s).2.1.turnConfig = s.turnConfig := by
  unfold Commands.hangup
  split <;> rfl

theorem setMuted_turnConfig (muted : Bool) (already done : String) (s : Session) :
    (Commands.setMuted muted already done s).2.1.turnConfig = s.turnConfig := by
  unfold Commands.setMuted
  split
  · rfl
  split <;> rfl

theorem record_turnConfig (s : Session) :
    (Commands.record args s).2.1.turnConfig = s.turnConfig := by
  unfold Commands.record
  split
  · rfl
  split
  · rfl
  split <;> rfl

theorem stop_turnConfig (s : Session) : (Commands.stop s).2.1.turnConfig = s.turnConfig := by
  unfold Commands.stop
  split <;> rfl

theorem quit_turnConfig (s : Session) : (Commands.quit s).2.1.turnConfig = s.turnConfig := by
  unfold Commands.quit
  split <;> rfl

/-- No command touches the servers. -/
theorem dispatch_turnConfig (name : Bytes) (s : Session) :
    (Repl.dispatch http name args s).2.1.turnConfig = s.turnConfig := by
  let Good (command : Command) : Prop := (command s).2.1.turnConfig = s.turnConfig
  show Good (Repl.dispatch http name args)
  unfold Repl.dispatch
  refine iteInduction (fun _ => login_turnConfig s) fun _ => ?_
  refine iteInduction (fun _ => call_turnConfig s) fun _ => ?_
  refine iteInduction (fun _ => accept_turnConfig s) fun _ => ?_
  refine iteInduction (fun _ => reject_turnConfig s) fun _ => ?_
  refine iteInduction (fun _ => hangup_turnConfig s) fun _ => ?_
  refine iteInduction (fun _ => setMuted_turnConfig _ _ _ s) fun _ => ?_
  refine iteInduction (fun _ => setMuted_turnConfig _ _ _ s) fun _ => ?_
  refine iteInduction (fun _ => record_turnConfig s) fun _ => ?_
  refine iteInduction (fun _ => congrArg Session.turnConfig (register_session s)) fun _ => ?_
  refine iteInduction (fun _ => stop_turnConfig s) fun _ => ?_
  refine iteInduction (fun _ => congrArg Session.turnConfig (sendfile_session s)) fun _ => ?_
  refine iteInduction (fun _ => rfl) fun _ => ?_
  exact iteInduction (fun _ => quit_turnConfig s) fun _ => rfl

/-! ## The steps -/

theorem processLine_keeps (http : HttpClient) (line : Bytes) (p : Program) :
    Keeps p.client (p.processLine http line).1.client := by
  unfold Program.processLine
  cases Repl.parse line with
  | nil => exact .refl _
  | cons name args => exact ⟨dispatch_turnConfig name _, .inl rfl⟩

theorem handleStateChange_keeps (c : Client) (state : RtcState) :
    Keeps c (c.handleStateChange state).1 := by
  cases state with
  | failed => exact cleanupCall_keeps c
  | new | connecting | connected | disconnected | closed => exact ⟨rfl, .inl rfl⟩

/-- Only a message touches the servers. -/
theorem step_keeps (p : Program) {input : ClientInput}
    (other : ∀ rtc raw, input ≠ .message rtc raw) :
    Keeps p.client (p.step input).1.client := by
  unfold Program.step
  cases p.runs with
  | false => exact .refl _
  | true =>
    simp only [Bool.not_true, Bool.false_eq_true, ↓reduceIte]
    cases input with
    | message rtc raw => exact absurd rfl (other rtc raw)
    | line http line =>
      simp only
      split
      · exact processLine_keeps http line p
      · exact .refl _
    | endOfInput => exact .refl _
    | close =>
      simp only [onClose]
      split
      · exact cleanupCall_keeps _
      · exact .refl _
    | stateChange state =>
      simp only
      split
      · exact handleStateChange_keeps _ state
      · exact .refl _
    | track =>
      simp only
      split
      · exact ⟨rfl, .inl rfl⟩
      · exact .refl _
    | signal =>
      simp only [signalHandler]
      split
      · exact ⟨rfl, .inl rfl⟩
      · exact .refl _
    | returns =>
      simp only
      split
      · exact ⟨rfl, .inr rfl⟩
      · exact .refl _

/-! ## Every run -/

/-- A client has no servers yet, and no connection; or it has those of a configuration that
was sent to its user. -/
def Genuine (cfg : RouterConfig) (u : Bytes) (ts : List RouterStep) (c : Client) : Prop :=
  (c.session.turnConfig = {} ∧ c.pc = none) ∨
  ∃ r ∈ ts, ∃ callId wall, Configures cfg u callId wall r ∧
    c.session.turnConfig = stored cfg wall u []

theorem Genuine.keeps {c c' : Client} (genuine : Genuine cfg u ts c) (keeps : Keeps c c') :
    Genuine cfg u ts c' := by
  obtain ⟨same, pc⟩ := keeps
  rcases genuine with ⟨none, closed⟩ | ⟨r, member, callId, wall, configures, held⟩
  · rw [closed, or_self] at pc
    exact .inl ⟨same.trans none, pc⟩
  · exact .inr ⟨r, member, callId, wall, configures, same.trans held⟩

/-- A plain url that is not taken has never been. -/
theorem Genuine.stored (genuine : Genuine cfg u ts c) (wall : Int) :
    stored cfg wall u c.session.turnConfig.turnUrl = stored cfg wall u [] := by
  rcases genuine with ⟨none, _⟩ | ⟨_, _, _, _, _, held⟩
  · rw [none]
  · rw [held]
    simp only [RelayAccess.stored]
    split <;> rfl

theorem genuine_of_run (run : Run (routerMachine cfg ringTimeout) ts m)
    (client : Run clientMachine cs p) (hears : ∀ t ∈ cs, Hears u ts t) :
    Genuine cfg u ts p.client := by
  refine client.invariant_when (fun p => Genuine cfg u ts p.client) (Hears u ts)
    (.inl ⟨rfl, rfl⟩) (fun t genuine taken heard => ?_) hears
  obtain ⟨before, input, after, sent⟩ := t
  have stepped : before.step input = (after, sent) := Except.ok.inj taken
  replace stepped : (before.step input).1 = after := congrArg Prod.fst stepped
  subst stepped
  by_cases message : ∃ rtc raw, input = .message rtc raw
  · obtain ⟨rtc, raw, rfl⟩ := message
    obtain ⟨msg, rfl, r, member, told⟩ := heard rtc raw rfl
    by_cases running : before.runs = true
    · have client : (before.step (.message rtc (some msg))).1.client =
          (before.client.onMessage rtc (some msg)).2 := by
        rw [Program.step, if_neg (by simp [running])]
        exact message_client before rtc (some msg)
      show Genuine cfg u ts (before.step (.message rtc (some msg))).1.client
      rw [client]
      rcases sent_cases (run.takes member) told with ⟨wall, callId, same, configures⟩ | harmless
      · refine .inr ⟨r, member, callId, wall, configures, ?_⟩
        rw [show msg = Router.rtcConfig cfg wall u callId from same, onMessage_config]
        exact genuine.stored wall
      · exact genuine.keeps (harmless rtc before.client)
    · have same : (before.step (.message rtc (some msg))).1 = before := by
        rw [Program.step, if_pos (by simp [running])]
      show Genuine cfg u ts (before.step (.message rtc (some msg))).1.client
      rwa [same]
  · exact genuine.keeps (step_keeps before fun rtc raw same => message ⟨rtc, raw, same⟩)

/-- An entry of `iceServers` with the name and password a client holds. -/
def entry (access : TurnAccess) : Json :=
  .object [(ascii "username", .string access.username),
    (ascii "credential", .string access.credential)]

/-- A TURN server that shares the secret takes them until they expire, from whoever is not
in the way of an allocation of somebody else. -/
def Opens (cfg : RouterConfig) (wall : Int) (access : TurnAccess) : Prop :=
  ∀ (turn : Config), cfg.turn.sharedSecret = turn.sharedSecret →
    -9223372036854775808 ≤ wall + cfg.turn.ttl → wall + cfg.turn.ttl ≤ 9223372036854775807 →
    access.credential ≠ [] → ∀ env (d : TurnDispatcher) nonce data msg e,
      Signs cfg.host turn (entry access) nonce data msg →
      NonceManager.isValid env d.nonces nonce = true → env.wall ≤ wall + cfg.turn.ttl →
      (msg.method ≠ .allocate → d.allocatedUsername msg e ≠ [] →
        access.username = d.allocatedUsername msg e) →
      d.authResult cfg.host turn env msg data e = .ok

theorem opens_stored (cfg : RouterConfig) (wall : Int) (u before : Bytes) :
    Opens cfg wall (stored cfg wall u before) := by
  intro turn shared low high text env d nonce data msg e signs valid current owned
  have signs' : Signs cfg.host turn (Routes.iceServer cfg.host cfg.turn wall u) nonce data msg := by
    obtain ⟨name, password, named, isName, isPassword, integrity⟩ := signs.integrity
    exact { signs with integrity := ⟨name, password, named, isName, isPassword, integrity⟩ }
  exact (signs_accepted shared ⟨low, high⟩ text signs' valid current owned).2

/-- **The relay is the backend's.** A client that hears nothing but what the router has sent
to its user, whatever the other users send, and in whatever order, has no servers and no
connection; or it has the servers of the backend, with a name and a password that were
issued to its user when a call of it was taken up, and that the TURN server takes until they
expire. -/
theorem relay_access_genuine (cfg : RouterConfig) (ringTimeout : Int)
    (run : Run (routerMachine cfg ringTimeout) ts m) (client : Run clientMachine cs p)
    (hears : ∀ t ∈ cs, Hears u ts t) :
    (p.client.session.turnConfig = {} ∧ p.client.pc = none) ∨
    ∃ r ∈ ts, ∃ callId wall, Configures cfg u callId wall r ∧
      p.client.session.turnConfig = stored cfg wall u [] ∧
      Opens cfg wall p.client.session.turnConfig := by
  rcases genuine_of_run run client hears with none | ⟨r, member, callId, wall, configures, held⟩
  · exact .inl none
  · refine .inr ⟨r, member, callId, wall, configures, held, ?_⟩
    rw [held]
    exact opens_stored cfg wall u []

/-- Bob takes up alice's call, and has servers of his own. -/
theorem relay_access_genuine_bob :
    ∃ ts m cs p, Run (routerMachine deployed 30) ts m ∧ Run clientMachine cs p ∧
      p.client.session.turnConfig.turnUrl = ascii "turn:turn.example:3478" ∧
      ∃ r ∈ ts, ∃ callId wall, Configures deployed (ascii "bob") callId wall r ∧
        Opens deployed wall p.client.session.turnConfig := by
  let M := routerMachine deployed 30
  let callId := generateUuid (1, 1)
  let create := some (createMessage (ascii "bob"))
  let accept := some (callMessage "call.accept" callId)
  let env := CallInvariant.surroundings 0 1
  let rung := (Router.handle deployed env (CallManager.new 30) (ascii "alice") create).1
  let s : CallSession := ⟨callId, ascii "alice", ascii "bob", .active, 0⟩
  let offered : RouterStep := ⟨M.init, (.message (ascii "alice") create, env), rung,
    (Router.handle deployed env (CallManager.new 30) (ascii "alice") create).2⟩
  let takenUp : RouterStep := ⟨rung, (.message (ascii "bob") accept, env),
    (Router.handle deployed env rung (ascii "bob") accept).1,
    (Router.handle deployed env rung (ascii "bob") accept).2⟩
  have run : Run M [offered, takenUp] takenUp.after := (Run.start.step rfl).step rfl
  have rings : ⟨ascii "bob", Router.callIncoming callId (ascii "alice")⟩ ∈ offered.output :=
    List.mem_cons_of_mem _ List.mem_cons_self
  have configured : ⟨ascii "bob", Router.rtcConfig deployed 1700000000 (ascii "bob") callId⟩ ∈
      takenUp.output := by
    have found : (rung.call env (.accept callId (ascii "bob"))).1.toOption.any
        (fun reply => eventOf env (.accept callId (ascii "bob")) reply =
          some (callId, .accepted s)) = true := by
      decide +kernel
    obtain ⟨reply, done, named⟩ := exists_of_check _ found
    have sent : Router.handle deployed env rung (ascii "bob") accept = (_, announce deployed env
        callId (.accepted s)) := handle_done rfl (Prod.ext done rfl) (of_decide_eq_true named)
    show _ ∈ (Router.handle deployed env rung (ascii "bob") accept).2
    rw [sent]
    exact List.mem_cons_of_mem _ List.mem_cons_self
  obtain ⟨⟨cs, p⟩, done, plain⟩ := @exists_of_check _ _
    (clientMachine.exec clientMachine.init ClientLife.takesCallUp)
    (fun result => result.2.client.session.turnConfig.turnUrl = ascii "turn:turn.example:3478")
    (by decide +kernel)
  have client : Run clientMachine cs p := by simpa using Run.start.exec done
  have hears : ∀ t ∈ cs, Hears (ascii "bob") [offered, takenUp] t := by
    intro t member rtc raw input
    have listed : t.input ∈ ClientLife.takesCallUp := by
      rw [← Machine.exec_inputs done]
      exact List.mem_map_of_mem member
    rw [input] at listed
    simp only [ClientLife.takesCallUp, List.mem_cons, List.not_mem_nil, or_false,
      ClientInput.message.injEq, reduceCtorEq, false_or] at listed
    rcases listed with ⟨_, rfl⟩ | ⟨_, rfl⟩
    · exact ⟨_, rfl, offered, List.mem_cons_self, rings⟩
    · exact ⟨_, rfl, takenUp, List.mem_cons_of_mem _ List.mem_cons_self, configured⟩
  rcases relay_access_genuine deployed 30 run client hears with
    ⟨none, _⟩ | ⟨r, member, callId, wall, configures, _, opens⟩
  · have plain := of_decide_eq_true plain
    rw [none] at plain
    cases plain
  · exact ⟨_, _, cs, p, run, client, of_decide_eq_true plain, r, member, callId, wall, configures,
      opens⟩

end Zaza.RelayAccess
