import Zaza.SessionAuthority

/-!
Whose messages the router acts on, and whom it reaches.

The service runs the router inside (`signaled_run`): a message that is read on an
established session, and the timer, are its steps, and everything else leaves the
calls alone. The user a message is attributed to is that of the session, and what is
sent to a user is handed to a session of that user. With `authenticated_of_run` both
ends of a call are users that have logged in.
-/
namespace Zaza.SignalingAuthority
open Zaza HttpServer Registry CallLife SessionAuthority

/-- The step of the router inside a step of the service. -/
def signaled (cfg : RouterConfig) (t : ServiceStep) : Option RouterStep :=
  match t.input with
  | .request _ _ => none
  | .session input =>
    match input.1 with
    | .message k raw env =>
      match t.before.backend.ws.accepted[k]? with
      | none => none
      | some session =>
        if session.phase = .established ∧ session.reading then
          some ⟨t.before.backend.calls, (.message session.userId raw, env), t.after.backend.calls,
            (Router.handle cfg env t.before.backend.calls session.userId raw).2⟩
        else none
    | .checkExpired env =>
      some ⟨t.before.backend.calls, (.checkExpired, env), t.after.backend.calls,
        (Router.checkExpired env t.before.backend.calls).2⟩
    | _ => none

variable {cfg : ServiceConfig} {auth : AuthService} {ringTimeout : Int} {s : Service}
  {ts : List ServiceStep} {t : ServiceStep} {u : Bytes} {r : RouterStep}

/-! ## One step -/

/-- What the service does with a step of the router inside one of its own. -/
structure Signals (cfg : ServiceConfig) (ringTimeout : Int) (t : ServiceStep) (r : RouterStep) :
    Prop where
  before : r.before = t.before.backend.calls
  after : r.after = t.after.backend.calls
  takes : (routerMachine cfg.toRouterConfig ringTimeout).Takes r
  sender : ∀ u raw, r.input.1 = .message u raw → u ∈ users t.before.backend.ws
  handed : t.output.2 = (t.before.backend.ws.sendAll r.output).1

/-- What happens to a session that it cannot happen to. -/
theorem onSession_none {b : Backend} {k : Nat} {enabled : WsSession → Bool}
    {act : WsSession → Backend × List (Nat × Json)}
    (idle : ∀ session, b.ws.accepted[k]? = some session → enabled session = false) :
    b.onSession k enabled act = (b, []) := by
  unfold Backend.onSession
  cases found : b.ws.accepted[k]? with
  | none => rfl
  | some session => simp [idle session found]

theorem onSession_setWs (b : Backend) (k : Nat) (enabled : WsSession → Bool)
    (ws : WsSession → WsServer) :
    (b.onSession k enabled fun session => b.setWs (ws session)).1.calls = b.calls ∧
      (b.onSession k enabled fun session => b.setWs (ws session)).2 = [] := by
  unfold Backend.onSession
  cases b.ws.accepted[k]? with
  | none => exact ⟨rfl, rfl⟩
  | some session =>
    simp only
    split
    · exact ⟨rfl, rfl⟩
    · exact ⟨rfl, rfl⟩

/-- A step of the service has a step of the router inside, or leaves the calls alone. -/
theorem signaled_cases (taken : (serviceMachine cfg auth ringTimeout).Takes t) :
    (signaled cfg.toRouterConfig t = none ∧
      t.after.backend.calls = t.before.backend.calls ∧ t.output.2 = []) ∨
    ∃ r, signaled cfg.toRouterConfig t = some r ∧ Signals cfg ringTimeout t r := by
  rcases takes_cases taken with ⟨req, wall, input, result, quiet⟩ | ⟨input, same, after, output⟩
  · have handled := handleRequest_handled cfg wall t.before req
    rw [result] at handled
    refine .inl ⟨by rw [signaled, input], ?_, quiet⟩
    obtain ⟨before, _, after, response, handed⟩ := t
    replace handled : Handled cfg wall before req after response := handled
    cases handled <;> rfl
  · obtain ⟨before, _, _, _⟩ := t
    dsimp only at same after output
    subst same after output
    obtain ⟨input, other⟩ := input
    cases input with
    | accept verify target => exact absurd rfl (other verify target)
    | handshake k => exact .inl ⟨rfl, onSession_setWs _ _ _ _⟩
    | close k => exact .inl ⟨rfl, onSession_setWs _ _ _ _⟩
    | readFails k => exact .inl ⟨rfl, onSession_setWs _ _ _ _⟩
    | writeDone k => exact .inl ⟨rfl, onSession_setWs _ _ _ _⟩
    | writeFails k => exact .inl ⟨rfl, onSession_setWs _ _ _ _⟩
    | checkExpired env => exact .inr ⟨_, rfl, rfl, rfl, rfl, fun u raw same => (by cases same), rfl⟩
    | message k raw env =>
      simp only [signaled]
      cases found : before.backend.ws.accepted[k]? with
      | none =>
        have idle : (before.backend.step cfg.toRouterConfig (.message k raw env)) =
            (before.backend, []) :=
          onSession_none fun session present => by rw [found] at present; cases present
        refine .inl ⟨rfl, ?_, ?_⟩
        · rw [idle]
        · rw [idle]
      | some session =>
        simp only
        by_cases enabled : session.phase = .established ∧ session.reading = true
        · have acts : before.backend.step cfg.toRouterConfig (.message k raw env) =
              before.backend.answer (Router.handle cfg.toRouterConfig env before.backend.calls
                session.userId raw) := by
            simp [Backend.step, Backend.onSession, found, enabled]
          rw [if_pos enabled]
          refine .inr ⟨_, rfl, rfl, rfl, ?_, fun u raw' same => ?_, by rw [acts]; rfl⟩
          · rw [acts]
            rfl
          · obtain ⟨rfl, _⟩ := RouterInput.message.inj same
            exact List.mem_map_of_mem (List.mem_of_getElem? found)
        · have idle : before.backend.step cfg.toRouterConfig (.message k raw env) =
              (before.backend, []) :=
            onSession_none fun session' present => by
              rw [found] at present
              obtain rfl := Option.some.inj present
              exact decide_eq_false enabled
          rw [if_neg enabled]
          refine .inl ⟨rfl, ?_, ?_⟩
          · rw [idle]
          · rw [idle]

theorem signaled_run (run : Run (serviceMachine cfg auth ringTimeout) ts s) :
    Run (routerMachine cfg.toRouterConfig ringTimeout)
      (ts.filterMap (signaled cfg.toRouterConfig)) s.backend.calls := by
  refine run.project (fun s : Service => s.backend.calls) _ rfl fun t taken => ?_
  rcases signaled_cases taken with ⟨silent, same, _⟩ | ⟨r, visible, signals⟩
  · exact .inl ⟨silent, same⟩
  · exact .inr ⟨r, visible, signals.before, signals.after, signals.takes⟩

/-! ## The registry -/

/-- A registered session is one of its user. -/
def Registered (ws : WsServer) : Prop :=
  ∀ u k, ws.sessions.lookup u = some k → (users ws)[k]? = some u

theorem Registered.effect {ws ws' : WsServer} {event : Option Nat} (registered : Registered ws)
    (effect : Effect ws ws' event) : Registered ws' := by
  intro u k found
  cases effect with
  | quiet sameUsers sameSessions =>
    rw [sameSessions] at found
    rw [sameUsers]
    exact registered u k found
  | enters v more inserted =>
    rw [inserted] at found
    rw [more]
    by_cases mine : u = v
    · subst mine
      rw [AList.lookup_insert] at found
      obtain rfl := Option.some.inj found
      simp
    · rw [AList.lookup_insert_ne mine] at found
      have known := registered u k found
      obtain ⟨inside, _⟩ := List.getElem?_eq_some_iff.mp known
      rw [List.getElem?_append_left inside, known]
  | closes j v _ sameUsers erased =>
    rw [erased] at found
    rw [sameUsers]
    by_cases mine : u = v
    · subst mine
      simp [AList.lookup_erase] at found
    · rw [AList.lookup_erase_ne mine] at found
      exact registered u k found

theorem registered_of_run (run : Run (serviceMachine cfg auth ringTimeout) ts s) :
    Registered s.backend.ws := by
  refine run.invariant (fun s : Service => Registered s.backend.ws)
    (fun u k found => by cases found) fun t registered taken => ?_
  rcases takes_cases taken with ⟨req, wall, _, result, _⟩ | ⟨input, _, after, _⟩
  · have handled := handleRequest_handled cfg wall t.before req
    rw [result] at handled
    obtain ⟨before, _, after, response, handed⟩ := t
    replace handled : Handled cfg wall before req after response := handled
    cases handled with
    | upgrade ws _ accepted =>
      have effect : Effect before.backend.ws ws none := by
        rw [accepted]
        exact accept_effect _ _ _
      exact Registered.effect registered effect
    | refuses _ _ _ => exact registered
    | logsIn _ _ _ _ _ _ _ _ _ _ => exact registered
    | registers _ _ _ _ _ _ _ _ _ _ => exact registered
  · rw [after]
    exact registered.effect (step_effect _ _ input.1)

/-- What is handed to a session was sent to the user it is registered for. -/
theorem mem_sendAll {sent : List Outgoing} {ws : WsServer} {k : Nat} {msg : Json}
    (member : (k, msg) ∈ (ws.sendAll sent).1) :
    ∃ out ∈ sent, out.msg = msg ∧ ws.sessions.lookup out.userId = some k := by
  induction sent generalizing ws with
  | nil => cases member
  | cons out rest ih =>
    simp only [WsServer.sendAll, WsServer.send] at member
    cases found : ws.sessions.lookup out.userId with
    | none =>
      simp only [found, Option.map_none, Option.toList_none, List.nil_append] at member
      obtain ⟨out', inside, same, held⟩ := ih member
      exact ⟨out', List.mem_cons_of_mem _ inside, same, held⟩
    | some j =>
      simp only [found, Option.map_some, Option.toList_some, List.cons_append, List.nil_append,
        List.mem_cons, Prod.mk.injEq] at member
      rcases member with ⟨rfl, rfl⟩ | later
      · exact ⟨out, List.mem_cons_self, rfl, found⟩
      · obtain ⟨out', inside, same, held⟩ := ih later
        exact ⟨out', List.mem_cons_of_mem _ inside, same, held⟩

/-! ## Every run -/

/-- **Both ends are authenticated.** In every run in which no token is forged, the calls go
through a run of the router; each message it handles is attributed to a user that has
logged in and connected before; and whatever it sends is handed to nobody but a session of
the user it is addressed to, who has done so as well. -/
theorem signaling_authenticated (cfg : ServiceConfig) (auth : AuthService) (ringTimeout : Int)
    (lawful : cfg.jwt.Lawful) (run : Run (serviceMachine cfg auth ringTimeout) ts s)
    (unforged : Unforged cfg ts) :
    Run (routerMachine cfg.toRouterConfig ringTimeout)
      (ts.filterMap (signaled cfg.toRouterConfig)) s.backend.calls ∧
    ∀ before t after, ts = before ++ t :: after →
      (∀ r u raw, signaled cfg.toRouterConfig t = some r → r.input.1 = .message u raw →
        Authenticated cfg auth before u) ∧
      ∀ k msg, (k, msg) ∈ t.output.2 → ∃ r, signaled cfg.toRouterConfig t = some r ∧
        ∃ out ∈ r.output, out.msg = msg ∧
          (users t.before.backend.ws)[k]? = some out.userId ∧
          Authenticated cfg auth before out.userId := by
  refine ⟨signaled_run run, ?_⟩
  rintro before t after rfl
  obtain ⟨early, taken⟩ := run.split
  have known {u : Bytes} (there : u ∈ users t.before.backend.ws) :
      Authenticated cfg auth before u :=
    authenticated_of_run lawful early (unforged.earlier ⟨_, rfl⟩) there
  rcases signaled_cases taken with ⟨silent, _, nothing⟩ | ⟨r, visible, signals⟩
  · rw [silent, nothing]
    exact ⟨fun r u raw same => (by cases same), fun k msg member => (by cases member)⟩
  · rw [visible]
    refine ⟨fun r' u raw same message => ?_, fun k msg member => ?_⟩
    · obtain rfl := Option.some.inj same
      exact known (signals.sender u raw message)
    · rw [signals.handed] at member
      obtain ⟨out, inside, same, held⟩ := mem_sendAll member
      have user := registered_of_run early out.userId k held
      exact ⟨r, rfl, out, inside, same, user, known (List.mem_of_getElem? user)⟩

/-- The first account connects and calls another one. -/
theorem signaling_authenticated_alice :
    ∃ ts s, Run (serviceMachine service {} 30) ts s ∧ ∃ before t after, ts = before ++ t :: after ∧
      ∃ r, signaled service.toRouterConfig t = some r ∧
        (∃ raw, r.input.1 = .message (ascii "alice") raw) ∧
        Authenticated service {} before (ascii "alice") ∧ t.output.2.map Prod.fst = [0] := by
  let M := serviceMachine service {} 30
  let env := CallInvariant.surroundings 0 1
  let call := some (Json.object [(ascii "type", .text "call.create"), (ascii "to", .text "bob")])
  let handshake : ServiceInput := .session ⟨.handshake 0, fun _ _ same => by cases same⟩
  let message : ServiceInput := .session ⟨.message 0 call env, fun _ _ same => by cases same⟩
  let told (after : Service × Option ApiResponse × List (Nat × Json)) : Bool :=
    after.2.2.map Prod.fst = [0]
  let ready (s : Service) : Bool :=
    s.backend.ws.accepted = [{ userId := ascii "alice", phase := .established }]
  obtain ⟨ts, s, run, unforged, passed⟩ := alice_connects (fun s =>
    (M.step s handshake).toOption.any fun after =>
      ready after.1 && (M.step after.1 message).toOption.any told) (by decide +kernel)
  obtain ⟨⟨s₁, o₁⟩, opens, passed⟩ := exists_of_check _ passed
  obtain ⟨accepted, passed⟩ := Bool.and_eq_true_iff.mp passed
  obtain ⟨⟨s₂, o₂⟩, calls, handed⟩ := exists_of_check _ passed
  have longer := (run.step opens).step calls
  have unforged : Unforged service (ts ++ [⟨s, handshake, s₁, o₁⟩] ++ [⟨s₁, message, s₂, o₂⟩]) := by
    refine (EachAfter.concat unforged fun _ _ _ asked => ?_).concat fun _ _ _ asked => ?_
    · obtain ⟨req, input, _⟩ := asked
      cases input
    · obtain ⟨req, input, _⟩ := asked
      cases input
  have acted := (signaling_authenticated service {} 30 jwt_lawful longer unforged).2
    (ts ++ [⟨s, handshake, s₁, o₁⟩]) ⟨s₁, message, s₂, o₂⟩ [] (by simp)
  have visible : signaled service.toRouterConfig ⟨s₁, message, s₂, o₂⟩ =
      some ⟨s₁.backend.calls, (.message (ascii "alice") call, env), s₂.backend.calls,
        (Router.handle service.toRouterConfig env s₁.backend.calls (ascii "alice") call).2⟩ := by
    have only : s₁.backend.ws.accepted = [{ userId := ascii "alice", phase := .established }] :=
      of_decide_eq_true accepted
    simp [signaled, message, only]
  exact ⟨_, _, longer, _, _, [], by simp, _, visible, ⟨_, rfl⟩, acted.1 _ _ _ visible rfl,
    of_decide_eq_true handed⟩

end Zaza.SignalingAuthority
