import Zaza.Accounts
import Zaza.HttpServer
import Zaza.Registry

/-!
Who is behind a WebSocket session.

A session is entered under the user of the token in its upgrade request. A token that
nobody has forged was sent by the service in a response, and the one response with a
token in it is that to a login; a login succeeds against a row of the database, and a
row gets there with a registration. So behind every session there is the chain
registration, login, upgrade in the history of the service, in this order
(`sessions_authenticated`). A session outlives its token: nothing looks at the expiry
again.
-/
namespace Zaza.SessionAuthority
open Zaza HttpServer Registry

abbrev ServiceStep := Transition Service ServiceInput (Option ApiResponse × List (Nat × Json))

/-- The step handles a request of a route with the two fields of an account. -/
def Posts (route : Route) (wall : Int) (u p : Bytes) (t : ServiceStep) : Prop :=
  ∃ req body, t.input = .request req wall ∧ req.upgrade = false ∧
    routes (routeKey req) = some route ∧ req.body = some body ∧
    body.stringMember "userId" = some u ∧ body.stringMember "password" = some p

/-- The token in a response. -/
def tokenOf : ApiResponse → Option Bytes
  | ⟨status, .json v⟩ => if status = 200 then v.stringMember "token" else none
  | ⟨_, .raw _⟩ => none

/-- The step hands out a token. -/
def Sends (token : Bytes) (t : ServiceStep) : Prop := t.output.1.bind tokenOf = some token

/-- A user logs in and is given a token. -/
def LogsIn (wall : Int) (u p token : Bytes) (t : ServiceStep) : Prop :=
  Posts .login wall u p t ∧ Sends token t

/-- A user is registered. -/
def Registers (u p : Bytes) (t : ServiceStep) : Prop :=
  ∃ wall, Posts .register wall u p t ∧ ∃ v, t.output.1 = some ⟨200, v⟩

/-- An upgrade is asked for with a token. -/
def Connects (wall : Int) (token : Bytes) (t : ServiceStep) : Prop :=
  ∃ req, t.input = .request req wall ∧ req.upgrade = true ∧
    WsServer.extractToken req.target = token

/-- Nobody else can make tokens: one that verifies has been sent by the service before. -/
def Unforged (cfg : ServiceConfig) : List ServiceStep → Prop :=
  EachAfter fun before t => ∀ wall token userId, Connects wall token t →
    verifyToken cfg wall token = .ok userId → ∃ t' ∈ before, Sends token t'

theorem Unforged.earlier {cfg : ServiceConfig} {earlier ts : List ServiceStep}
    (unforged : Unforged cfg ts) (inside : earlier <+: ts) : Unforged cfg earlier :=
  EachAfter.earlier unforged inside

variable {cfg : ServiceConfig} {auth a a' : AuthService} {ringTimeout wall : Int} {s : Service}
  {ts : List ServiceStep} {t : ServiceStep} {u p token : Bytes} {response : ApiResponse}

/-! ## Tokens -/

/-- A token of the service is good for its own user, while the library finds it to be. -/
theorem verifyToken_create (lawful : cfg.jwt.Lawful) (claims : Token) :
    verifyToken cfg wall (cfg.jwt.create cfg.jwtSecret claims) = .ok u ↔
      cfg.jwt.verify cfg.jwtSecret wall
        (claims.decoded (cfg.jwt.create cfg.jwtSecret claims)) = .ok () ∧ u = claims.userId := by
  have read : Jwt.payload cfg.jwt cfg.jwtSecret wall (cfg.jwt.create cfg.jwtSecret claims) =
      (cfg.jwt.verify cfg.jwtSecret wall (claims.decoded (cfg.jwt.create cfg.jwtSecret claims))).map
        fun _ => ⟨claims.userId, claims.expiresAt⟩ := by
    rw [Jwt.payload, lawful.claims]
    rfl
  rw [verifyToken, Jwt.verify, read]
  cases cfg.jwt.verify cfg.jwtSecret wall
      (claims.decoded (cfg.jwt.create cfg.jwtSecret claims)) with
  | error e => simp [Except.map, Except.mapError]
  | ok => simp [Except.map, Except.mapError, eq_comm]

/-! ## One request -/

theorem withAccount_cases {missing : String} {body : Option Json}
    {act : Bytes → Bytes → AuthService × ApiResponse}
    (done : Routes.withAccount cfg missing a body act = .ok (a', response)) :
    (a' = a ∧ response = Routes.answer (Routes.refuse 400 "invalid json")) ∨
    (a' = a ∧ response = Routes.answer (Routes.refuse 400 missing)) ∨
    ∃ j u p, body = some j ∧ j.stringMember "userId" = some u ∧
      j.stringMember "password" = some p ∧ (a', response) = act u p := by
  unfold Routes.withAccount at done
  cases body with
  | none =>
    obtain ⟨rfl, rfl⟩ := Prod.mk.inj (Except.ok.inj done)
    exact .inl ⟨rfl, rfl⟩
  | some j =>
    simp only at done
    split at done
    · rename_i userId password named secret
      cases userId with
      | string u =>
        cases password with
        | string p =>
          refine .inr (.inr ⟨j, u, p, rfl, ?_, ?_, (Except.ok.inj done).symm⟩)
          · exact Json.stringMember_eq_some.mpr named
          · exact Json.stringMember_eq_some.mpr secret
        | _ => simp [Routes.accountFields, Json.getString] at done
      | _ => cases password <;> simp [Routes.accountFields, Json.getString] at done
    · obtain ⟨rfl, rfl⟩ := Prod.mk.inj (Except.ok.inj done)
      exact .inr (.inl ⟨rfl, rfl⟩)

theorem tokenOf_refuse (status : Nat) (reason : String) :
    tokenOf (Routes.answer (Routes.refuse status reason)) = none := by
  simp only [Routes.answer, Routes.refuse, tokenOf, ite_eq_right_iff]
  exact fun _ => rfl

/-- What a request does: it opens a session, it is answered and nothing changes, it gives a
token to a user, or it enters one. -/
inductive Handled (cfg : ServiceConfig) (wall : Int) (s : Service) (req : HttpRequest) :
    Service → Option ApiResponse → Prop where
  | upgrade (ws : WsServer) : req.upgrade = true →
      ws = s.backend.ws.accept (fun token => (verifyToken cfg wall token).toOption) req.target →
      Handled cfg wall s req { s with backend.ws := ws } none
  | refuses (response : ApiResponse) : req.upgrade = false → tokenOf response = none →
      Handled cfg wall s req s (some response)
  | logsIn (body : Json) (u p : Bytes) (result : LoginResult) : req.upgrade = false →
      routes (routeKey req) = some .login → req.body = some body →
      body.stringMember "userId" = some u → body.stringMember "password" = some p →
      s.auth.login cfg.host wall u p = .ok result →
      Handled cfg wall s req s (some (Routes.answer ⟨200, .object
        [(ascii "token", .string (cfg.jwt.create cfg.jwtSecret result.token)),
          (ascii "userId", .string result.userId)]⟩))
  | registers (body : Json) (u p : Bytes) (auth : AuthService) : req.upgrade = false →
      routes (routeKey req) = some .register → req.body = some body →
      body.stringMember "userId" = some u → body.stringMember "password" = some p →
      s.auth.registerUser cfg.host u p = .ok auth →
      Handled cfg wall s req { s with auth } (some (Routes.answer ⟨200, .object
        [(ascii "ok", .boolean true)]⟩))

/-- The credentials of a TURN server are no token. -/
theorem tokenOf_credentials (headers : UnorderedMap Bytes Bytes) :
    tokenOf (Routes.answer (Routes.turnCredentials cfg.host cfg.turn wall (verifyToken cfg wall)
      headers)) = none := by
  unfold Routes.turnCredentials
  simp only
  split
  · exact tokenOf_refuse _ _
  split
  · exact tokenOf_refuse _ _
  · exact tokenOf_refuse _ _
  · rfl

theorem handleRequest_handled (cfg : ServiceConfig) (wall : Int) (s : Service)
    (req : HttpRequest) :
    Handled cfg wall s req (handleRequest cfg wall s req).1 (handleRequest cfg wall s req).2 := by
  unfold handleRequest
  cases upgrade : req.upgrade with
  | true => exact .upgrade _ upgrade rfl
  | false =>
    simp only [Bool.false_eq_true, ↓reduceIte]
    cases found : routes (routeKey req) with
    | none => exact .refuses _ upgrade (tokenOf_refuse _ _)
    | some route =>
      simp only
      cases done : handler cfg wall s.auth req route with
      | error what => exact .refuses _ upgrade rfl
      | ok result =>
        obtain ⟨auth, response⟩ := result
        simp only
        cases route with
        | turnCredentials =>
          obtain ⟨rfl, rfl⟩ := Prod.mk.inj (Except.ok.inj done)
          exact .refuses _ upgrade (tokenOf_credentials _)
        | login =>
          rcases withAccount_cases done with ⟨rfl, rfl⟩ | ⟨rfl, rfl⟩ |
            ⟨body, u, p, sent, named, secret, acted⟩
          · exact .refuses _ upgrade (tokenOf_refuse _ _)
          · exact .refuses _ upgrade (tokenOf_refuse _ _)
          · cases login : s.auth.login cfg.host wall u p with
            | error failed =>
              rw [login] at acted
              obtain ⟨rfl, rfl⟩ := Prod.mk.inj acted
              exact .refuses _ upgrade (tokenOf_refuse _ _)
            | ok result =>
              rw [login] at acted
              obtain ⟨rfl, rfl⟩ := Prod.mk.inj acted
              exact .logsIn body u p result upgrade found sent named secret login
        | register =>
          rcases withAccount_cases done with ⟨rfl, rfl⟩ | ⟨rfl, rfl⟩ |
            ⟨body, u, p, sent, named, secret, acted⟩
          · exact .refuses _ upgrade (tokenOf_refuse _ _)
          · exact .refuses _ upgrade (tokenOf_refuse _ _)
          · cases entered : s.auth.registerUser cfg.host u p with
            | error failed =>
              rw [entered] at acted
              obtain ⟨rfl, rfl⟩ := Prod.mk.inj acted
              exact .refuses _ upgrade rfl
            | ok auth' =>
              rw [entered] at acted
              obtain ⟨rfl, rfl⟩ := Prod.mk.inj acted
              exact .registers body u p _ upgrade found sent named secret entered

/-- What a registration enters. -/
theorem registerUser_ok {host : Host} (done : a.registerUser host u p = .ok a') :
    a'.ttl = a.ttl ∧ a'.store.users =
      a.store.users.insert (cString u) (UserStore.hashPassword host p) := by
  unfold AuthService.registerUser UserStore.addUser at done
  split at done
  · cases done
  · rename_i store entered
    obtain rfl := Except.ok.inj done
    split at entered
    · cases entered
    · obtain rfl := Except.ok.inj entered
      rw [Accounts.cString_hashPassword]
      exact ⟨rfl, rfl⟩

/-! ## One step -/

theorem onSession_users {b : Backend} {k : Nat} {enabled : WsSession → Bool}
    {act : WsSession → Backend × List (Nat × Json)}
    (acts : ∀ session, users (act session).1.ws = users b.ws) :
    users (b.onSession k enabled act).1.ws = users b.ws := by
  unfold Backend.onSession
  cases b.ws.accepted[k]? with
  | none => rfl
  | some session =>
    simp only
    split
    · exact acts session
    · rfl

/-- What happens to the sessions enters none. -/
theorem step_users (rcfg : RouterConfig) (b : Backend) (input : SessionInput) :
    users (b.step rcfg input.1).1.ws = users b.ws := by
  obtain ⟨input, other⟩ := input
  cases input with
  | accept verifyToken target => exact absurd rfl (other verifyToken target)
  | handshake k => exact onSession_users fun _ => users_modify b.ws k fun _ => rfl
  | message k raw env => exact onSession_users fun _ => (sendAll_registry _ b.ws).1
  | close k => exact onSession_users fun _ => users_modify b.ws k fun _ => rfl
  | readFails k => exact onSession_users fun _ => users_modify b.ws k fun _ => rfl
  | writeDone k => exact onSession_users fun _ => users_modify b.ws k fun _ => rfl
  | writeFails k => exact onSession_users fun _ => users_modify b.ws k fun _ => rfl
  | checkExpired env => exact (sendAll_registry _ b.ws).1

/-- The two kinds of step. -/
theorem takes_cases (taken : (serviceMachine cfg auth ringTimeout).Takes t) :
    (∃ req wall, t.input = .request req wall ∧
      handleRequest cfg wall t.before req = (t.after, t.output.1) ∧ t.output.2 = []) ∨
    ∃ input, t.input = .session input ∧
      t.after = ⟨t.before.auth, (t.before.backend.step cfg.toRouterConfig input.1).1⟩ ∧
      t.output = (none, (t.before.backend.step cfg.toRouterConfig input.1).2) := by
  obtain ⟨before, input, after, output⟩ := t
  cases input with
  | request req wall =>
    have taken : Except.ok (ε := Empty) ((handleRequest cfg wall before req).1,
        ((handleRequest cfg wall before req).2, [])) = .ok (after, output) := taken
    obtain ⟨rfl, rfl⟩ := Prod.mk.inj (Except.ok.inj taken)
    exact .inl ⟨req, wall, rfl, rfl, rfl⟩
  | session input =>
    have taken : Except.ok (ε := Empty) ((⟨before.auth,
        (before.backend.step cfg.toRouterConfig input.1).1⟩ : Service),
        (none, (before.backend.step cfg.toRouterConfig input.1).2)) = .ok (after, output) := taken
    obtain ⟨rfl, rfl⟩ := Prod.mk.inj (Except.ok.inj taken)
    exact .inr ⟨input, rfl, rfl, rfl⟩

/-- A step is a request, or it leaves the accounts and the users of the sessions alone. -/
theorem step_cases (taken : (serviceMachine cfg auth ringTimeout).Takes t) :
    (∃ req wall, t.input = .request req wall ∧
      Handled cfg wall t.before req t.after t.output.1) ∨
    (t.after.auth = t.before.auth ∧ users t.after.backend.ws = users t.before.backend.ws ∧
      t.output.1 = none) := by
  rcases takes_cases taken with ⟨req, wall, input, result, _⟩ | ⟨input, _, after, output⟩
  · have handled := handleRequest_handled cfg wall t.before req
    rw [result] at handled
    exact .inl ⟨req, wall, input, handled⟩
  · rw [after, output]
    exact .inr ⟨rfl, step_users _ _ input, rfl⟩

/-! ## Every run -/

/-- Every row of the database was there from the start, or stems from a registration. -/
def Entered (cfg : ServiceConfig) (auth : AuthService) (ts : List ServiceStep) (a : AuthService) :
    Prop :=
  ∀ text hash, a.store.users.lookup text = some hash →
    auth.store.users.lookup text = some hash ∨ ∃ t ∈ ts, ∃ u p, Registers u p t ∧
      cString u = text ∧ hash = UserStore.hashPassword cfg.host p

/-- Every session stems from an upgrade with a token that verified. -/
def Opened (cfg : ServiceConfig) (ts : List ServiceStep) (ws : WsServer) : Prop :=
  ∀ u ∈ users ws, ∃ before t after, ts = before ++ t :: after ∧ ∃ wall token,
    Connects wall token t ∧ verifyToken cfg wall token = .ok u

theorem entered_of_run (run : Run (serviceMachine cfg auth ringTimeout) ts s) :
    s.auth.ttl = auth.ttl ∧ Entered cfg auth ts s.auth := by
  refine run.invariant_with_history
    (fun ts s => s.auth.ttl = auth.ttl ∧ Entered cfg auth ts s.auth)
    ⟨rfl, fun text hash held => .inl held⟩ fun earlier t ⟨ttl, entered⟩ taken => ?_
  have kept : Entered cfg auth (earlier ++ [t]) t.before.auth := by
    intro text hash held
    rcases entered text hash held with old | ⟨t', member, registered⟩
    · exact .inl old
    · exact .inr ⟨t', List.mem_append_left _ member, registered⟩
  rcases step_cases taken with ⟨req, wall, input, handled⟩ | ⟨same, _, _⟩
  · obtain ⟨before, _, after, response, handed⟩ := t
    obtain rfl := input
    have handled : Handled cfg wall before req after response := handled
    cases handled with
    | upgrade ws _ _ => exact ⟨ttl, kept⟩
    | refuses response _ _ => exact ⟨ttl, kept⟩
    | logsIn body u p result _ _ _ _ _ _ => exact ⟨ttl, kept⟩
    | registers body u p auth' upgrade found sent named secret done =>
      obtain ⟨sameTtl, rows⟩ := registerUser_ok done
      refine ⟨sameTtl.trans ttl, fun text hash held => ?_⟩
      simp only [rows] at held
      by_cases mine : text = cString u
      · subst mine
        rw [AList.lookup_insert] at held
        refine .inr ⟨_, List.mem_append_right _ (List.mem_singleton_self _), u, p,
          ⟨wall, ?_, _, rfl⟩, rfl, (Option.some.inj held).symm⟩
        exact ⟨req, body, rfl, upgrade, found, sent, named, secret⟩
      · rw [AList.lookup_insert_ne mine] at held
        exact kept text hash held
  · rw [same]
    exact ⟨ttl, kept⟩

theorem toOption_eq_some {result : Except ε α} {value : α}
    (passed : result.toOption = some value) : result = .ok value := by
  cases result with
  | error failed => cases passed
  | ok value' => rw [Option.some.inj passed]

theorem opened_of_run (run : Run (serviceMachine cfg auth ringTimeout) ts s) :
    Opened cfg ts s.backend.ws := by
  refine run.invariant_with_history (fun ts s => Opened cfg ts s.backend.ws)
    (fun u member => by cases member) fun earlier t opened taken => ?_
  have kept : Opened cfg (earlier ++ [t]) t.before.backend.ws := by
    intro u member
    obtain ⟨before, t', after, rfl, connected⟩ := opened u member
    exact ⟨before, t', after ++ [t], by simp, connected⟩
  rcases step_cases taken with ⟨req, wall, input, handled⟩ | ⟨_, same, _⟩
  · obtain ⟨before, _, after, response, handed⟩ := t
    obtain rfl := input
    have handled : Handled cfg wall before req after response := handled
    cases handled with
    | refuses response _ _ => exact kept
    | logsIn body u p result _ _ _ _ _ _ => exact kept
    | registers body u p auth' _ _ _ _ _ _ => exact kept
    | upgrade ws upgrade accepted =>
      intro u member
      have member : u ∈ users ws := member
      rw [accepted, WsServer.accept] at member
      split at member
      · exact kept u member
      · split at member
        · exact kept u member
        · rename_i userId verified
          have verified := toOption_eq_some verified
          simp only [users, List.map_append, List.mem_append, List.map_cons, List.map_nil,
            List.mem_singleton] at member
          rcases member with old | rfl
          · exact kept u old
          · exact ⟨earlier, _, [], rfl, wall, _, ⟨req, rfl, upgrade, rfl⟩, verified⟩
  · intro u member
    rw [same] at member
    exact kept u member

/-- The one response with a token in it is that to a login that succeeds. -/
theorem sends_cases (taken : (serviceMachine cfg auth ringTimeout).Takes t)
    (sends : Sends token t) : ∃ wall u p, Posts .login wall u p t ∧
      token = cfg.jwt.create cfg.jwtSecret ⟨u, wall, wall + t.before.auth.ttl⟩ ∧
      t.before.auth.store.checkPassword cfg.host u p = true := by
  rcases step_cases taken with ⟨req, wall, input, handled⟩ | ⟨_, _, silent⟩
  · obtain ⟨before, _, after, response, handed⟩ := t
    obtain rfl := input
    have handled : Handled cfg wall before req after response := handled
    replace sends : response.bind tokenOf = some token := sends
    cases handled with
    | upgrade ws _ _ => cases sends
    | refuses response _ noToken =>
      rw [Option.bind_some, noToken] at sends
      cases sends
    | registers body u p auth' _ _ _ _ _ _ => cases sends
    | logsIn body u p result upgrade found sent named secret done =>
      refine ⟨wall, u, p, ⟨req, body, rfl, upgrade, found, sent, named, secret⟩, ?_⟩
      unfold AuthService.login at done
      split at done
      · cases done
      · rename_i checked
        obtain rfl := Except.ok.inj done
        exact ⟨(Option.some.inj sends).symm, by simpa using checked⟩
  · rw [Sends, silent] at sends
    cases sends

/-- A password that is accepted is that of a row. -/
theorem checkPassword_row {host : Host} (checked : a.store.checkPassword host u p = true) :
    ∃ hash, a.store.users.lookup (cString u) = some hash ∧
      cString hash = UserStore.hashPassword host p := by
  unfold UserStore.checkPassword UserStore.findUser at checked
  cases found : a.store.users.lookup (cString u) with
  | none => simp [found] at checked
  | some hash => exact ⟨hash, rfl, by simpa [found] using checked⟩

/-- The account a user logs in with: a row that was there from the start, or a registration
under a name that is the same to the database, with a password of the same digest. -/
def Account (cfg : ServiceConfig) (auth : AuthService) (ts : List ServiceStep) (u p : Bytes) :
    Prop :=
  (∃ hash, auth.store.users.lookup (cString u) = some hash ∧
    cString hash = UserStore.hashPassword cfg.host p) ∨
  ∃ t ∈ ts, ∃ u' p', Registers u' p' t ∧ cString u' = cString u ∧
    cfg.host.sha256 p' = cfg.host.sha256 p

theorem account_of_run (run : Run (serviceMachine cfg auth ringTimeout) ts s)
    (checked : s.auth.store.checkPassword cfg.host u p = true) : Account cfg auth ts u p := by
  obtain ⟨hash, held, same⟩ := checkPassword_row checked
  rcases (entered_of_run run).2 _ _ held with old | ⟨t, member, u', p', registered, text, rfl⟩
  · exact .inl ⟨hash, old, same⟩
  · rw [Accounts.cString_hashPassword, Accounts.hashPassword_inj] at same
    exact .inr ⟨t, member, u', p', registered, text, same⟩

/-- Behind a user there is, in this order, an account, a login with its password under the
user's name, and an upgrade with the token of that login, before it expired. -/
def Authenticated (cfg : ServiceConfig) (auth : AuthService) (ts : List ServiceStep)
    (u : Bytes) : Prop :=
  ∃ before login between connect after, ts = before ++ login :: between ++ connect :: after ∧
    ∃ issued p token wall, LogsIn issued u p token login ∧ Account cfg auth before u p ∧
      Connects wall token connect ∧ wall ≤ issued + auth.ttl

theorem authenticated_of_run (lawful : cfg.jwt.Lawful)
    (run : Run (serviceMachine cfg auth ringTimeout) ts s) (unforged : Unforged cfg ts)
    (there : u ∈ users s.backend.ws) : Authenticated cfg auth ts u := by
  obtain ⟨early, connect, after, rfl, wall, token, connects, verified⟩ := opened_of_run run u there
  obtain ⟨login, member, sends⟩ := unforged early connect after rfl wall token _ connects verified
  obtain ⟨before, between, rfl⟩ := List.append_of_mem member
  obtain ⟨first, taken⟩ := run.split.1.split
  obtain ⟨issued, u', p, posts, rfl, checked⟩ := sends_cases taken sends
  obtain ⟨good, name⟩ := (verifyToken_create lawful _).mp verified
  obtain rfl : u = u' := name
  obtain ⟨_, inTime⟩ := lawful.inTime _ _ _ good
  refine ⟨before, login, between, connect, after, by simp, issued, p, _, wall, ⟨posts, sends⟩,
    account_of_run first checked, connects, ?_⟩
  rw [← (entered_of_run first).1]
  exact inTime

/-- **Whoever has a session has logged in.** In every run in which no token is forged, each
session belongs to a user with an account who has logged in and connected with the token. -/
theorem sessions_authenticated (cfg : ServiceConfig) (auth : AuthService) (ringTimeout : Int)
    (lawful : cfg.jwt.Lawful) (run : Run (serviceMachine cfg auth ringTimeout) ts s)
    (unforged : Unforged cfg ts) (session : WsSession)
    (there : session ∈ s.backend.ws.accepted) : Authenticated cfg auth ts session.userId :=
  authenticated_of_run lawful run unforged (List.mem_map_of_mem there)

/-! ## A deployment -/

/-- A token of the first account, as jwt-cpp writes it. -/
def aliceToken : Bytes :=
  ascii ("eyJhbGciOiJIUzI1NiIsInR5cCI6IkpXVCJ9." ++
    "eyJleHAiOjE3MDAwODY0MDAsImlhdCI6MTcwMDAwMDAwMCwidXNlcklkIjoiYWxpY2UifQ." ++
    "4kQgM2CspWxZJ27yFh6BH5QhCfqmLnsqZupgONVYuLc")

/-- Bytes as pairs of letters. -/
def letters (s : Bytes) : Bytes := s.flatMap fun b => [65 + b / 16, 65 + b % 16]

def unletters : Bytes → Bytes
  | x :: y :: rest => ((x - 65) * 16 + (y - 65)) :: unletters rest
  | _ => []

theorem letters_byte (b : UInt8) : (65 + b / 16 - 65) * 16 + (65 + b % 16 - 65) = b ∧
    ∀ c ∈ [65 + b / 16, 65 + b % 16], 65 ≤ c := by
  have bound := b.toNat_lt
  have cancel (x : UInt8) : 65 + x - 65 = x := by
    rw [UInt8.add_comm, UInt8.add_sub_cancel]
  constructor
  · rw [cancel, cancel]
    apply UInt8.toNat_inj.mp
    simp only [UInt8.toNat_add, UInt8.toNat_mul, UInt8.toNat_div, UInt8.toNat_mod,
      UInt8.reduceToNat]
    omega
  · intro c member
    simp only [List.mem_cons, List.not_mem_nil, or_false] at member
    rw [UInt8.le_iff_toNat_le]
    rcases member with rfl | rfl
    · simp only [UInt8.toNat_add, UInt8.toNat_div, UInt8.reduceToNat]
      omega
    · simp only [UInt8.toNat_add, UInt8.toNat_mod, UInt8.reduceToNat]
      omega

theorem unletters_letters (s : Bytes) : unletters (letters s) = s := by
  induction s with
  | nil => rfl
  | cons b s ih =>
    simp only [letters, List.flatMap_cons, List.cons_append, List.nil_append, unletters,
      (letters_byte b).1]
    exact congrArg _ ih

theorem notMem_letters {s : Bytes} {c : UInt8} (low : c < 65) : c ∉ letters s := by
  intro member
  obtain ⟨b, _, inside⟩ := List.mem_flatMap.mp member
  exact absurd low (UInt8.not_lt.mpr ((letters_byte b).2 c inside))

/-- A number as a sign and as many letters. -/
def plainInt (n : Int) : Bytes := (if n < 0 then 66 else 67) :: List.replicate n.natAbs 65

def readInt : Bytes → Int
  | [] => 0
  | sign :: rest => if sign = 66 then -rest.length else rest.length

theorem readInt_plainInt (n : Int) : readInt (plainInt n) = n := by
  have other : (67 : UInt8) ≠ 66 := by decide
  simp only [plainInt, readInt, List.length_replicate]
  by_cases negative : n < 0
  · simp only [negative, ↓reduceIte]
    omega
  · simp only [negative, ↓reduceIte, other]
    omega

theorem notMem_plainInt {n : Int} {c : UInt8} (low : c < 65) : c ∉ plainInt n := by
  rintro (_ | ⟨_, member⟩)
  · split at low <;> exact absurd low (by decide)
  · rw [List.eq_of_mem_replicate member] at low
    exact absurd low (by decide)

/-- The parts before and behind the first dot. -/
def cut (s : Bytes) : Bytes × Bytes := (s.takeWhile (· ≠ 46), (s.dropWhile (· ≠ 46)).tail)

theorem cut_append {front : Bytes} (clean : 46 ∉ front) (rest : Bytes) :
    cut (front ++ 46 :: rest) = (front, rest) := by
  have passes : ∀ c ∈ front, decide (c ≠ 46) = true := by
    intro c member
    refine decide_eq_true ?_
    rintro rfl
    exact clean member
  rw [cut, List.takeWhile_append_of_pos passes, List.dropWhile_append_of_pos passes]
  simp

/-- A token with nothing but its claims. -/
def plainText (token : Token) : Bytes :=
  plainInt token.issuedAt ++ 46 :: (letters token.userId ++ 46 :: plainInt token.expiresAt)

def plainClaims (text : Bytes) : Token :=
  let (issuedAt, text) := cut text
  let (userId, expiresAt) := cut text
  ⟨unletters userId, readInt issuedAt, readInt expiresAt⟩

theorem plainClaims_plainText (token : Token) : plainClaims (plainText token) = token := by
  simp only [plainText, plainClaims, cut_append (notMem_plainInt (by decide)),
    cut_append (notMem_letters (by decide)), unletters_letters, readInt_plainInt]

/-- The claims of the first account's token, and of plain ones. -/
def claims (text : Bytes) : Token :=
  if text = aliceToken then ⟨ascii "alice", 1700000000, 1700086400⟩ else plainClaims text

/-- A library that writes the first account's token as jwt-cpp does. -/
def jwt : JwtLibrary where
  create secret token :=
    if secret = ascii "change_me_in_production" ∧ token.userId = ascii "alice" ∧
        token.issuedAt = 1700000000 ∧ token.expiresAt = 1700086400 then aliceToken
    else plainText token
  decode text := .ok ((claims text).decoded text)
  verify _ wall decoded :=
    let token := claims decoded.text
    if token.issuedAt ≤ wall ∧ wall ≤ token.expiresAt then .ok ()
    else .error (.tokenVerification (ascii "token expired"))

theorem plainText_ne (token : Token) : plainText token ≠ aliceToken := by
  intro same
  have first := congrArg List.head? same
  rw [plainText, plainInt, List.cons_append, List.head?_cons] at first
  split at first
  · exact absurd first (by decide +kernel)
  · exact absurd first (by decide +kernel)

theorem claims_create (secret : Bytes) (token : Token) :
    claims (jwt.create secret token) = token := by
  simp only [jwt]
  by_cases known : secret = ascii "change_me_in_production" ∧ token.userId = ascii "alice" ∧
      token.issuedAt = 1700000000 ∧ token.expiresAt = 1700086400
  · rw [if_pos known, claims, if_pos rfl]
    obtain ⟨_, user, issued, expires⟩ := known
    rw [← user, ← issued, ← expires]
  · simp only [if_neg known, claims, plainText_ne, ↓reduceIte, plainClaims_plainText]

theorem jwt_verify (secret : Bytes) (token : Token) (wall : Int) :
    jwt.verify secret wall (token.decoded (jwt.create secret token)) = .ok () ↔
      token.issuedAt ≤ wall ∧ wall ≤ token.expiresAt := by
  have same := claims_create secret token
  simp only [jwt, Token.decoded] at same ⊢
  rw [same]
  simp

theorem jwt_lawful : jwt.Lawful where
  claims secret token := by
    have same := claims_create secret token
    simp only [jwt] at same ⊢
    rw [same]
  current secret token wall issued early := (jwt_verify secret token wall).mpr ⟨issued, early.le⟩
  inTime secret token wall good := (jwt_verify secret token wall).mp good
  text secret token := by
    simp only [jwt]
    split
    · decide +kernel
    · refine ⟨by simp [plainText, plainInt], ?_⟩
      simp only [plainText, List.mem_cons, List.mem_append, not_or]
      exact ⟨notMem_plainInt (by decide), by decide, notMem_letters (by decide), by decide,
        notMem_plainInt (by decide)⟩

/-- The service with the defaults of `main`. -/
def service : ServiceConfig where
  host := { CallLife.deployed.host with sha256 := Accounts.passwordHost.sha256 }
  turn := CallLife.deployed.turn
  jwtSecret := ascii "change_me_in_production"
  jwt := jwt
  what _ _ := ascii "type must be string"

def post (path : String) : HttpRequest where
  upgrade := false
  method := ascii "POST"
  target := ascii path
  headers := ∅
  body := some (.object [(ascii "userId", .text "alice"), (ascii "password", .text "pw")])

def upgradeWith (token : Bytes) : HttpRequest where
  upgrade := true
  method := ascii "GET"
  target := ascii "/ws?token=" ++ token
  headers := ∅
  body := none

/-- The first account is registered, logs in and connects, an hour later. -/
def aliceInputs : List ServiceInput :=
  [.request (post "/api/auth/register") 1699999999, .request (post "/api/auth/login") 1700000000,
    .request (upgradeWith aliceToken) 1700003600]

theorem alice_connects (check : Service → Bool) (passed : ((serviceMachine service {} 30).exec
      (serviceMachine service {} 30).init aliceInputs).toOption.any (fun rest => check rest.2)) :
    ∃ ts s, Run (serviceMachine service {} 30) ts s ∧ Unforged service ts ∧ check s = true := by
  let M := serviceMachine service {} 30
  obtain ⟨⟨ts, s₃⟩, done, good⟩ := exists_of_check _ passed
  obtain ⟨s₁, o₁, _, first, done₁, rfl⟩ := Machine.exec_cons.mp done
  obtain ⟨s₂, o₂, _, second, done₂, rfl⟩ := Machine.exec_cons.mp done₁
  obtain ⟨_, o₃, _, third, done₃, rfl⟩ := Machine.exec_cons.mp done₂
  obtain ⟨rfl, rfl⟩ := Prod.mk.inj (Except.ok.inj done₃)
  have run := ((Run.start.step first).step second).step third
  have sent : o₂.1.bind tokenOf = some aliceToken := by
    have answered : (M.step M.init (.request (post "/api/auth/register") 1699999999)).toOption.any
        (fun a => (M.step a.1 (.request (post "/api/auth/login") 1700000000)).toOption.any
          fun b => b.2.1.bind tokenOf = some aliceToken) = true := by
      decide +kernel
    rw [first] at answered
    simp only [Except.toOption, Option.any_some] at answered
    rw [second] at answered
    simpa using answered
  have quiet (path : String) (at' : Int) (before after : Service)
      (o : Option ApiResponse × List (Nat × Json)) (wall : Int) (token : Bytes) :
      ¬ Connects wall token ⟨before, .request (post path) at', after, o⟩ := by
    rintro ⟨req, input, upgrade, _⟩
    obtain ⟨rfl, _⟩ := ServiceInput.request.inj input
    cases upgrade
  have shown : WsServer.extractToken (upgradeWith aliceToken).target = aliceToken := by
    decide +kernel
  refine ⟨_, _, run, ?_, good⟩
  refine ((eachAfter_nil.concat fun _ _ _ asked => ?_).concat fun _ _ _ asked => ?_).concat ?_
  · exact absurd asked (quiet "/api/auth/register" 1699999999 M.init s₁ o₁ _ _)
  · exact absurd asked (quiet "/api/auth/login" 1700000000 s₁ s₂ o₂ _ _)
  · rintro wall token userId ⟨req, input, _, rfl⟩ _
    obtain ⟨rfl, _⟩ := ServiceInput.request.inj input
    rw [shown]
    exact ⟨_, List.mem_append_right _ (List.mem_singleton_self _), sent⟩

theorem sessions_authenticated_alice :
    ∃ ts s, Run (serviceMachine service {} 30) ts s ∧ ∃ session ∈ s.backend.ws.accepted,
      session.userId = ascii "alice" ∧ Authenticated service {} ts session.userId := by
  obtain ⟨ts, s, run, unforged, named⟩ := alice_connects
    (fun s => s.backend.ws.accepted = [{ userId := ascii "alice" }]) (by decide +kernel)
  have there : { userId := ascii "alice" } ∈ s.backend.ws.accepted := by
    rw [of_decide_eq_true named]
    exact List.mem_singleton_self _
  exact ⟨ts, s, run, _, there, rfl,
    sessions_authenticated service {} 30 jwt_lawful run unforged _ there⟩

end Zaza.SessionAuthority
