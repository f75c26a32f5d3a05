import Zaza.Repl
import Zaza.SessionAuthority

/-!
From `register` to a session, with the client at the other end.

The commands of the client post to the routes of the service and read its responses;
`WsClient::connect` puts the token into its target. What a registration has entered
stays in the database (`row_kept`), so the login finds it whenever it comes; and a
token is one text on both sides, with nothing in it that would end the parameter of
the target early.
-/
namespace Zaza.LoginFlow
open Zaza HttpServer Registry SessionAuthority Commands

/-- What `HttpClient::post` sends. Its `Connection` header is not that of an upgrade. -/
def postRequest (path : String) (body : Json) : HttpRequest where
  upgrade := false
  method := ascii "POST"
  target := ascii path
  headers := (∅ : UnorderedMap Bytes Bytes).insert (ascii "Connection") (ascii "close")
  body := some body

/-- What `WsClient::connect` sends. -/
def connectRequest (token : Bytes) : HttpRequest where
  upgrade := true
  method := ascii "GET"
  target := ascii "/ws?token=" ++ token
  headers := (∅ : UnorderedMap Bytes Bytes).insert (ascii "Upgrade") (ascii "websocket")
  body := none

/-- The client's request is the one a step handles, and it receives the response. -/
structure Exchange (http : HttpClient) (path : String) (body : Json) (wall : Int)
    (t : ServiceStep) (response : ApiResponse) (received : HttpResponse) : Prop where
  asked : t.input = .request (postRequest path body) wall
  answered : t.output.1 = some response
  posted : http.post path body = .ok received
  status : received.status = response.status
  parsed : ∀ v, response.body = .json v → received.parsed = .ok v

variable {cfg : ServiceConfig} {auth : AuthService} {ringTimeout : Int} {s : Service}
  {ts : List ServiceStep} {t : ServiceStep} {u p token : Bytes}

/-! ## The service -/

/-- A row stays as it is. -/
theorem row_kept {before after : List ServiceStep} {text hash : Bytes}
    (run : Run (serviceMachine cfg auth ringTimeout) (before ++ t :: after) s)
    (held : t.after.auth.store.users.lookup text = some hash) :
    s.auth.store.users.lookup text = some hash := by
  obtain ⟨early, taken⟩ := run.split
  refine run.related (fun s s' : Service => s.auth.store.users.lookup text = some hash →
      s'.auth.store.users.lookup text = some hash)
    (fun _ held => held) (fun _ _ _ first second held => second (first held))
    (fun t taken held => ?_) (early.step taken) ⟨after, by simp⟩ held
  rcases step_cases taken with ⟨req, wall, input, handled⟩ | ⟨same, _, _⟩
  · obtain ⟨before, _, after, response, handed⟩ := t
    obtain rfl := input
    have handled : Handled cfg wall before req after response := handled
    cases handled with
    | upgrade ws _ _ => exact held
    | refuses response _ _ => exact held
    | logsIn body u p result _ _ _ _ _ _ => exact held
    | registers body u p auth' _ _ _ _ _ done =>
      have free := Accounts.succeeds_register_iff.mp ⟨auth', done⟩
      have apart : text ≠ cString u := by
        rintro rfl
        rw [free] at held
        cases held
      simp only [(registerUser_ok done).2, AList.lookup_insert_ne apart]
      exact held
  · rw [same]
    exact held

theorem takes_request {req : HttpRequest} {wall : Int}
    (taken : (serviceMachine cfg auth ringTimeout).Takes t) (asked : t.input = .request req wall) :
    handleRequest cfg wall t.before req = (t.after, t.output.1) := by
  rcases takes_cases taken with ⟨req', wall', input, result, _⟩ | ⟨input, other, _⟩
  · obtain ⟨rfl, rfl⟩ := ServiceInput.request.inj (asked.symm.trans input)
    exact result
  · cases asked.symm.trans other

theorem route_register (body : Json) :
    routes (routeKey (postRequest "/api/auth/register" body)) = some .register := by
  have known : routes (ascii "POST" ++ 32 :: (ascii "/api/auth/register").takeWhile (· ≠ 0x3F)) =
      some .register := by decide +kernel
  exact known

theorem route_login (body : Json) :
    routes (routeKey (postRequest "/api/auth/login" body)) = some .login := by
  have known : routes (ascii "POST" ++ 32 :: (ascii "/api/auth/login").takeWhile (· ≠ 0x3F)) =
      some .login := by decide +kernel
  exact known

/-- What the client posts has both fields. -/
theorem withAccount_accountBody (missing : String) (a : AuthService)
    (act : Bytes → Bytes → AuthService × ApiResponse) :
    Routes.withAccount cfg missing a (some (accountBody u p)) act = .ok (act u p) := rfl

/-- A registration is refused, or enters the user. -/
theorem register_cases {wall : Int} (taken : (serviceMachine cfg auth ringTimeout).Takes t)
    (asked : t.input = .request (postRequest "/api/auth/register" (accountBody u p)) wall) :
    (∃ what, t.output.1 = some (Routes.refuseRaw 409 what)) ∨
    t.after.auth.store.users.lookup (cString u) = some (UserStore.hashPassword cfg.host p) ∧
      t.output.1 = some ⟨200, .json (.object [(ascii "ok", .boolean true)])⟩ := by
  have result := takes_request taken asked
  rw [handleRequest, if_neg (by simp [postRequest]), route_register] at result
  simp only [handler, postRequest, Routes.register, withAccount_accountBody] at result
  cases done : t.before.auth.registerUser cfg.host u p with
  | error what =>
    simp only [done, Prod.mk.injEq] at result
    exact .inl ⟨_, result.2.symm⟩
  | ok a =>
    simp only [done, Prod.mk.injEq] at result
    refine .inr ⟨?_, result.2.symm⟩
    rw [← result.1]
    simp only [(registerUser_ok done).2, AList.lookup_insert]

/-- A login against the row of its password is given a token. -/
theorem login_answered {wall : Int} (taken : (serviceMachine cfg auth ringTimeout).Takes t)
    (asked : t.input = .request (postRequest "/api/auth/login" (accountBody u p)) wall)
    (row : t.before.auth.store.users.lookup (cString u) =
      some (UserStore.hashPassword cfg.host p)) :
    t.output.1 = some ⟨200, .json (.object
      [(ascii "token", .string (cfg.jwt.create cfg.jwtSecret ⟨u, wall, wall + t.before.auth.ttl⟩)),
        (ascii "userId", .string u)])⟩ := by
  have result := takes_request taken asked
  have checked : t.before.auth.store.checkPassword cfg.host u p = true := by
    simp [UserStore.checkPassword, UserStore.findUser, row, Accounts.cString_hashPassword]
  have done : t.before.auth.login cfg.host wall u p =
      .ok ⟨⟨u, wall, wall + t.before.auth.ttl⟩, u⟩ := by
    simp [AuthService.login, checked, AuthService.sign]
  rw [handleRequest, if_neg (by simp [postRequest]), route_login] at result
  simp only [handler, postRequest, Routes.login, withAccount_accountBody, done] at result
  rw [← (Prod.mk.inj result).2]
  rfl

/-- A target ends with its token. -/
theorem extractToken_connect (clean : 0x26 ∉ token) :
    WsServer.extractToken (ascii "/ws?token=" ++ token) = token := by
  have path : ascii "/ws?token=" = 47 :: 119 :: 115 :: 63 :: ascii "token=" := by decide
  have here : (ascii "token=").isPrefixOf (ascii "token=" ++ token) = true :=
    List.isPrefixOf_iff_prefix.mpr (List.prefix_append _ _)
  have first : (ascii "token=" ++ token).tails.find? (ascii "token=").isPrefixOf =
      some (ascii "token=" ++ token) := by
    rw [show (ascii "token=" ++ token).tails = (ascii "token=" ++ token) ::
      ((ascii "token=" ++ token).tails.tail) by cases ascii "token=" ++ token <;> rfl,
      List.find?_cons_of_pos here]
  have found : (ascii "/ws?token=" ++ token).tails.find? (ascii "token=").isPrefixOf =
      some (ascii "token=" ++ token) := by
    rw [path]
    exact first
  have rest : (ascii "token=" ++ token).drop 6 = token := by
    have length : (ascii "token=").length = 6 := by decide
    rw [← length, List.drop_left]
  rw [WsServer.extractToken, found]
  simp only [rest]
  rw [List.takeWhile_eq_self_iff]
  intro c member
  refine decide_eq_true ?_
  rintro rfl
  exact clean member

/-- An upgrade with a good token opens a session, which messages to its user then go to. -/
theorem connect_enters {wall : Int} {claims : Token} (lawful : cfg.jwt.Lawful)
    (issued : claims.issuedAt ≤ wall) (current : wall < claims.expiresAt) (s : Service) :
    handleRequest cfg wall s (connectRequest (cfg.jwt.create cfg.jwtSecret claims)) =
      (⟨s.auth, ⟨s.backend.calls, ⟨s.backend.ws.accepted ++ [{ userId := claims.userId }],
        s.backend.ws.sessions.insert claims.userId s.backend.ws.accepted.length⟩⟩⟩, none) := by
  obtain ⟨nonempty, clean⟩ := lawful.text cfg.jwtSecret claims
  have verified : (verifyToken cfg wall (cfg.jwt.create cfg.jwtSecret claims)).toOption =
      some claims.userId := by
    rw [(verifyToken_create lawful claims).mpr ⟨lawful.current _ _ _ issued current, rfl⟩]
    rfl
  have upgrade : (connectRequest (cfg.jwt.create cfg.jwtSecret claims)).upgrade = true := rfl
  rw [handleRequest, if_pos upgrade]
  simp only [WsServer.accept, connectRequest, extractToken_connect clean, if_neg nonempty, verified]

/-! ## The client -/

/-- The command reports a user only if it has been entered. -/
theorem register_row {http : HttpClient} {wall : Int} {response : ApiResponse}
    {received : HttpResponse} {session : Session}
    (exchange : Exchange http "/api/auth/register" (accountBody u p) wall t response received)
    (taken : (serviceMachine cfg auth ringTimeout).Takes t)
    (reported : (Commands.register http [u, p] session).1.ok = true) :
    t.after.auth.store.users.lookup (cString u) = some (UserStore.hashPassword cfg.host p) := by
  rcases register_cases taken exchange.asked with ⟨what, refused⟩ | ⟨row, _⟩
  · have status : received.status = 409 := by
      rw [exchange.status, Option.some.inj (exchange.answered.symm.trans refused)]
      rfl
    rw [Commands.register, exchange.posted] at reported
    simp [status] at reported
  · exact row

/-- What the command makes of the response to a login. -/
theorem login_command {http : HttpClient} {wall : Int} {received : HttpResponse}
    {session : Session} (nonempty : token ≠ [])
    (exchange : Exchange http "/api/auth/login" (accountBody u p) wall t ⟨200, .json (.object
      [(ascii "token", .string token), (ascii "userId", .string u)])⟩ received) :
    Commands.login http [u, p] session = (⟨true, ascii "logged in as " ++ u⟩,
      { session with userId := u, jwt := token }, []) := by
  have parsed := exchange.parsed _ rfl
  have status : received.status = 200 := exchange.status
  have name : (Json.object [(ascii "token", .string token), (ascii "userId", .string u)]).value
      "userId" Json.getString u = .ok u := rfl
  have text : (Json.object [(ascii "token", .string token), (ascii "userId", .string u)]).value
      "token" Json.getString [] = .ok token := rfl
  simp only [Commands.login, exchange.posted, status, ne_eq, not_true_eq_false, ↓reduceIte, parsed,
    name, text, nonempty]

/-- **Registered users connect.** If the client's `register` has said that a user is
registered, a later `login` with the same password logs it in; and an upgrade with the
token the client then has, from when it was issued until it expires, opens a session that
messages to the user go to, whatever else the service is asked in between. -/
theorem registered_user_connects (cfg : ServiceConfig) (auth : AuthService) (ringTimeout : Int)
    (lawful : cfg.jwt.Lawful) {before between after : List ServiceStep}
    {register login : ServiceStep}
    (run : Run (serviceMachine cfg auth ringTimeout)
      (before ++ register :: (between ++ login :: after)) s) {u p : Bytes}
    {http₁ http₂ : HttpClient} {session₁ session₂ : Session} {wall₁ wall₂ : Int}
    {response₁ response₂ : ApiResponse} {received₁ received₂ : HttpResponse}
    (registers : Exchange http₁ "/api/auth/register" (accountBody u p) wall₁ register response₁
      received₁)
    (reported : (Commands.register http₁ [u, p] session₁).1.ok = true)
    (logsIn : Exchange http₂ "/api/auth/login" (accountBody u p) wall₂ login response₂ received₂) :
    ∃ token, Commands.login http₂ [u, p] session₂ = (⟨true, ascii "logged in as " ++ u⟩,
        { session₂ with userId := u, jwt := token }, []) ∧
      ∀ wall, wall₂ ≤ wall → wall < wall₂ + auth.ttl → ∀ s',
        (handleRequest cfg wall s (connectRequest token)).1 = s' →
        users s'.backend.ws = users s.backend.ws ++ [u] ∧
        (s'.backend.ws.send u).1 = some (users s.backend.ws).length := by
  obtain ⟨early, taken₁⟩ := run.split
  have run' : Run (serviceMachine cfg auth ringTimeout)
      ((before ++ register :: between) ++ login :: after) s := by simpa using run
  obtain ⟨middle, taken₂⟩ := run'.split
  have row := row_kept middle (register_row registers taken₁ reported)
  have answered := login_answered taken₂ logsIn.asked row
  obtain rfl := Option.some.inj (logsIn.answered.symm.trans answered)
  have ttl := (entered_of_run middle).1
  refine ⟨_, login_command (lawful.text _ _).1 logsIn, fun wall issued inTime s' entered => ?_⟩
  rw [ttl] at entered
  rw [@connect_enters cfg wall ⟨u, wall₂, wall₂ + auth.ttl⟩ lawful issued inTime s] at entered
  subst entered
  constructor
  · simp [users]
  · simp [users, WsServer.send]

/-- A client that is given these responses. -/
def client (registered loggedIn : HttpResponse) : HttpClient where
  post path _ := .ok (if path = "/api/auth/register" then registered else loggedIn)
  what _ := ascii "type must be string"

def registeredResponse : HttpResponse where
  status := 200
  body := ascii "\x7b\"ok\":true\x7d"
  parsed := .ok (.object [(ascii "ok", .boolean true)])

def loggedInResponse : HttpResponse where
  status := 200
  body := ascii "\x7b\"token\":\"" ++ aliceToken ++ ascii "\",\"userId\":\"alice\"\x7d"
  parsed := .ok (.object [(ascii "token", .string aliceToken), (ascii "userId", .text "alice")])

/-- The first account registers and logs in. -/
theorem registered_user_connects_alice :
    ∃ ts s, Run (serviceMachine service {} 30) ts s ∧ ∃ token,
      Commands.login (client registeredResponse loggedInResponse) [ascii "alice", ascii "pw"] {} =
        (⟨true, ascii "logged in as " ++ ascii "alice"⟩,
          { userId := ascii "alice", jwt := token }, []) ∧
      ∀ wall, 1700000000 ≤ wall → wall < 1700000000 + 86400 → ∀ s',
        (handleRequest service wall s (connectRequest token)).1 = s' →
          users s'.backend.ws = users s.backend.ws ++ [ascii "alice"] ∧
          (s'.backend.ws.send (ascii "alice")).1 = some (users s.backend.ws).length := by
  let M := serviceMachine service {} 30
  let body := accountBody (ascii "alice") (ascii "pw")
  let registers := ServiceInput.request (postRequest "/api/auth/register" body) 1699999999
  let logsIn := ServiceInput.request (postRequest "/api/auth/login" body) 1700000000
  obtain ⟨⟨s₁, o₁⟩, first, rest⟩ := @exists_of_check _ _ (M.step M.init registers) (fun after =>
    after.2.1.any (fun response => response.status = 200) ∧
      (M.step after.1 logsIn).toOption.any (fun _ => true) = true) (by decide +kernel)
  obtain ⟨success, rest⟩ := of_decide_eq_true rest
  obtain ⟨⟨s₂, o₂⟩, second, _⟩ := exists_of_check _ rest
  obtain ⟨what, refused⟩ | ⟨row, entered⟩ :=
    @register_cases service {} 30 ⟨M.init, registers, s₁, o₁⟩ _ _ _ first rfl
  · have refused : o₁.1 = _ := refused
    rw [refused] at success
    cases success
  have answered := @login_answered service {} 30 ⟨s₁, logsIn, s₂, o₂⟩ _ _ _ second rfl row
  have run : Run M ([] ++ ⟨M.init, registers, s₁, o₁⟩ :: ([] ++ [⟨s₁, logsIn, s₂, o₂⟩])) s₂ :=
    (Run.start.step first).step second
  have token : service.jwt.create service.jwtSecret
      ⟨ascii "alice", 1700000000, 1700000000 + s₁.auth.ttl⟩ = aliceToken := by
    rw [show s₁.auth.ttl = 86400 from (entered_of_run (Run.start.step first)).1]
    decide +kernel
  rw [token] at answered
  have registered : Exchange (client registeredResponse loggedInResponse) "/api/auth/register" body
      1699999999 ⟨M.init, registers, s₁, o₁⟩ _ registeredResponse :=
    ⟨rfl, entered, rfl, rfl, fun v same => by rw [← ResponseBody.json.inj same]; rfl⟩
  have loggedIn : Exchange (client registeredResponse loggedInResponse) "/api/auth/login" body
      1700000000 ⟨s₁, logsIn, s₂, o₂⟩ _ loggedInResponse :=
    ⟨rfl, answered, rfl, rfl, fun v same => by rw [← ResponseBody.json.inj same]; rfl⟩
  have reported : (Commands.register (client registeredResponse loggedInResponse)
      [ascii "alice", ascii "pw"] {}).1.ok = true := by decide +kernel
  exact ⟨_, s₂, run, registered_user_connects service {} 30 jwt_lawful run registered reported
    loggedIn⟩

end Zaza.LoginFlow
