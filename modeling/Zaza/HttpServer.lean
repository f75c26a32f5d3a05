import Zaza.Auth
import Zaza.WsServer

/-!
The HTTP side of the backend: `backend/api/http_server.cpp`, the rest of
`backend/api/routes.cpp`, `backend/auth/jwt.cpp`, and the backend with it.

A connection carries one request. It is an upgrade, which goes to the WebSocket
server, or it is looked up among the routes. The text of a body is what `json::parse`
makes of it, as everywhere; a response that is put together from strings is kept as
its text, since nothing is escaped in it. Tokens are texts here. What jwt-cpp makes
and reads them with is a parameter, with its documented behaviour as `Lawful`.
-/
namespace Zaza

/-! ## `jwt.cpp` -/

/-- What jwt-cpp throws, with its `what()`. -/
inductive JwtException where
  /-- A `token_verification_exception`. -/
  | tokenVerification (what : Bytes)
  | other (what : Bytes)

/-- What jwt-cpp decodes a text to. A claim that is not there, or is of another type, throws
when it is asked for. -/
structure DecodedJwt where
  text : Bytes
  userId : Except JwtException Bytes
  expiresAt : Except JwtException Int

/-- jwt-cpp with HS256. -/
structure JwtLibrary where
  /-- The text of a token with these claims, signed with a secret. -/
  create : (secret : Bytes) → Token → Bytes
  decode : Bytes → Except JwtException DecodedJwt
  /-- The verifier `Jwt::verify` puts together, at a time of the system clock. -/
  verify : (secret : Bytes) → (wall : Int) → DecodedJwt → Except JwtException Unit

/-- A text with these claims. -/
def Token.decoded (token : Token) (text : Bytes) : DecodedJwt :=
  ⟨text, .ok token.userId, .ok token.expiresAt⟩

/-- A token has the claims it was made with, and is good under its secret from when it was
issued until it expires. The clock is read in seconds, so within the second of the expiry
either may be the case. -/
structure JwtLibrary.Lawful (jwt : JwtLibrary) : Prop where
  claims : ∀ secret (token : Token),
    jwt.decode (jwt.create secret token) = .ok (token.decoded (jwt.create secret token))
  current : ∀ secret (token : Token) wall, token.issuedAt ≤ wall → wall < token.expiresAt →
    jwt.verify secret wall (token.decoded (jwt.create secret token)) = .ok ()
  inTime : ∀ secret (token : Token) wall,
    jwt.verify secret wall (token.decoded (jwt.create secret token)) = .ok () →
      token.issuedAt ≤ wall ∧ wall ≤ token.expiresAt
  /-- Three parts in base64url, with dots between them. -/
  text : ∀ secret token, jwt.create secret token ≠ [] ∧ 0x26 ∉ jwt.create secret token

structure JwtPayload where
  userId : Bytes
  exp : Int

/-- The two `catch` clauses. -/
def JwtException.rethrown : JwtException → JwtError
  | .tokenVerification what =>
    if what.tails.any (ascii "expired").isPrefixOf then .expired else .invalid
  | .other _ => .invalid

namespace Jwt

/-- The `try` block of `verify`. -/
def payload (jwt : JwtLibrary) (secret : Bytes) (wall : Int) (token : Bytes) :
    Except JwtException JwtPayload := do
  let decoded ← jwt.decode token
  jwt.verify secret wall decoded
  let userId ← decoded.userId
  let exp ← decoded.expiresAt
  return { userId, exp }

def verify (jwt : JwtLibrary) (secret : Bytes) (wall : Int) (token : Bytes) :
    Except JwtError JwtPayload :=
  (payload jwt secret wall token).mapError JwtException.rethrown

end Jwt

/-! ## `routes.cpp` -/

/-- What `main` configures. -/
structure ServiceConfig extends RouterConfig where
  jwtSecret : Bytes
  jwt : JwtLibrary
  /-- `what()` of an exception of a JSON value. -/
  what : JsonError → Json → Bytes

inductive ResponseBody where
  /-- The dump of a value. -/
  | json (value : Json)
  | raw (text : Bytes)

structure ApiResponse where
  status : Nat
  body : ResponseBody

/-- A request, with whether Beast takes it for an upgrade. -/
structure HttpRequest where
  upgrade : Bool
  method : Bytes
  target : Bytes
  headers : UnorderedMap Bytes Bytes
  body : Option Json

namespace Routes

/-- A response built as JSON. -/
def answer (r : Response) : ApiResponse := ⟨r.status, .json r.body⟩

/-- `{"error":"..."}` around a text as it is. -/
def refuseRaw (status : Nat) (reason : Bytes) : ApiResponse :=
  ⟨status, .raw (ascii "\x7b\"error\":\"" ++ (reason ++ ascii "\"\x7d"))⟩

/-- The two fields of an account, or `what()` of the conversion that throws. -/
def accountFields (cfg : ServiceConfig) (userId password : Json) : Except Bytes (Bytes × Bytes) :=
  match userId.getString, password.getString with
  | .ok userId, .ok password => .ok (userId, password)
  | .error e, _ => .error (cfg.what e userId)
  | _, .error e => .error (cfg.what e password)

/-- What both account routes make of a body, up to their own work. -/
def withAccount (cfg : ServiceConfig) (missing : String) (s : σ) (body : Option Json)
    (act : Bytes → Bytes → σ × ApiResponse) : Except Bytes (σ × ApiResponse) :=
  match body with
  | none => .ok (s, answer (refuse 400 "invalid json"))
  | some body =>
    match body.member "userId", body.member "password" with
    | some userId, some password =>
      match accountFields cfg userId password with
      | .error what => .error what
      | .ok (userId, password) => .ok (act userId password)
    | _, _ => .ok (s, answer (refuse 400 missing))

/-- `POST /api/auth/login`. -/
def login (cfg : ServiceConfig) (wall : Int) (a : AuthService) (body : Option Json) :
    Except Bytes (AuthService × ApiResponse) :=
  withAccount cfg "missing userId or password" a body fun userId password =>
    match a.login cfg.host wall userId password with
    | .error _ => (a, answer (refuse 401 "invalid credentials"))
    | .ok result => (a, answer ⟨200, .object
        [(ascii "token", .string (cfg.jwt.create cfg.jwtSecret result.token)),
          (ascii "userId", .string result.userId)]⟩)

/-- `POST /api/auth/register`. What `what()` returns ends at its first NUL. -/
def register (cfg : ServiceConfig) (a : AuthService) (body : Option Json) :
    Except Bytes (AuthService × ApiResponse) :=
  withAccount cfg "missing fields" a body fun userId password =>
    match a.registerUser cfg.host userId password with
    | .error what => (a, refuseRaw 409 (cString what))
    | .ok a => (a, answer ⟨200, .object [(ascii "ok", .boolean true)]⟩)

end Routes

/-! ## `http_server.cpp` -/

/-- The handlers `registerRoutes` enters. -/
inductive Route where
  | login
  | turnCredentials
  | register
  deriving DecidableEq

/-- The backend with the accounts. -/
structure Service where
  auth : AuthService
  backend : Backend

namespace HttpServer

/-- `routes_`. -/
def routes (key : Bytes) : Option Route :=
  if key = ascii "POST /api/auth/login" then some .login
  else if key = ascii "GET /api/turn/credentials" then some .turnCredentials
  else if key = ascii "POST /api/auth/register" then some .register
  else none

/-- The method, a blank, and the target up to a question mark. -/
def routeKey (req : HttpRequest) : Bytes := req.method ++ 32 :: req.target.takeWhile (· ≠ 0x3F)

/-- `AuthService::verifyToken`; of the payload only the user is read. -/
def verifyToken (cfg : ServiceConfig) (wall : Int) (token : Bytes) : Except JwtError Bytes :=
  (Jwt.verify cfg.jwt cfg.jwtSecret wall token).map JwtPayload.userId

/-- The handler of a route, or `what()` of the exception that leaves it. -/
def handler (cfg : ServiceConfig) (wall : Int) (a : AuthService) (req : HttpRequest) :
    Route → Except Bytes (AuthService × ApiResponse)
  | .login => Routes.login cfg wall a req.body
  | .turnCredentials => .ok (a, Routes.answer
      (Routes.turnCredentials cfg.host cfg.turn wall (verifyToken cfg wall) req.headers))
  | .register => Routes.register cfg a req.body

/-- `Session::handle_request`, with the response to a request that is no upgrade. -/
def handleRequest (cfg : ServiceConfig) (wall : Int) (s : Service) (req : HttpRequest) :
    Service × Option ApiResponse :=
  if req.upgrade then
    let verify token := (verifyToken cfg wall token).toOption
    ({ s with backend.ws := s.backend.ws.accept verify req.target }, none)
  else match routes (routeKey req) with
  | none => (s, some (Routes.answer (Routes.refuse 404 "not found")))
  | some route =>
    match handler cfg wall s.auth req route with
    | .error what => (s, some (Routes.refuseRaw 500 what))
    | .ok (auth, response) => ({ s with auth }, some response)

end HttpServer

/-! ## `main.cpp` -/

/-- What happens to the WebSocket sessions and the timer; sessions begin with a request. -/
abbrev SessionInput := { input : BackendInput // ∀ verify target, input ≠ .accept verify target }

inductive ServiceInput where
  | request (req : HttpRequest) (wall : Int)
  | session (input : SessionInput)

/-- The service, from its start on with a database; a step shows the response to a request
and what is handed to which session. -/
def serviceMachine (cfg : ServiceConfig) (auth : AuthService) (ringTimeout : Int) :
    Machine Service ServiceInput (Option ApiResponse × List (Nat × Json)) Empty where
  init := ⟨auth, { calls := CallManager.new ringTimeout }⟩
  step s input :=
    match input with
    | .request req wall =>
      let (s, response) := HttpServer.handleRequest cfg wall s req
      .ok (s, (response, []))
    | .session input =>
      let (backend, handed) := s.backend.step cfg.toRouterConfig input.1
      .ok ({ s with backend }, (none, handed))

end Zaza
