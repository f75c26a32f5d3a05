import Zaza.Host
import Zaza.Json

/-!
The TURN credentials the backend issues: `backend/api/routes.cpp`.

`generateRtcConfig` and the `/api/turn/credentials` route build the same pair:
the username is the expiry time, a colon and the user id, the password the MAC
of the username under the secret the TURN server shares. The system clock counts
nanoseconds in sixty-four bits, so the sum with the lifetime does not overflow.
-/
namespace Zaza

/-- `api::TurnConfig`. -/
structure TurnConfig where
  host : Bytes
  portPlain : UInt16
  portTls : UInt16
  sharedSecret : Bytes
  ttl : Int

/-- `api::Response`, with the value of its body. -/
structure Response where
  status : Nat
  body : Json

/-- What `AuthService::verifyToken` throws. -/
inductive JwtError where
  | expired
  | invalid

namespace Routes

/-- `username`, at a time of the system clock. -/
def username (cfg : TurnConfig) (wall : Int) (userId : Bytes) : Bytes :=
  toStringInt (wall + cfg.ttl) ++ 58 :: userId

/-- `password`. -/
def password (host : Host) (cfg : TurnConfig) (username : Bytes) : Bytes :=
  host.base64Encode (host.hmacSha1 cfg.sharedSecret username).toList

/-- `"turn:" + host + ":" + port`, with either scheme. -/
def url (scheme : String) (cfg : TurnConfig) (port : UInt16) : Bytes :=
  ascii scheme ++ (cfg.host ++ 58 :: toString port.toNat)

def iceServer (host : Host) (cfg : TurnConfig) (wall : Int) (userId : Bytes) : Json :=
  .object [(ascii "urls", .array [.string (url "turn:" cfg cfg.portPlain),
      .string (url "turns:" cfg cfg.portTls)]),
    (ascii "username", .string (username cfg wall userId)),
    (ascii "credential", .string (password host cfg (username cfg wall userId)))]

/-- The value of the text it returns. -/
def generateRtcConfig (host : Host) (cfg : TurnConfig) (wall : Int) (userId : Bytes) : Json :=
  .object [(ascii "iceServers", .array [iceServer host cfg wall userId])]

/-- What follows `Bearer ` in the header, in either spelling of its name. -/
def extractBearer (headers : UnorderedMap Bytes Bytes) : Bytes :=
  match (headers.lookup (ascii "Authorization")).or (headers.lookup (ascii "authorization")) with
  | none => []
  | some value => if (ascii "Bearer ").isPrefixOf value then value.drop 7 else []

/-- A response with `{"error": reason}`. -/
def refuse (status : Nat) (reason : String) : Response :=
  ⟨status, .object [(ascii "error", .text reason)]⟩

/-- `GET /api/turn/credentials`; `verifyToken` yields the user of the token. -/
def turnCredentials (host : Host) (cfg : TurnConfig) (wall : Int)
    (verifyToken : Bytes → Except JwtError Bytes) (headers : UnorderedMap Bytes Bytes) : Response :=
  let token := extractBearer headers
  if token = [] then refuse 401 "missing token"
  else match verifyToken token with
  | .error .expired => refuse 401 "token expired"
  | .error .invalid => refuse 401 "invalid token"
  | .ok userId =>
    ⟨200, .object [(ascii "urls", .array [.string (url "turn:" cfg cfg.portPlain),
        .string (url "turns:" cfg cfg.portTls)]),
      (ascii "username", .string (username cfg wall userId)),
      (ascii "credential", .string (password host cfg (username cfg wall userId))),
      (ascii "ttl", .integer cfg.ttl)]⟩

end Routes

end Zaza
