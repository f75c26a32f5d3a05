import Zaza.Allocation

/-!
Who may ask: `turn_server/src/auth/`, that is the nonce store, the shared-secret
passwords and the long-term credential check of a request.

`NonceManager::generateRandom` throws when `RAND_bytes` fails; nobody catches
it, so it is the one way a packet can end the server (`Exn`). The two integrity
checks scan the raw bytes on their own, with looser bounds than `parse`; they
are one definition with the attribute type, the digest size and the covered
bytes as parameters.
-/
namespace Zaza

/-- An exception that leaves the dispatcher. -/
inductive Exn where
  | runtimeError (what : String)
  deriving DecidableEq

/-! ## `nonce_manager.cpp` -/

/-- `store_`: each issued nonce with the time it expires. -/
abbrev NonceStore := UnorderedMap Bytes TimePoint

/-- The `do ... while` loop of `generate`, over what `RAND_bytes` delivers. -/
def drawNonce (store : UnorderedMap Bytes τ) : List (Vector UInt8 16) → Except Exn Bytes
  | [] => .error (.runtimeError "RAND_bytes failed")
  | buf :: rest =>
    if (store.lookup (hex buf.toList)).isSome then drawNonce store rest
    else .ok (hex buf.toList)

namespace NonceManager

/-- `ttl_`, as the dispatcher constructs it. -/
def ttl : UInt32 := 3600

def generate (env : Env) (store : NonceStore) : Except Exn (Bytes × NonceStore) :=
  match drawNonce store env.randBytes with
  | .error e => .error e
  | .ok nonce => .ok (nonce, store.insert nonce (env.now + seconds ttl))

def isValid (env : Env) (store : NonceStore) (nonce : Bytes) : Bool :=
  match store.lookup nonce with
  | none => false
  | some expiry => env.now < expiry

end NonceManager

/-! ## `hmac_validator.cpp` -/

structure HmacCredentials where
  username : Bytes
  password : Bytes
  deriving DecidableEq

namespace HmacValidator

/-- The expiry it stores, or `none` where it returns false. -/
def parseExpiry (username : Bytes) : Option Int :=
  match find username 58 with
  | none => none
  | some pos => stoll (username.take pos)

def computeHmac (host : Host) (sharedSecret username : Bytes) : Bytes :=
  host.base64Encode (host.hmacSha1 sharedSecret username).toList

def getPassword (host : Host) (sharedSecret username : Bytes) : Bytes :=
  match find username 58 with
  | none => []
  | some _ => computeHmac host sharedSecret username

/-- At a time of the system clock. `constant_time_compare` is equality. -/
def validate (host : Host) (sharedSecret : Bytes) (wall : Int) (username password : Bytes) :
    Bool :=
  match parseExpiry username with
  | none => false
  | some expiry =>
    if wall > expiry then false
    else computeHmac host sharedSecret username = password

def generate (host : Host) (sharedSecret : Bytes) (wall : Int) (userId : Bytes)
    (ttlSeconds : Int) : HmacCredentials :=
  let username := toStringInt (wall + ttlSeconds) ++ 58 :: userId
  ⟨username, computeHmac host sharedSecret username⟩

end HmacValidator

/-! ## `long_term_cred.cpp` -/

inductive AuthResult where
  | ok
  | missingCredentials
  | staleNonce
  | badIntegrity
  | wrongCredentials
  | credentialsExpired
  deriving DecidableEq

/-- `username:realm:password`. -/
def longTermText (username realm password : Bytes) : Bytes :=
  username ++ 58 :: (realm ++ 58 :: password)

/-- `long_term_key`. -/
def longTermKey (host : Host) (username realm password : Bytes) : Bytes :=
  (host.sha256 (longTermText username realm password)).toList

/-- `long_term_key_md5`. -/
def longTermKeyMd5 (host : Host) (username realm password : Bytes) : Bytes :=
  (host.md5 (longTermText username realm password)).toList

/-- `buf[2]` and `buf[3]` overwritten with a length. -/
def setLength (buf : Bytes) (len : UInt16) : Bytes :=
  (buf.set 2 (len >>> 8 &&& 0xFF).toUInt8).set 3 (len &&& 0xFF).toUInt8

namespace LongTermCred

/-- The scanning loop of both integrity checks: the first header of a type.
It steps over values without asking whether they are there. -/
def scanFor (raw : Bytes) (type : AttrType) (stop : Nat) : Nat → Nat → Option Nat
  | 0, _ => none
  | fuel + 1, offset =>
    if offset + 4 ≤ stop ∧ offset + 4 ≤ raw.length then
      if word16 raw offset = type then some offset
      else
        let len := (word16 raw (offset + 2)).toNat
        scanFor raw type stop fuel (offset + 4 + len + padding len)
    else none

/-- Where the integrity attribute of a type starts. -/
def integrityOffset (raw : Bytes) (type : AttrType) : Option Nat :=
  let stop := 20 + (word16 raw 2).toNat
  scanFor raw type stop stop 20

/-- A digest of `size` bytes, found in an attribute of `type`, compared with
the `mac` of the `covered` bytes, their length field adjusted. -/
def checkIntegrity (raw : Bytes) (type : AttrType) (size : Nat) (covered : Nat → Bytes)
    (mac : Bytes → Bytes) : Bool :=
  if raw.length < 20 then false
  else match integrityOffset raw type with
  | none => false
  | some miPos =>
    if miPos + 4 + size > raw.length then false
    else mac (setLength (covered miPos) (miPos - 20 + 4 + size).toUInt16) =
      slice raw (miPos + 4) size

/-- HMAC-SHA256 over everything up to the value, which counts as zeros. -/
def verifyMessageIntegrity (host : Host) (realm raw username password : Bytes) : Bool :=
  checkIntegrity raw AttrType.messageIntegritySha256 32
    (fun miPos => raw.take (miPos + 4) ++ List.replicate 32 0)
    (fun buf => (host.hmacSha256 (longTermKey host username realm password) buf).toList)

/-- HMAC-SHA1 over everything before the attribute. -/
def verifyMessageIntegrityMd5 (host : Host) (realm raw username password : Bytes) : Bool :=
  checkIntegrity raw AttrType.messageIntegrity 20 (fun miPos => raw.take miPos)
    (fun buf => (host.hmacSha1 (longTermKeyMd5 host username realm password) buf).toList)

/-- The SHA-256 attribute is checked if there is one, else the SHA-1 one. -/
def integrityHolds (host : Host) (realm : Bytes) (msg : TurnMessage)
    (raw username password : Bytes) : Bool :=
  if (msg.findAttr AttrType.messageIntegritySha256).isSome then
    verifyMessageIntegrity host realm raw username password
  else if (msg.findAttr AttrType.messageIntegrity).isSome then
    verifyMessageIntegrityMd5 host realm raw username password
  else true

/-- The verdict once all four attributes are there. -/
def authenticateWith (host : Host) (realm sharedSecret : Bytes) (env : Env) (store : NonceStore)
    (msg : TurnMessage) (raw allocatedUsername username nonce : Bytes) : AuthResult :=
  if !NonceManager.isValid env store nonce then .staleNonce
  else match find username 58 with
  | none => .badIntegrity
  | some pos =>
    match stoll (username.take pos) with
    | none => .badIntegrity
    | some expiry =>
      if env.wall > expiry then .credentialsExpired
      else
        let password := HmacValidator.getPassword host sharedSecret username
        if password = [] then .badIntegrity
        else if !integrityHolds host realm msg raw username password then .badIntegrity
        else if msg.method ≠ .allocate ∧ allocatedUsername ≠ [] ∧ username ≠ allocatedUsername then
          .wrongCredentials
        else .ok

def authenticate (host : Host) (realm sharedSecret : Bytes) (env : Env) (store : NonceStore)
    (msg : TurnMessage) (raw allocatedUsername : Bytes) : AuthResult :=
  if msg.msgClass = .indication then .ok
  else
    let hasMi := (msg.findAttr AttrType.messageIntegritySha256).isSome ||
      (msg.findAttr AttrType.messageIntegrity).isSome
    match msg.findAttr AttrType.username, msg.findAttr AttrType.realm,
      msg.findAttr AttrType.nonce with
    | some username, some _, some nonce =>
      if hasMi then
        authenticateWith host realm sharedSecret env store msg raw allocatedUsername
          username.value nonce.value
      else .missingCredentials
    | _, _, _ => .missingCredentials

end LongTermCred

end Zaza
