import Zaza.Credentials
import Zaza.Routes

/-!
The TURN credentials from one end to the other.

Three places write a username, two read the expiry out of it. The text before the
first colon is the decimal expiry, which has no colon in it, so a user id may be
anything; and `std::stoll` reads back what `std::to_string` has written, as long as
the expiry fits sixty-four bits.
-/
namespace Zaza.TurnCredentials
open Zaza HmacValidator LongTermCred

/-- A message that is authenticated, with the attributes that takes, a nonce that is
valid, and the given username. -/
structure Presents (env : Env) (store : NonceStore) (msg : TurnMessage) (username : Bytes) :
    Prop where
  notIndication : msg.msgClass ≠ .indication
  named : ∃ attr, msg.findAttr AttrType.username = some attr ∧ attr.value = username
  realm : (msg.findAttr AttrType.realm).isSome
  nonce : ∃ attr, msg.findAttr AttrType.nonce = some attr ∧
    NonceManager.isValid env store attr.value = true
  signed : (msg.findAttr AttrType.messageIntegritySha256).isSome ∨
    (msg.findAttr AttrType.messageIntegrity).isSome

/-- The credentials issued to a user at a time are the same wherever they are issued, and
good exactly until they expire. -/
structure WorkUntilExpiry (host : Host) (cfg : TurnConfig) (issued : Int) (userId : Bytes)
    (credentials : HmacCredentials) : Prop where
  /-- `generateRtcConfig` issues them. -/
  rtcConfig : ∃ server, (Routes.generateRtcConfig host cfg issued userId).member "iceServers" =
      some (.array [server]) ∧
    server.stringMember "username" = some credentials.username ∧
    server.stringMember "credential" = some credentials.password
  /-- The route issues them to whoever has a token of the user. -/
  route : ∀ verifyToken headers, Routes.extractBearer headers ≠ [] →
    verifyToken (Routes.extractBearer headers) = .ok userId →
    (Routes.turnCredentials host cfg issued verifyToken headers).status = 200 ∧
    (Routes.turnCredentials host cfg issued verifyToken headers).body.stringMember "username" =
      some credentials.username ∧
    (Routes.turnCredentials host cfg issued verifyToken headers).body.stringMember "credential" =
      some credentials.password
  parsed : parseExpiry credentials.username = some (issued + cfg.ttl)
  /-- What `authenticate` reads on its own. -/
  readInline : ∃ pos, find credentials.username 58 = some pos ∧
    stoll (credentials.username.take pos) = some (issued + cfg.ttl)
  password : getPassword host cfg.sharedSecret credentials.username = credentials.password
  validates : ∀ wall, validate host cfg.sharedSecret wall credentials.username
    credentials.password = true ↔ wall ≤ issued + cfg.ttl
  expires : ∀ realm env store msg raw allocatedUsername,
    Presents env store msg credentials.username →
    (authenticate host realm cfg.sharedSecret env store msg raw allocatedUsername =
      .credentialsExpired ↔ env.wall > issued + cfg.ttl)

/-- The first colon of a username ends its expiry. -/
theorem find_username (n : Int) (userId : Bytes) :
    find (toStringInt n ++ 58 :: userId) 58 = some (toStringInt n).length :=
  find_first (colon_notMem_toStringInt n) userId

/-- What `authenticate` says of a message that it looks at more closely. -/
theorem authenticate_presented (host : Host) {env : Env} {store : NonceStore}
    {msg : TurnMessage} {username : Bytes} (presents : Presents env store msg username)
    (realm secret raw allocatedUsername : Bytes) :
    ∃ nonce, NonceManager.isValid env store nonce = true ∧
      authenticate host realm secret env store msg raw allocatedUsername =
        authenticateWith host realm secret env store msg raw allocatedUsername username nonce := by
  obtain ⟨notIndication, ⟨user, named, rfl⟩, hasRealm, ⟨nonce, offered, valid⟩, signed⟩ := presents
  obtain ⟨realmAttr, hasRealm⟩ := Option.isSome_iff_exists.mp hasRealm
  refine ⟨nonce.value, valid, ?_⟩
  have hasMi : ((msg.findAttr AttrType.messageIntegritySha256).isSome ||
      (msg.findAttr AttrType.messageIntegrity).isSome) = true := by simpa using signed
  simp [authenticate, notIndication, named, hasRealm, offered, hasMi]

/-- The verdict on a username that can be read is about its expiry first. -/
theorem expired_iff {host : Host} {env : Env} {store : NonceStore} {msg : TurnMessage}
    {username : Bytes} {pos : Nat} {expiry : Int} (presents : Presents env store msg username)
    (colon : find username 58 = some pos) (read : stoll (username.take pos) = some expiry)
    (realm secret raw allocatedUsername : Bytes) :
    authenticate host realm secret env store msg raw allocatedUsername = .credentialsExpired ↔
      env.wall > expiry := by
  obtain ⟨nonce, valid, verdict⟩ :=
    authenticate_presented host presents realm secret raw allocatedUsername
  rw [verdict]
  simp only [authenticateWith, valid, colon, read, Bool.not_true, Bool.false_eq_true, ↓reduceIte]
  by_cases late : env.wall > expiry
  · simp [late]
  · simp only [late, ↓reduceIte, iff_false]
    split
    · simp
    split
    · simp
    split <;> simp

/-- **Issued credentials work until they expire.** -/
theorem credentials_work (host : Host) (cfg : TurnConfig) (issued : Int) (userId : Bytes)
    (fits : -9223372036854775808 ≤ issued + cfg.ttl ∧ issued + cfg.ttl ≤ 9223372036854775807) :
    WorkUntilExpiry host cfg issued userId
      (HmacValidator.generate host cfg.sharedSecret issued userId cfg.ttl) := by
  have colon := find_username (issued + cfg.ttl) userId
  have read : stoll ((toStringInt (issued + cfg.ttl) ++ 58 :: userId).take
      (toStringInt (issued + cfg.ttl)).length) = some (issued + cfg.ttl) := by
    rw [List.take_left, stoll_toStringInt fits]
  have parsed : parseExpiry (toStringInt (issued + cfg.ttl) ++ 58 :: userId) =
      some (issued + cfg.ttl) := by
    rw [parseExpiry, colon]
    exact read
  refine ⟨⟨_, rfl, rfl, rfl⟩, fun verifyToken headers bearer verified => ?_, parsed,
    ⟨_, colon, read⟩, ?_, fun wall => ?_, ?_⟩
  · simp only [Routes.turnCredentials, bearer, verified, ↓reduceIte]
    exact ⟨trivial, rfl, rfl⟩
  · simp only [getPassword, HmacValidator.generate, colon]
  · simp only [validate, HmacValidator.generate, parsed]
    by_cases late : wall > issued + cfg.ttl
    · simp [late]
    · simp [late]
      omega
  · intro realm env store msg raw allocatedUsername presents
    exact expired_iff presents colon read realm cfg.sharedSecret raw allocatedUsername

/-- HMAC-SHA1 of the username below under the secret. -/
def digest : Vector UInt8 20 :=
  #v[0x22, 0xCA, 0xD7, 0x91, 0xFB, 0x55, 0x2B, 0x4A, 0xEF, 0x70,
    0x33, 0x77, 0x3B, 0x56, 0x43, 0x2B, 0x1E, 0xD1, 0x0B, 0x13]

/-- A host that knows the digest and its base64 text. -/
def digestHost : Host :=
  Host.posix [((ascii "secret", ascii "1715510400:a:b"), digest)] []
    [(digest.toList, ascii "IsrXkftVK0rvcDN3O1ZDKx7RCxM=")]

/-- A user id with a colon in it. -/
theorem credentials_work_colon :
    WorkUntilExpiry digestHost ⟨ascii "turn", 3478, 5349, ascii "secret", 3600⟩ 1715506800
      (ascii "a:b") ⟨ascii "1715510400:a:b", ascii "IsrXkftVK0rvcDN3O1ZDKx7RCxM="⟩ := by
  have issued : HmacValidator.generate digestHost (ascii "secret") 1715506800 (ascii "a:b") 3600 =
      ⟨ascii "1715510400:a:b", ascii "IsrXkftVK0rvcDN3O1ZDKx7RCxM="⟩ := by decide +kernel
  rw [← issued]
  exact credentials_work digestHost ⟨ascii "turn", 3478, 5349, ascii "secret", 3600⟩ 1715506800
    (ascii "a:b") (by decide)

end Zaza.TurnCredentials
