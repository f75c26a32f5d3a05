import Zaza.Host

/-!
The accounts of the backend: `backend/auth/`.

`UserStore` keeps its rows in a SQLite table with the user id as primary key. Every
string on its way into a query is bound by `c_str()` with length -1, and every string
out of a row is read as a C string, so both end at their first NUL. A query that
fails for other reasons is left out. A token is known by its claims, which jwt-cpp
encodes and signs.
-/
namespace Zaza

/-! ## `user_store.cpp` -/

structure User where
  userId : Bytes
  passwordHash : Bytes

/-- The rows of `users`, by their `userId`. -/
structure UserStore where
  users : UnorderedMap Bytes Bytes := ∅

namespace UserStore

def hashPassword (host : Host) (password : Bytes) : Bytes := hex (host.sha256 password).toList

def findUser (s : UserStore) (userId : Bytes) : Option User :=
  let bound := cString userId
  (s.users.lookup bound).map fun passwordHash => ⟨cString bound, cString passwordHash⟩

/-- The store with the new row, or the text of the `UserStoreError`. -/
def addUser (host : Host) (s : UserStore) (userId password : Bytes) : Except Bytes UserStore :=
  if (s.findUser userId).isSome then .error (ascii "user already exists: " ++ userId)
  else .ok { s with
    users := s.users.insert (cString userId) (cString (hashPassword host password)) }

def checkPassword (host : Host) (s : UserStore) (userId password : Bytes) : Bool :=
  match s.findUser userId with
  | none => false
  | some user => user.passwordHash = hashPassword host password

end UserStore

/-! ## `auth_service.cpp` -/

/-- The claims of a token. -/
structure Token where
  userId : Bytes
  issuedAt : Int
  expiresAt : Int

structure LoginResult where
  token : Token
  userId : Bytes

structure AuthService where
  store : UserStore := {}
  /-- `ttl_`, in seconds. -/
  ttl : Int := 86400

namespace AuthService

/-- `jwt_.sign`, at a time of the system clock. -/
def sign (wall : Int) (userId : Bytes) (ttl : Int) : Token := ⟨userId, wall, wall + ttl⟩

/-- The result, or the text of the `LoginError`. -/
def login (host : Host) (wall : Int) (a : AuthService) (userId password : Bytes) :
    Except Bytes LoginResult :=
  if !a.store.checkPassword host userId password then
    .error (ascii "invalid userId or password")
  else .ok ⟨sign wall userId a.ttl, userId⟩

def registerUser (host : Host) (a : AuthService) (userId password : Bytes) :
    Except Bytes AuthService :=
  match a.store.addUser host userId password with
  | .error e => .error e
  | .ok store => .ok { a with store }

end AuthService

end Zaza
