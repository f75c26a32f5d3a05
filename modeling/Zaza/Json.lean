import Zaza.Cxx

/-!
`nlohmann::json` values, as far as the backend and the client read and build
them.

A message on a WebSocket is a JSON text. What `parse` makes of it is all that
any code looks at, so a text is modelled as `Option Json`: its value, or `none`
where `parse` throws. `dump` writes a text that parses to the same value; the
strings in it are valid UTF-8, being parsed ones, user ids out of tokens or
texts of the source, so it does not throw.
-/
namespace Zaza

inductive Json where
  | null
  | boolean (b : Bool)
  | integer (n : Int)
  /-- A `number_float`, by the bits of the double. -/
  | float (bits : UInt64)
  | string (s : Bytes)
  | array (elements : List Json)
  | object (members : List (Bytes × Json))

/-- `json::type_error`, by its number. -/
inductive JsonError where
  /-- A conversion to a type the value does not hold. -/
  | typeError302
  /-- A member of something other than an object. -/
  | typeError305
  /-- `value()` on something other than an object. -/
  | typeError306
  deriving DecidableEq

namespace Json

/-- The member under a key, which only objects have. -/
def member (j : Json) (key : String) : Option Json :=
  match j with
  | object members => members.lookup (ascii key)
  | _ => none

def contains (j : Json) (key : String) : Bool := (j.member key).isSome

/-- `j.contains(key) && j[key].is_string()`, with the string. -/
def stringMember (j : Json) (key : String) : Option Bytes :=
  match j.member key with
  | some (string s) => some s
  | _ => none

/-- The conversion to `std::string`. -/
def getString : Json → Except JsonError Bytes
  | string s => .ok s
  | _ => .error .typeError302

/-- A double cut off to an integer. -/
def truncate (bits : UInt64) : Int :=
  let exponent := ((bits >>> 52) &&& 0x7FF).toNat
  let mantissa := ((bits &&& 0xFFFFFFFFFFFFF) ||| 0x10000000000000).toNat
  let magnitude : Nat :=
    if exponent < 1023 then 0
    else if exponent ≤ 1075 then mantissa >>> (1075 - exponent)
    else mantissa <<< (exponent - 1075)
  if bits >>> 63 = 1 then -magnitude else magnitude

/-- The conversion to `int`, which numbers and booleans have. -/
def getInt : Json → Except JsonError Int32
  | integer n => .ok (Int32.ofInt n)
  | float bits => .ok (Int32.ofInt (truncate bits))
  | boolean b => .ok (if b then 1 else 0)
  | _ => .error .typeError302

/-- `j.value(key, default)`, with the conversion to the type of the default. -/
def value (j : Json) (key : String) (get : Json → Except JsonError α) (default : α) :
    Except JsonError α :=
  match j with
  | object members =>
    match members.lookup (ascii key) with
    | some v => get v
    | none => .ok default
  | _ => .error .typeError306

/-- `j[key] = v` on an object. -/
def set (j : Json) (key : String) (v : Json) : Json :=
  match j with
  | object members => object (members.filter (·.1 ≠ ascii key) ++ [(ascii key, v)])
  | other => other

/-- The string of a text of the source. -/
def text (s : String) : Json := string (ascii s)

/-! ## Members -/

theorem stringMember_eq_some {j : Json} :
    j.stringMember key = some s ↔ j.member key = some (string s) := by
  unfold stringMember
  cases j.member key with
  | none => simp
  | some v => cases v <;> simp

/-- A member is one string only. -/
theorem stringMember_ne {j : Json} (found : j.stringMember key = some s) (differ : s ≠ t) :
    j.stringMember key ≠ some t := by
  rw [found]
  exact fun same => differ (Option.some.inj same)

/-- A member that converts is what `value` returns. -/
theorem value_of_member {j v : Json} (found : j.member key = some v)
    (get : Json → Except JsonError α) (default : α) : j.value key get default = get v := by
  cases j with
  | object members =>
    have found : members.lookup (ascii key) = some v := found
    simp [value, found]
  | _ => simp [member] at found

/-- A string is its own conversion. -/
theorem value_of_stringMember {j : Json} (found : j.stringMember key = some s) (default : Bytes) :
    j.value key getString default = .ok s :=
  value_of_member (stringMember_eq_some.mp found) _ _

end Json

end Zaza
