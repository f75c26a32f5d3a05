import Mathlib.Data.List.AList
import Mathlib.Data.List.FinRange
import Mathlib.Data.List.Perm.Basic
import Mathlib.Data.List.TakeWhile
import Mathlib.Data.Fintype.Basic
import Zaza.Bytes

/-!
The parts of the C++ standard library the servers lean on, with their
documented behaviour: `std::to_string` and `std::stoll` over byte strings,
`std::uniform_int_distribution`, and `std::unordered_map`.

A hash map is an association list with distinct keys. Its iteration order is
unspecified, so whoever iterates takes the order from outside, as any
permutation of the entries (`IterOrder`).
-/
namespace Zaza

/-! ## Strings -/

/-- What a string is to C: its bytes up to the first NUL. -/
def cString (s : Bytes) : Bytes := s.takeWhile (· ≠ 0)

/-- `std::to_string` of an unsigned integer. -/
def toString (n : Nat) : Bytes := (Nat.toDigits 10 n).map Char.toUInt8

/-- `std::to_string` of a signed integer. -/
def toStringInt (n : Int) : Bytes := if n < 0 then 45 :: toString n.natAbs else toString n.natAbs

/-- A digit of `std::hex`. -/
def hexDigit (n : UInt8) : UInt8 := if n < 10 then 48 + n else 87 + n

/-- `std::hex` with two digits a byte. -/
def hex (buf : List UInt8) : Bytes :=
  buf.flatMap fun (b : UInt8) => [hexDigit (b >>> 4), hexDigit (b &&& 0x0F)]

/-- `isspace` in the default locale. -/
def isSpace (b : UInt8) : Bool := b == 32 || (9 ≤ b && b ≤ 13)

/-- `isdigit`. -/
def isDigit (b : UInt8) : Bool := 48 ≤ b && b ≤ 57

/-- `std::stoll` in base ten: leading blanks and one sign are skipped, the
digits after them are read, anything behind the digits is ignored. `none` is
the thrown `invalid_argument` (no digits) or `out_of_range`. -/
def stoll (s : Bytes) : Option Int :=
  let s := s.dropWhile isSpace
  let (negative, s) := match s with
    | 45 :: rest => (true, rest)
    | 43 :: rest => (false, rest)
    | rest => (false, rest)
  let digits := s.takeWhile isDigit
  if digits = [] then none
  else
    let magnitude : Int := digits.foldl (fun n d => 10 * n + (d.toNat - 48)) 0
    let value := if negative then -magnitude else magnitude
    if -9223372036854775808 ≤ value ∧ value ≤ 9223372036854775807 then some value else none

/-- `std::string::find(c)`, the position of the first `c`. -/
def find (s : Bytes) (c : UInt8) : Option Nat := s.findIdx? (· == c)

/-- The first of the kind is found. -/
theorem find_first {front : Bytes} (absent : c ∉ front) (rest : Bytes) :
    find (front ++ c :: rest) c = some front.length := by
  have none : front.findIdx? (· == c) = none := by
    rw [List.findIdx?_eq_none_iff]
    intro b member
    rw [beq_eq_false_iff_ne]
    rintro rfl
    exact absent member
  simp [find, List.findIdx?_append, none, List.findIdx?_cons]

/-- A digit is one byte. -/
private theorem digit_value {c : Char} (digit : c.isDigit) :
    c.toUInt8.toNat = c.toNat ∧ 48 ≤ c.toNat ∧ c.toNat ≤ 57 := by
  simp only [Char.isDigit, ge_iff_le, Bool.and_eq_true, decide_eq_true_eq,
    UInt32.le_iff_toNat_le] at digit
  obtain ⟨low, high⟩ := digit
  have low : 48 ≤ c.val.toNat := low
  have high : c.val.toNat ≤ 57 := high
  have value : c.toUInt8.toNat = c.val.toNat := by
    simp only [Char.toUInt8, UInt32.toNat_toUInt8]
    omega
  exact ⟨value, low, high⟩

private theorem digit_byte {c : Char} (digit : c.isDigit) :
    Char.ofNat c.toUInt8.toNat = c ∧ 48 ≤ c.toUInt8.toNat ∧ c.toUInt8.toNat ≤ 57 := by
  obtain ⟨value, low, high⟩ := digit_value digit
  rw [value]
  exact ⟨Char.ofNat_toNat c, low, high⟩

private theorem digit_of_toDigits {c : Char} (member : c ∈ Nat.toDigits 10 n) : c.isDigit :=
  Nat.isDigit_of_mem_toDigits (by decide) (by decide) member

/-- A number's decimal text is made of digits. -/
theorem digit_of_mem_toString (member : b ∈ toString n) : 48 ≤ b.toNat ∧ b.toNat ≤ 57 := by
  obtain ⟨c, inside, rfl⟩ := List.mem_map.mp member
  exact (digit_byte (digit_of_toDigits inside)).2

theorem colon_notMem_toString (n : Nat) : 58 ∉ toString n := by
  intro member
  have digit := (digit_of_mem_toString member).2
  exact absurd digit (by decide)

theorem colon_notMem_toStringInt (n : Int) : 58 ∉ toStringInt n := by
  unfold toStringInt
  split
  · simp [colon_notMem_toString]
  · exact colon_notMem_toString _

theorem dot_notMem_toString (n : Nat) : 46 ∉ toString n := by
  intro member
  have digit := (digit_of_mem_toString member).1
  exact absurd digit (by decide)

theorem toString_injective : Function.Injective toString := by
  intro a b same
  have decode (n : Nat) : (toString n).map (fun byte => Char.ofNat byte.toNat) =
      Nat.toDigits 10 n := by
    rw [toString, List.map_map]
    exact (List.map_congr_left fun c inside =>
      (digit_byte (digit_of_toDigits inside)).1).trans (List.map_id _)
  have digits : Nat.toDigits 10 a = Nat.toDigits 10 b := by
    rw [← decode a, ← decode b, same]
  rw [← Nat.ofDigitChars_ten_toDigits (n := a), digits, Nat.ofDigitChars_ten_toDigits]

private theorem foldl_digits (cs : List Char) (digits : ∀ c ∈ cs, c.isDigit) (n : Nat) :
    (cs.map Char.toUInt8).foldl (fun (n : Int) d => 10 * n + (d.toNat - 48)) n =
      Nat.ofDigitChars 10 cs n := by
  induction cs generalizing n with
  | nil => rfl
  | cons c cs ih =>
    obtain ⟨value, low, _⟩ := digit_value (digits c List.mem_cons_self)
    have step : (10 * (n : Int) + (c.toUInt8.toNat - 48)) =
        ((10 * n + (c.toNat - '0'.toNat) : Nat) : Int) := by
      have zero : '0'.toNat = 48 := rfl
      rw [value, zero]
      omega
    rw [List.map_cons, List.foldl_cons, step, Nat.ofDigitChars_cons]
    exact ih (fun c member => digits c (List.mem_cons_of_mem _ member)) _

theorem toString_ne_nil (n : Nat) : toString n ≠ [] := by
  simp [toString]

theorem isDigit_of_mem_toString (member : b ∈ toString n) : isDigit b = true := by
  obtain ⟨low, high⟩ := digit_of_mem_toString member
  simp only [isDigit, Bool.and_eq_true, decide_eq_true_eq, UInt8.le_iff_toNat_le]
  exact ⟨low, high⟩

private theorem takeWhile_toString (n : Nat) : (toString n).takeWhile isDigit = toString n := by
  rw [List.takeWhile_eq_self_iff]
  exact fun b member => isDigit_of_mem_toString member

private theorem digits_toString (n : Nat) :
    (toString n).foldl (fun (n : Int) d => 10 * n + (d.toNat - 48)) 0 = n := by
  have value := foldl_digits (Nat.toDigits 10 n) (fun c member => digit_of_toDigits member) 0
  rw [Nat.ofDigitChars_ten_toDigits] at value
  exact value

private theorem not_isSpace_of_isDigit (digit : isDigit b = true) : isSpace b = false := by
  simp only [isDigit, Bool.and_eq_true, decide_eq_true_eq, UInt8.le_iff_toNat_le] at digit
  simp only [isSpace, Bool.or_eq_false_iff, Bool.and_eq_false_iff, beq_eq_false_iff_ne,
    decide_eq_false_iff_not, UInt8.le_iff_toNat_le]
  obtain ⟨low, high⟩ := digit
  have low : 48 ≤ b.toNat := low
  refine ⟨?_, .inr fun small => ?_⟩
  · rintro rfl
    exact absurd low (by decide)
  · have small : b.toNat ≤ 13 := small
    omega

theorem stoll_negative (n : Nat) (fits : n ≤ 9223372036854775808) :
    stoll (45 :: toString n) = some (-(n : Int)) := by
  have start : (45 :: toString n).dropWhile isSpace = 45 :: toString n := by simp [isSpace]
  simp only [stoll, start, takeWhile_toString, toString_ne_nil, ↓reduceIte, digits_toString]
  rw [if_pos (by omega)]

theorem stoll_toString (n : Nat) (fits : n ≤ 9223372036854775807) :
    stoll (toString n) = some (n : Int) := by
  have whole := takeWhile_toString n
  have value := digits_toString n
  cases shape : toString n with
  | nil => exact absurd shape (toString_ne_nil n)
  | cons d rest =>
    have digit : isDigit d = true := isDigit_of_mem_toString (n := n) (by simp [shape])
    have start : (d :: rest).dropWhile isSpace = d :: rest := by
      simp [not_isSpace_of_isDigit digit]
    rw [shape] at whole value
    simp only [stoll, start]
    split
    · rename_i sign
      rw [(List.cons.inj sign).1] at digit
      exact absurd digit (by decide)
    · rename_i sign
      rw [(List.cons.inj sign).1] at digit
      exact absurd digit (by decide)
    · simp only [whole, value, reduceCtorEq, ↓reduceIte, Bool.false_eq_true]
      rw [if_pos (by omega)]

/-- `std::stoll` reads what `std::to_string` writes. -/
theorem stoll_toStringInt {n : Int}
    (fits : -9223372036854775808 ≤ n ∧ n ≤ 9223372036854775807) :
    stoll (toStringInt n) = some n := by
  unfold toStringInt
  split
  · rw [stoll_negative n.natAbs (by omega)]
    congr
    omega
  · rw [stoll_toString n.natAbs (by omega)]
    congr
    omega

/-- The value of a digit of `std::hex`. -/
private def hexValue (d : UInt8) : UInt8 := if d < 58 then d - 48 else d - 87

private theorem hexValue_digits (b : UInt8) :
    hexValue (hexDigit (b >>> 4)) * 16 + hexValue (hexDigit (b &&& 0x0F)) = b := by
  have all : ∀ n : Fin 256, let b := UInt8.ofNat n.val
      hexValue (hexDigit (b >>> 4)) * 16 + hexValue (hexDigit (b &&& 0x0F)) = b := by
    decide +kernel
  have here := all ⟨b.toNat, b.toNat_lt⟩
  simpa using here

theorem hex_injective : Function.Injective hex := by
  intro buf buf' same
  induction buf generalizing buf' with
  | nil =>
    cases buf' with
    | nil => rfl
    | cons b' rest' => simp [hex] at same
  | cons b rest ih =>
    cases buf' with
    | nil => simp [hex] at same
    | cons b' rest' =>
      simp only [hex, List.flatMap_cons, List.cons_append, List.nil_append, List.cons.injEq] at same
      obtain ⟨high, low, later⟩ := same
      rw [← hexValue_digits b, ← hexValue_digits b', high, low, ih later]

theorem nul_notMem_hex (buf : List UInt8) : 0 ∉ hex buf := by
  intro member
  obtain ⟨b, _, digit⟩ := List.mem_flatMap.mp member
  have all : ∀ n : Fin 256, let b := UInt8.ofNat n.val
      hexDigit (b >>> 4) ≠ 0 ∧ hexDigit (b &&& 0x0F) ≠ 0 := by decide +kernel
  have here := all ⟨b.toNat, b.toNat_lt⟩
  simp only [UInt8.ofNat_toNat] at here
  rcases List.mem_cons.mp digit with high | low
  · exact here.1 high.symm
  · exact here.2 (List.mem_singleton.mp low).symm

/-- Text split at its last separator has one reading. -/
theorem last_separator_unique {sep : α} {front front' back back' : List α}
    (clean : sep ∉ back) (clean' : sep ∉ back')
    (same : front ++ sep :: back = front' ++ sep :: back') : front = front' ∧ back = back' := by
  rcases List.append_eq_append_iff.mp same with ⟨extra, hfront, hback⟩ | ⟨extra, hfront, hback⟩
  · cases extra with
    | nil => simp_all
    | cons head tail =>
      obtain ⟨rfl, rfl⟩ := List.cons.inj hback
      simp at clean
  · cases extra with
    | nil => simp_all
    | cons head tail =>
      obtain ⟨rfl, rfl⟩ := List.cons.inj hback
      simp at clean'

/-! ## Random numbers -/

/-- `std::uniform_int_distribution(lo, hi)` applied to a generator's draw: any
value of `[lo, hi]`, and no other. -/
def uniformInt (lo hi draw : Nat) : Nat := lo + draw % (hi - lo + 1)

theorem uniformInt_mem (ordered : lo ≤ hi) (draw : Nat) :
    lo ≤ uniformInt lo hi draw ∧ uniformInt lo hi draw ≤ hi := by
  have bound := Nat.mod_lt draw (show 0 < hi - lo + 1 by omega)
  unfold uniformInt
  omega

/-! ## Hash maps -/

/-- `std::unordered_map`: distinct keys, each with one value. -/
abbrev UnorderedMap (κ ν : Type) := AList fun _ : κ => ν

/-- `map[key]`: the value under a key, stored as the default when it is new. -/
def UnorderedMap.index [DecidableEq κ] (m : UnorderedMap κ ν) (k : κ) (default : ν) :
    ν × UnorderedMap κ ν :=
  match m.lookup k with
  | some v => (v, m)
  | none => (default, m.insert k default)

/-- The order in which a hash map of each size hands out its entries. -/
structure IterOrder where
  position : (size : Nat) → Equiv.Perm (Fin size)

/-- The order in which the entries happen to be listed. -/
def IterOrder.listed : IterOrder := ⟨fun _ => Equiv.refl _⟩

/-- `for (auto& [k, v] : map)`. -/
def UnorderedMap.iterate (order : IterOrder) (m : UnorderedMap κ ν) : List (κ × ν) :=
  List.ofFn fun i => let entry := m.entries.get (order.position m.entries.length i)
    (entry.1, entry.2)

/-- Whatever the order, the loop sees exactly the entries. -/
theorem UnorderedMap.iterate_perm (order : IterOrder) (m : UnorderedMap κ ν) :
    (m.iterate order).Perm (m.entries.map fun entry => (entry.1, entry.2)) := by
  have shuffled := Equiv.Perm.ofFn_comp_perm (order.position m.entries.length)
    (fun i => ((m.entries.get i).1, (m.entries.get i).2))
  have listed : (List.ofFn fun i => ((m.entries.get i).1, (m.entries.get i).2)) =
      m.entries.map fun entry => (entry.1, entry.2) := by
    rw [← List.ofFn_get m.entries, List.map_ofFn]
    simp [Function.comp_def]
  rw [← listed]
  exact shuffled

theorem UnorderedMap.mem_iterate {κ ν : Type} [DecidableEq κ] {m : UnorderedMap κ ν}
    {k : κ} {v : ν} {order : IterOrder} :
    (k, v) ∈ m.iterate order ↔ m.lookup k = some v := by
  rw [(m.iterate_perm order).mem_iff]
  have entry : m.lookup k = some v ↔ (⟨k, v⟩ : Sigma fun _ : κ => ν) ∈ m.entries :=
    AList.mem_lookup_iff
  rw [entry, List.mem_map]
  constructor
  · rintro ⟨⟨k', v'⟩, member, same⟩
    obtain ⟨rfl, rfl⟩ := Prod.mk.inj same
    exact member
  · exact fun member => ⟨⟨k, v⟩, member, rfl⟩

/-- The loop meets a key once, with its value, or not at all. -/
theorem UnorderedMap.iterate_filter_key {κ ν : Type} [DecidableEq κ] (m : UnorderedMap κ ν)
    (order : IterOrder) (k : κ) :
    (m.iterate order).filter (fun entry => entry.1 = k) = ((m.lookup k).map (k, ·)).toList := by
  cases held : m.lookup k with
  | none =>
    refine List.filter_eq_nil_iff.mpr fun entry member => ?_
    intro same
    obtain rfl := of_decide_eq_true same
    have found := UnorderedMap.mem_iterate.mp member
    simp [held] at found
  | some v =>
    have distinct : (m.iterate order).Nodup := by
      rw [(m.iterate_perm order).nodup_iff]
      refine m.nodupKeys.nodup.map fun entry entry' same => ?_
      obtain ⟨sameKey, sameValue⟩ := Prod.mk.inj same
      exact Sigma.ext sameKey (heq_of_eq sameValue)
    refine List.perm_singleton.mp ((List.perm_ext_iff_of_nodup (distinct.filter _)
      (List.nodup_singleton _)).mpr ?_)
    rintro ⟨k', v'⟩
    rw [List.mem_filter, UnorderedMap.mem_iterate, List.mem_singleton]
    constructor
    · rintro ⟨found, same⟩
      obtain rfl := of_decide_eq_true same
      rw [held] at found
      rw [Option.some.inj found]
    · rintro same
      obtain ⟨rfl, rfl⟩ := Prod.mk.inj same
      exact ⟨held, decide_eq_true rfl⟩

/-- A search that at most one entry answers has one answer, whatever the order. -/
theorem UnorderedMap.find?_iterate {κ ν : Type} [DecidableEq κ] {m : UnorderedMap κ ν}
    {wanted : κ × ν → Bool} (one : ∀ k k' v v', m.lookup k = some v → m.lookup k' = some v' →
      wanted (k, v) = true → wanted (k', v') = true → k = k') (order order' : IterOrder) :
    (m.iterate order).find? wanted = (m.iterate order').find? wanted := by
  cases found : (m.iterate order).find? wanted with
  | none =>
    refine (List.find?_eq_none.mpr fun entry member => ?_).symm
    exact List.find?_eq_none.mp found entry
      (UnorderedMap.mem_iterate.mpr (UnorderedMap.mem_iterate.mp member))
  | some entry =>
    have held := UnorderedMap.mem_iterate.mp (List.mem_of_find?_eq_some found)
    have hit := List.find?_some found
    cases found' : (m.iterate order').find? wanted with
    | none =>
      exact absurd hit (List.find?_eq_none.mp found' entry (UnorderedMap.mem_iterate.mpr held))
    | some entry' =>
      have held' := UnorderedMap.mem_iterate.mp (List.mem_of_find?_eq_some found')
      have same : entry.1 = entry'.1 :=
        one entry.1 entry'.1 entry.2 entry'.2 held held' hit (List.find?_some found')
      rw [← same, held] at held'
      exact congrArg some (Prod.ext same (Option.some.inj held'))

/-- `it = map.erase(it)` or `++it`, over the entries from the iterator on. Erasing an
entry does not move the others. -/
def UnorderedMap.eraseLoop [DecidableEq κ] (dropped : ν → Bool) :
    List (κ × ν) → UnorderedMap κ ν → UnorderedMap κ ν
  | [], m => m
  | (k, v) :: rest, m => eraseLoop dropped rest (if dropped v then m.erase k else m)

theorem UnorderedMap.eraseLoop_lookup {κ ν : Type} [DecidableEq κ] (dropped : ν → Bool)
    (entries : List (κ × ν)) (m : UnorderedMap κ ν) (k : κ) :
    (eraseLoop dropped entries m).lookup k =
      if entries.any (fun entry => entry.1 = k && dropped entry.2) then none else m.lookup k := by
  induction entries generalizing m with
  | nil => rfl
  | cons entry rest ih =>
    obtain ⟨k', v⟩ := entry
    rw [eraseLoop, ih, List.any_cons]
    generalize rest.any (fun entry => entry.1 = k && dropped entry.2) = later
    by_cases mine : k = k'
    · subst mine
      cases dropped v <;> cases later <;> simp
    · have unmoved : (if dropped v then m.erase k' else m).lookup k = m.lookup k := by
        split
        · exact AList.lookup_erase_ne mine
        · rfl
      rw [unmoved, decide_eq_false (Ne.symm mine), Bool.false_and, Bool.false_or]

/-- The whole loop, in whatever order: what is to be dropped goes, the rest stays. -/
theorem UnorderedMap.lookup_eraseLoop {κ ν : Type} [DecidableEq κ] (dropped : ν → Bool)
    (order : IterOrder) (m : UnorderedMap κ ν) (k : κ) :
    (eraseLoop dropped (m.iterate order) m).lookup k =
      (m.lookup k).filter fun v => !dropped v := by
  rw [eraseLoop_lookup]
  cases held : m.lookup k with
  | none => simp
  | some v =>
    have met : (m.iterate order).any (fun entry => entry.1 = k && dropped entry.2) = dropped v := by
      rw [Bool.eq_iff_iff, List.any_eq_true]
      constructor
      · rintro ⟨⟨k', v'⟩, member, check⟩
        obtain ⟨rfl, drops⟩ := by simpa using check
        have found := UnorderedMap.mem_iterate.mp member
        rw [held] at found
        rw [Option.some.inj found]
        exact drops
      · exact fun drops =>
          ⟨(k, v), UnorderedMap.mem_iterate.mpr held, by simp [drops]⟩
    rw [met]
    cases drops : dropped v <;> simp [drops, Option.filter]

end Zaza
