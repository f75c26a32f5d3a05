import Mathlib.Data.List.GetD

/-!
Byte strings and the big-endian words inside them.

The server reads multi-byte fields as shifted and or-ed bytes and writes them
as masked shifts. `be16`, `be32` and their inverses are those expressions, once
for the whole development; the laws below say that reading undoes writing, and
how a byte is found in a concatenation.
-/
namespace Zaza

/-- A byte buffer, and also a `std::string`, which may hold any bytes. -/
abbrev Bytes := List UInt8

/-- A text of the source as the bytes of a `std::string`. -/
def ascii (s : String) : Bytes := s.toList.map Char.toUInt8

/-- `data[i]`. Callers stay below the length; past it the value is immaterial. -/
def byteAt (data : Bytes) (i : Nat) : UInt8 := data.getD i 0

/-- The bytes of `[data + offset, data + offset + len)`. -/
def slice (data : Bytes) (offset len : Nat) : Bytes := (data.drop offset).take len

/-- `(hi << 8) | lo`. -/
def be16 (hi lo : UInt8) : UInt16 := hi.toUInt16 <<< 8 ||| lo.toUInt16

/-- `(w >> 8) & 0xFF` and `w & 0xFF`. -/
def bytes16 (w : UInt16) : Bytes := [(w >>> 8 &&& 0xFF).toUInt8, (w &&& 0xFF).toUInt8]

/-- `(b0 << 24) | (b1 << 16) | (b2 << 8) | b3`. -/
def be32 (b0 b1 b2 b3 : UInt8) : UInt32 :=
  b0.toUInt32 <<< 24 ||| b1.toUInt32 <<< 16 ||| b2.toUInt32 <<< 8 ||| b3.toUInt32

/-- The four bytes of a word, most significant first. -/
def bytes32 (w : UInt32) : Bytes :=
  [(w >>> 24 &&& 0xFF).toUInt8, (w >>> 16 &&& 0xFF).toUInt8,
    (w >>> 8 &&& 0xFF).toUInt8, (w &&& 0xFF).toUInt8]

/-- The bytes that round `n` up to a multiple of four. -/
def padding (n : Nat) : Nat := if n % 4 ≠ 0 then 4 - n % 4 else 0

/-! ## Words -/

private theorem and_255 (n : Nat) : n &&& 255 = n % 256 := Nat.and_two_pow_sub_one_eq_mod n 8

theorem toNat_be16 (hi lo : UInt8) : (be16 hi lo).toNat = hi.toNat * 256 + lo.toNat := by
  have hiBound := hi.toNat_lt
  have loBound := lo.toNat_lt
  have shifted : (hi.toUInt16 <<< 8).toNat = hi.toNat <<< 8 := by
    simp [UInt16.toNat_shiftLeft, Nat.shiftLeft_eq]
    omega
  rw [be16, UInt16.toNat_or, shifted, UInt8.toNat_toUInt16,
    ← Nat.shiftLeft_add_eq_or_of_lt (by omega), Nat.shiftLeft_eq]

theorem be16_bytes16 (w : UInt16) :
    be16 (w >>> 8 &&& 0xFF).toUInt8 (w &&& 0xFF).toUInt8 = w := by
  apply UInt16.toNat_inj.mp
  have bound := w.toNat_lt
  rw [toNat_be16]
  simp [UInt16.toNat_shiftRight, Nat.shiftRight_eq_div_pow, and_255]
  omega

/-- Writing undoes reading. -/
theorem bytes16_be16 (hi lo : UInt8) : bytes16 (be16 hi lo) = [hi, lo] := by
  have value := toNat_be16 hi lo
  have hiBound := hi.toNat_lt
  have loBound := lo.toNat_lt
  have high : (be16 hi lo >>> 8 &&& 0xFF).toUInt8 = hi := by
    apply UInt8.toNat_inj.mp
    simp [UInt16.toNat_shiftRight, Nat.shiftRight_eq_div_pow, and_255, value]
    omega
  have low : (be16 hi lo &&& 0xFF).toUInt8 = lo := by
    apply UInt8.toNat_inj.mp
    simp [and_255, value]
  rw [bytes16, high, low]

theorem toNat_be32 (b0 b1 b2 b3 : UInt8) : (be32 b0 b1 b2 b3).toNat =
    b0.toNat * 16777216 + b1.toNat * 65536 + b2.toNat * 256 + b3.toNat := by
  have bound0 := b0.toNat_lt
  have bound1 := b1.toNat_lt
  have bound2 := b2.toNat_lt
  have bound3 := b3.toNat_lt
  have shift24 : (b0.toUInt32 <<< 24).toNat = b0.toNat <<< 24 := by
    simp [UInt32.toNat_shiftLeft, Nat.shiftLeft_eq]; omega
  have shift16 : (b1.toUInt32 <<< 16).toNat = b1.toNat <<< 16 := by
    simp [UInt32.toNat_shiftLeft, Nat.shiftLeft_eq]; omega
  have shift8 : (b2.toUInt32 <<< 8).toNat = b2.toNat <<< 8 := by
    simp [UInt32.toNat_shiftLeft, Nat.shiftLeft_eq]; omega
  -- Each or adds a part below the lowest set bit of what stands to its left.
  have low : b2.toNat <<< 8 ||| b3.toNat = b2.toNat * 256 + b3.toNat := by
    rw [← Nat.shiftLeft_add_eq_or_of_lt (by omega), Nat.shiftLeft_eq]
  have mid : b1.toNat <<< 16 ||| (b2.toNat * 256 + b3.toNat) =
      b1.toNat * 65536 + (b2.toNat * 256 + b3.toNat) := by
    rw [← Nat.shiftLeft_add_eq_or_of_lt (by omega), Nat.shiftLeft_eq]
  have high : b0.toNat <<< 24 ||| (b1.toNat * 65536 + (b2.toNat * 256 + b3.toNat)) =
      b0.toNat * 16777216 + (b1.toNat * 65536 + (b2.toNat * 256 + b3.toNat)) := by
    rw [← Nat.shiftLeft_add_eq_or_of_lt (by omega), Nat.shiftLeft_eq]
  simp only [be32, UInt32.toNat_or, shift24, shift16, shift8, UInt8.toNat_toUInt32, Nat.or_assoc]
  rw [low, mid, high]
  omega

theorem be32_bytes32 (w : UInt32) :
    be32 (w >>> 24 &&& 0xFF).toUInt8 (w >>> 16 &&& 0xFF).toUInt8
      (w >>> 8 &&& 0xFF).toUInt8 (w &&& 0xFF).toUInt8 = w := by
  apply UInt32.toNat_inj.mp
  have bound := w.toNat_lt
  rw [toNat_be32]
  simp [UInt32.toNat_shiftRight, Nat.shiftRight_eq_div_pow, and_255]
  omega

theorem bytes32_be32 (b0 b1 b2 b3 : UInt8) : bytes32 (be32 b0 b1 b2 b3) = [b0, b1, b2, b3] := by
  have value := toNat_be32 b0 b1 b2 b3
  have bound0 := b0.toNat_lt
  have bound1 := b1.toNat_lt
  have bound2 := b2.toNat_lt
  have bound3 := b3.toNat_lt
  have first : (be32 b0 b1 b2 b3 >>> 24 &&& 0xFF).toUInt8 = b0 := by
    apply UInt8.toNat_inj.mp
    simp [UInt32.toNat_shiftRight, Nat.shiftRight_eq_div_pow, and_255, value]
    omega
  have second : (be32 b0 b1 b2 b3 >>> 16 &&& 0xFF).toUInt8 = b1 := by
    apply UInt8.toNat_inj.mp
    simp [UInt32.toNat_shiftRight, Nat.shiftRight_eq_div_pow, and_255, value]
    omega
  have third : (be32 b0 b1 b2 b3 >>> 8 &&& 0xFF).toUInt8 = b2 := by
    apply UInt8.toNat_inj.mp
    simp [UInt32.toNat_shiftRight, Nat.shiftRight_eq_div_pow, and_255, value]
    omega
  have fourth : (be32 b0 b1 b2 b3 &&& 0xFF).toUInt8 = b3 := by
    apply UInt8.toNat_inj.mp
    simp [and_255, value]
    omega
  rw [bytes32, first, second, third, fourth]

@[simp] theorem bytes16_length (w : UInt16) : (bytes16 w).length = 2 := rfl

@[simp] theorem bytes32_length (w : UInt32) : (bytes32 w).length = 4 := rfl

/-! ## Positions -/

theorem byteAt_append (front rest : Bytes) (i : Nat) :
    byteAt (front ++ rest) (front.length + i) = byteAt rest i := by
  rw [byteAt, List.getD_append_right _ _ _ _ (Nat.le_add_right _ _), Nat.add_sub_cancel_left,
    byteAt]

theorem byteAt_left (front rest : Bytes) (inside : i < front.length) :
    byteAt (front ++ rest) i = byteAt front i := by
  simp [byteAt, List.getD_eq_getElem?_getD, List.getElem?_append_left inside]

theorem slice_append (front middle rest : Bytes) :
    slice (front ++ (middle ++ rest)) front.length middle.length = middle := by
  simp [slice]

/-- Positions below a shared beginning read the same. -/
theorem byteAt_of_take (same : first.take n = second.take n) (below : i < n) :
    byteAt first i = byteAt second i := by
  have left := List.getElem?_take_of_lt (l := first) below
  have right := List.getElem?_take_of_lt (l := second) below
  simp only [byteAt, List.getD_eq_getElem?_getD, ← left, ← right, same]

/-- A slice inside a shared beginning is the same. -/
theorem slice_of_take (same : first.take n = second.take n) (inside : offset + len ≤ n) :
    slice first offset len = slice second offset len := by
  have left : slice first offset len = slice (first.take n) offset len := by
    simp [slice, List.drop_take, List.take_take, show min len (n - offset) = len by omega]
  have right : slice second offset len = slice (second.take n) offset len := by
    simp [slice, List.drop_take, List.take_take, show min len (n - offset) = len by omega]
  rw [left, right, same]

theorem slice_split (data : Bytes) (offset a b : Nat) :
    slice data offset (a + b) = slice data offset a ++ slice data (offset + a) b := by
  rw [slice, List.take_add, List.drop_drop]
  rfl

theorem slice_length (inside : offset + len ≤ data.length) :
    (slice data offset len).length = len := by
  rw [slice, List.length_take, List.length_drop]
  omega

theorem byteAt_slice (data : Bytes) (offset : Nat) (below : i < len) :
    byteAt (slice data offset len) i = byteAt data (offset + i) := by
  simp only [byteAt, slice, List.getD_eq_getElem?_getD]
  rw [List.getElem?_take_of_lt below, List.getElem?_drop]

end Zaza
