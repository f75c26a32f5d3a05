import Zaza.PacketAccess
import Zaza.Scanners

/-!
Packets are decoded in bounds.

The loops are driven by lengths the sender chose, and each guards its reads its own way:
`parse` by the declared end of the message, which it has compared with the size before; the
scans by the end and the size at every header. Either way the four bytes of a header are there
when they are read, and the offset grows by four at least. So no checked function traps, and
each computes what its unchecked model computes.
-/
namespace Zaza.PacketBounds
open Zaza Scanners LongTermCred TurnDispatcher

variable {data raw : Bytes} {type : AttrType} {stop fuel offset len : Nat}

/-! ## Single accesses -/

theorem readByte (inside : i < data.length) : readAt data i = .ok (byteAt data i) :=
  readAt_of_lt inside 0

theorem readWord16_of_le (inside : offset + 2 ≤ data.length) :
    readWord16 data offset = .ok (word16 data offset) := by
  rw [readWord16, readByte (by omega), ok_bind, readByte (by omega), ok_bind]
  rfl

theorem readSlice (inside : offset + len ≤ data.length) :
    readRange data offset (offset + len) = .ok (slice data offset len) := by
  rw [readRange_of_le (by omega) inside, Nat.add_sub_cancel_left]
  rfl

/-- A buffer that is overwritten as a whole. -/
theorem writeWhole {values : List α} (size : values.length = n) (zero : α) :
    writeRange (List.replicate n zero) 0 values = .ok values := by
  rw [writeRange_of_le _ (by simp [size]), List.take_zero, List.drop_eq_nil_of_le (by simp [size])]
  simp

theorem setLengthChecked_of_le (long : 4 ≤ data.length) (len : UInt16) :
    setLengthChecked data len = .ok (setLength data len) := by
  rw [setLengthChecked, writeAt_of_lt (by omega), ok_bind, writeAt_of_lt (by simp; omega)]
  rfl

/-! ## Loops -/

/-- The offsets of a loop grow with every iteration, up to what two lengths of sixteen bits can
add up to. -/
structure Advances (start limit : Nat) (offsets : List Nat) : Prop where
  increasing : offsets.Pairwise (· < ·)
  between : ∀ offset ∈ offsets, start ≤ offset ∧ offset ≤ limit

namespace Advances

theorem nil (start limit : Nat) : Advances start limit [] := ⟨.nil, by simp⟩

theorem last (below : start ≤ limit) : Advances start limit [start] :=
  ⟨List.pairwise_singleton _ _, by simpa using below⟩

theorem iterate {next : Nat} {offsets : List Nat} (later : start < next) (below : start ≤ limit)
    (rest : Advances next limit offsets) : Advances start limit (start :: offsets) := by
  refine ⟨List.pairwise_cons.mpr ⟨?_, rest.increasing⟩, ?_⟩
  · intro offset member
    have between := rest.between offset member
    omega
  · intro offset member
    rcases List.mem_cons.mp member with rfl | member
    · omega
    · have between := rest.between offset member
      omega

theorem widen {limit' : Nat} {offsets : List Nat} (advances : Advances start limit offsets)
    (wider : limit ≤ limit') : Advances start limit' offsets := by
  refine ⟨advances.increasing, ?_⟩
  intro offset member
  have between := advances.between offset member
  omega

end Advances

/-- How far an iteration can move the offset. -/
theorem next_offset (data : Bytes) (offset : Nat) (more : offset + 4 ≤ stop) :
    offset < offset + 4 + (word16 data (offset + 2)).toNat +
        padding (word16 data (offset + 2)).toNat ∧
      offset + 4 + (word16 data (offset + 2)).toNat + padding (word16 data (offset + 2)).toNat ≤
        stop + 65538 := by
  have value := (word16 data (offset + 2)).toNat_lt
  have pad := StunCodec.padding_lt (word16 data (offset + 2)).toNat
  omega

theorem parseAttributesChecked_eq (fuel offset : Nat) (whole : stop ≤ data.length)
    (enough : stop < offset + fuel) (positive : 0 < fuel) (below : offset ≤ stop + 65538) :
    ∃ offsets, parseAttributesChecked data stop fuel offset =
        .ok (offsets, parseAttributes data stop fuel offset) ∧
      Advances offset (stop + 65538) offsets := by
  induction fuel generalizing offset with
  | zero => omega
  | succ fuel ih =>
    simp only [parseAttributesChecked, parseAttributes]
    by_cases more : offset + 4 ≤ stop
    · rw [if_pos more, if_pos more, readWord16_of_le (by omega), ok_bind,
        readWord16_of_le (by omega), ok_bind]
      by_cases beyond : offset + 4 + (word16 data (offset + 2)).toNat > data.length
      · rw [if_pos beyond, if_pos beyond]
        exact ⟨[offset], rfl, .last below⟩
      · obtain ⟨later, near⟩ := next_offset data offset more
        obtain ⟨offsets, rest, advances⟩ := ih _ (by omega) (by omega) near
        rw [if_neg beyond, if_neg beyond, readSlice (by omega), ok_bind, rest, ok_bind]
        exact ⟨offset :: offsets, rfl, advances.iterate later below⟩
    · rw [if_neg more, if_neg more]
      exact ⟨[offset], rfl, .last below⟩

theorem scanForChecked_eq (raw : Bytes) (type : AttrType) (stop fuel offset : Nat)
    (enough : stop < offset + fuel) (positive : 0 < fuel) (below : offset ≤ stop + 65538) :
    ∃ offsets, scanForChecked raw type stop fuel offset =
        .ok (offsets, scanFor raw type stop fuel offset) ∧
      Advances offset (stop + 65538) offsets := by
  induction fuel generalizing offset with
  | zero => omega
  | succ fuel ih =>
    simp only [scanForChecked, scanFor]
    by_cases more : offset + 4 ≤ stop ∧ offset + 4 ≤ raw.length
    · rw [if_pos more, if_pos more, readWord16_of_le (by omega), ok_bind,
        readWord16_of_le (by omega), ok_bind]
      by_cases here : word16 raw offset = type
      · rw [if_pos here, if_pos here]
        exact ⟨[offset], rfl, .last below⟩
      · obtain ⟨later, near⟩ := next_offset raw offset more.1
        obtain ⟨offsets, rest, advances⟩ := ih _ (by omega) (by omega) near
        rw [if_neg here, if_neg here, rest, ok_bind]
        exact ⟨offset :: offsets, rfl, advances.iterate later below⟩
    · rw [if_neg more, if_neg more]
      exact ⟨[offset], rfl, .last below⟩

/-! ## Functions -/

/-- The first byte decides what `onPacket` does. -/
theorem demultiplexChecked_eq (raw : Bytes) : ∃ kind, demultiplexChecked raw = .ok kind ∧
    ∀ (host : Host) (cfg : Config) (env : Env) (d : TurnDispatcher) (sender : Endpoint)
      (via : Transport), d.onPacket host cfg env raw sender via =
        d.handlePacket host cfg env raw sender via kind := by
  unfold demultiplexChecked onPacket
  by_cases empty : raw.length = 0
  · rw [if_pos empty]
    exact ⟨.ignored, rfl, fun host cfg env d sender via => if_pos empty⟩
  · rw [if_neg empty, readByte (by omega), ok_bind]
    by_cases channel : byteAt raw 0 &&& 0xC0 = 0x40
    · rw [if_pos channel]
      refine ⟨.channelData, rfl, fun host cfg env d sender via => ?_⟩
      rw [if_neg empty, if_pos channel]
      rfl
    · rw [if_neg channel, ok_bind]
      by_cases stun : byteAt raw 0 &&& 0xC0 = 0x00
      · rw [if_pos stun]
        refine ⟨.stun, rfl, fun host cfg env d sender via => ?_⟩
        rw [if_neg empty, if_neg channel, if_pos stun]
        rfl
      · rw [if_neg stun]
        refine ⟨.ignored, rfl, fun host cfg env d sender via => ?_⟩
        rw [if_neg empty, if_neg channel, if_neg stun]
        rfl

theorem parseChecked_eq (raw : Bytes) :
    ∃ offsets, parseChecked raw = .ok (offsets, parse raw) ∧
      Advances 20 (20 + 65535 + 65538) offsets := by
  unfold parseChecked parse
  by_cases short : raw.length < 20
  · rw [if_pos short, if_pos short]
    exact ⟨[], rfl, .nil _ _⟩
  · rw [if_neg short, if_neg short, readByte (by omega), ok_bind]
    by_cases top : byteAt raw 0 &&& 0xC0 ≠ 0x00
    · rw [if_pos top, if_pos top]
      exact ⟨[], rfl, .nil _ _⟩
    · rw [if_neg top, if_neg top, readWord16_of_le (by omega), ok_bind,
        readWord16_of_le (by omega), ok_bind]
      dsimp only
      by_cases cut : raw.length < 20 + (word16 raw 2).toNat
      · rw [if_pos cut, if_pos cut]
        exact ⟨[], rfl, .nil _ _⟩
      · rw [if_neg cut, if_neg cut, readByte (by omega), ok_bind, readByte (by omega), ok_bind,
          readByte (by omega), ok_bind, readByte (by omega), ok_bind]
        by_cases cookie : be32 (byteAt raw 4) (byteAt raw 5) (byteAt raw 6) (byteAt raw 7) ≠
            kMagicCookie
        · rw [if_pos cookie, if_pos cookie]
          exact ⟨[], rfl, .nil _ _⟩
        · have size : (slice raw 8 12).length = 12 := slice_length (by omega)
          have copied : writeRange (List.replicate 12 0) 0 (slice raw 8 12) =
              .ok (slice raw 8 12) := writeWhole size 0
          have id : (Vector.ofFn fun i : Fin 12 => byteAt (slice raw 8 12) i) =
              Vector.ofFn fun i : Fin 12 => byteAt raw (8 + i) :=
            congrArg Vector.ofFn (funext fun i => byteAt_slice raw 8 i.isLt)
          have length := (word16 raw 2).toNat_lt
          obtain ⟨offsets, loop, advances⟩ := parseAttributesChecked_eq
            (20 + (word16 raw 2).toNat) 20 (show 20 + (word16 raw 2).toNat ≤ raw.length by omega)
            (by omega) (by omega) (by omega)
          rw [if_neg cookie, if_neg cookie, readSlice (show 8 + 12 ≤ raw.length by omega), ok_bind,
            copied, ok_bind, loop, ok_bind]
          refine ⟨offsets, ?_, advances.widen (by omega)⟩
          rw [id]

theorem parseChannelDataChecked_eq (raw : Bytes) :
    parseChannelDataChecked raw = .ok (parseChannelData raw) := by
  unfold parseChannelDataChecked parseChannelData
  by_cases short : raw.length < 4
  · rw [if_pos short, if_pos short]
  · rw [if_neg short, if_neg short, readWord16_of_le (by omega), ok_bind,
      readWord16_of_le (by omega), ok_bind]
    dsimp only
    split
    · rfl
    · split
      · rfl
      · rw [readSlice (by omega), ok_bind]

/-- A verification that has run to its end: its verdict, its loop, and its length. -/
def Verifies (raw : Bytes) (verdict : Bool) (result : Except Trap Verification) : Prop :=
  ∃ v, result = .ok v ∧ v.verdict = verdict ∧ Advances 20 (20 + 65535 + 65538) v.offsets ∧
    ∀ adjusted, v.adjusted = some adjusted → raw.length ≤ 20 + 65535 → adjusted ≤ 65535

theorem checkIntegrityChecked_eq {hashed : Nat → UInt16 → Except Trap Bytes}
    {covered : Nat → Bytes} (mac : Bytes → Bytes)
    (buffers : ∀ miPos len, 20 ≤ miPos → miPos + 4 + size ≤ raw.length →
      hashed miPos len = .ok (setLength (covered miPos) len)) :
    Verifies raw (checkIntegrity raw type size covered mac)
      (checkIntegrityChecked raw type size hashed mac) := by
  unfold checkIntegrityChecked checkIntegrity
  by_cases short : raw.length < 20
  · rw [if_pos short, if_pos short]
    exact ⟨_, rfl, rfl, .nil _ _, by simp⟩
  · have length := (word16 raw 2).toNat_lt
    obtain ⟨offsets, loop, advances⟩ := scanForChecked_eq raw type (20 + (word16 raw 2).toNat)
      (20 + (word16 raw 2).toNat) 20 (by omega) (by omega) (by omega)
    have advances := advances.widen (show _ ≤ 20 + 65535 + 65538 by omega)
    rw [if_neg short, if_neg short, readWord16_of_le (by omega), ok_bind, loop, ok_bind]
    dsimp only
    cases found : scanFor raw type (20 + (word16 raw 2).toNat) (20 + (word16 raw 2).toNat) 20 with
    | none =>
      have absent : integrityOffset raw type = none := found
      rw [absent]
      exact ⟨_, rfl, rfl, advances, by simp⟩
    | some miPos =>
      have present : integrityOffset raw type = some miPos := found
      have start := (IntegrityCoverage.scanFor_bounds found).1
      rw [present]
      dsimp only
      by_cases cut : miPos + 4 + size > raw.length
      · rw [if_pos cut, if_pos cut]
        exact ⟨_, rfl, rfl, advances, by simp⟩
      · rw [if_neg cut, if_neg cut, buffers _ _ start (by omega), ok_bind, readSlice (by omega),
          ok_bind]
        refine ⟨_, rfl, rfl, advances, ?_⟩
        intro adjusted isLength delivered
        obtain rfl := Option.some.inj isLength
        omega

/-- What `verifyMessageIntegrity` hashes: a copy up to the end of the digest, with the digest
zeroed. -/
theorem sha256Buffer (start : 20 ≤ miPos) (room : miPos + 4 + 32 ≤ raw.length) (len : UInt16) :
    (do
      let copied ← readRange raw 0 (miPos + 4 + 32)
      let buf ← writeRange (List.replicate (miPos + 4 + 32) 0) 0 copied
      let buf ← setLengthChecked buf len
      writeRange buf (miPos + 4) (List.replicate 32 0)) =
      .ok (setLength (raw.take (miPos + 4) ++ List.replicate 32 0) len) := by
  have size : (raw.take (miPos + 4 + 32)).length = miPos + 4 + 32 := by
    rw [List.length_take]
    omega
  have size' : (setLength (raw.take (miPos + 4 + 32)) len).length = miPos + 4 + 32 := by
    simpa [setLength] using size
  have front : (setLength (raw.take (miPos + 4 + 32)) len).take (miPos + 4) =
      setLength (raw.take (miPos + 4)) len := by
    rw [setLength, setLength, List.take_set, List.take_set, List.take_take,
      Nat.min_eq_left (by omega)]
  rw [readRange_of_le (by omega) room, ok_bind, List.drop_zero, Nat.sub_zero, writeWhole size 0,
    ok_bind, setLengthChecked_of_le (by omega), ok_bind, writeRange_of_le _ (by simp [size']),
    front, List.drop_eq_nil_of_le (by simp [size']), List.append_nil,
    setLength_append _ _ _ (by simp; omega)]

/-- What `verifyMessageIntegrityMd5` hashes. -/
theorem sha1Buffer (start : 20 ≤ miPos) (room : miPos + 4 + 20 ≤ raw.length) (len : UInt16) :
    (do
      let buf ← readRange raw 0 miPos
      setLengthChecked buf len) = .ok (setLength (raw.take miPos) len) := by
  rw [readRange_of_le (by omega) (by omega), ok_bind, List.drop_zero, Nat.sub_zero,
    setLengthChecked_of_le (by simp; omega)]

/-- **Packets are decoded in bounds.** For every packet, the functions that look at its bytes
never read past its end nor write past the end of their buffers, and return what their models
compute; every loop ends, with its offset growing; and the length the verifications compute has
sixteen bits for every packet that a transport delivers as STUN. -/
theorem packets_decoded_in_bounds (raw : Bytes) :
    (∃ kind, demultiplexChecked raw = .ok kind ∧
      ∀ (host : Host) (cfg : Config) (env : Env) (d : TurnDispatcher) (sender : Endpoint)
        (via : Transport), d.onPacket host cfg env raw sender via =
          d.handlePacket host cfg env raw sender via kind) ∧
    (∃ offsets, parseChecked raw = .ok (offsets, parse raw) ∧
      Advances 20 (20 + 65535 + 65538) offsets) ∧
    parseChannelDataChecked raw = .ok (parseChannelData raw) ∧
    ∀ (host : Host) (realm username password : Bytes),
      Verifies raw (verifyMessageIntegrity host realm raw username password)
        (verifyMessageIntegrityChecked host realm raw username password) ∧
      Verifies raw (verifyMessageIntegrityMd5 host realm raw username password)
        (verifyMessageIntegrityMd5Checked host realm raw username password) := by
  refine ⟨demultiplexChecked_eq raw, parseChecked_eq raw, parseChannelDataChecked_eq raw, ?_⟩
  intro host realm username password
  constructor
  · exact checkIntegrityChecked_eq _ fun miPos len start room => sha256Buffer start room len
  · exact checkIntegrityChecked_eq _ fun miPos len start room => sha1Buffer start room len

end Zaza.PacketBounds
