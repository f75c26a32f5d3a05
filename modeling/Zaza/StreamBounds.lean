import Zaza.StreamFrames

/-!
What the stream reader hands out, whatever bytes arrive.

The buffer of a ChannelData frame has the padded length, counted in sixteen bits;
the size handed out comes from the length field itself. Up to 65532 the two fit,
and the reader takes the frame and its padding. Above, the padded length is zero:
the reader allocates four bytes, reads none, and hands out up to 65539. A stream is
read within its buffers exactly if no ChannelData header on it declares so much
(`reads_inside_iff`).
-/
namespace Zaza.StreamBounds
open Zaza StreamFrames

/-- The bytes of the frame under way that earlier reads have brought. -/
def held : Reading → Bytes
  | .firstByte => []
  | .stunHeader first => [first]
  | .stunBody header _ => header
  | .channelHeader first => [first]
  | .channelBody header _ _ => header

/-- What has arrived of the frame under way. -/
def arrived (s : ReadState) : Bytes := held s.phase ++ s.filled

/-- The bytes a ChannelData header announces: its data, rounded up to a multiple of four. -/
def announced (frame : Bytes) : Nat := (word16 frame 2).toNat + padding (word16 frame 2).toNat

/-- The reader stayed inside its buffers on a stream: every call hands out bytes of
the buffer allocated for its frame, the buffers are what arrived for each frame in turn,
and behind a ChannelData header exactly the padded data is read. -/
structure Inside (stream : Bytes) (result : ReadState × List Received) : Prop where
  sizes : ∀ r ∈ result.2, r.size ≤ r.buf.length
  own : (result.2.map Received.buf).flatten ++ arrived result.1 = stream
  consumed : ∀ r ∈ result.2, byteAt r.buf 0 &&& 0xC0 = 0x40 →
    r.buf.length = 4 + announced r.buf
  underway : ∀ header dataLen paddedLen, result.1.phase = .channelBody header dataLen paddedLen →
    paddedLen.toNat = announced header

/-- Going from frame to frame by their lengths, every ChannelData header declares at
most 65532 bytes. -/
def lengthsFit : Nat → Bytes → Bool
  | 0, _ => true
  | fuel + 1, stream =>
    if byteAt stream 0 &&& 0xC0 = 0x40 then
      if stream.length < 4 then true
      else (word16 stream 2).toNat ≤ 65532 && lengthsFit fuel (stream.drop (4 + announced stream))
    else if stream.length < 20 then true
    else lengthsFit fuel (stream.drop (20 + (word16 stream 2).toNat))

/-- The condition for a whole stream: a frame has at least four bytes, so its length
is fuel enough. -/
def LengthsFit (stream : Bytes) : Prop := lengthsFit stream.length stream = true

instance (stream : Bytes) : Decidable (LengthsFit stream) :=
  inferInstanceAs (Decidable (lengthsFit stream.length stream = true))

/-! ## One frame at a time -/

/-- A frame that was handed out, and what the reader did with the rest of the stream. -/
theorem inside_cons (r : Received) (rest : Bytes) (result : ReadState × List Received) :
    Inside (r.buf ++ rest) (result.1, r :: result.2) ↔
      r.size ≤ r.buf.length ∧ (byteAt r.buf 0 &&& 0xC0 = 0x40 →
        r.buf.length = 4 + announced r.buf) ∧ Inside rest result := by
  constructor
  · intro inside
    refine ⟨inside.sizes r (List.mem_cons_self ..), inside.consumed r (List.mem_cons_self ..),
      ⟨fun r' member => inside.sizes r' (List.mem_cons_of_mem _ member), ?_,
        fun r' member => inside.consumed r' (List.mem_cons_of_mem _ member), inside.underway⟩⟩
    have own := inside.own
    simp only [List.map_cons, List.flatten_cons, List.append_assoc] at own
    exact List.append_cancel_left own
  · rintro ⟨size, consumed, inside⟩
    refine ⟨?_, ?_, ?_, inside.underway⟩
    · intro r' member
      rcases List.mem_cons.mp member with rfl | later
      · exact size
      · exact inside.sizes r' later
    · simp only [List.map_cons, List.flatten_cons, List.append_assoc, inside.own]
    · intro r' member
      rcases List.mem_cons.mp member with rfl | later
      · exact consumed
      · exact inside.consumed r' later

/-- A frame that is not complete yet. -/
theorem inside_underway (phase : Reading) (items : Bytes)
    (padded : ∀ header dataLen paddedLen, phase = .channelBody header dataLen paddedLen →
      paddedLen.toNat = announced header) :
    Inside (held phase ++ items) (⟨phase, items⟩, []) :=
  ⟨by simp, by simp [arrived], by simp, padded⟩

/-- Above 65532 bytes the padded length has wrapped to zero. -/
theorem paddedLen_wraps {w : UInt16} (large : 65532 < w.toNat) : Reading.paddedLen w = 0 := by
  have bound := w.toNat_lt
  have cases : w.toNat = 65533 ∨ w.toNat = 65534 ∨ w.toNat = 65535 := by omega
  rcases cases with value | value | value
  · obtain rfl : w = 65533 := UInt16.toNat_inj.mp value
    decide
  · obtain rfl : w = 65534 := UInt16.toNat_inj.mp value
    decide
  · obtain rfl : w = 65535 := UInt16.toNat_inj.mp value
    decide

theorem lengthsFit_nil (fuel : Nat) : lengthsFit fuel [] = true := by
  cases fuel <;> rfl

/-- The length field of a header, with and without what follows. -/
private theorem field_header (b : UInt8) (header rest : Bytes) (long : 3 ≤ header.length) :
    word16 (b :: (header ++ rest)) 2 = word16 (b :: header) 2 := by
  have same : (b :: (header ++ rest)).take 4 = (b :: header).take 4 := by
    simp [List.take_append_of_le_length long]
  rw [word16, word16, byteAt_of_take same (by omega), byteAt_of_take same (by omega)]

section Channel
variable {b : UInt8} {header body : Bytes} (top : b &&& 0xC0 = 0x40) (size : header.length = 3)
include top size

theorem lengthsFit_channel (fuel : Nat) :
    lengthsFit (fuel + 1) (b :: (header ++ body)) =
      ((word16 header 1).toNat ≤ 65532 &&
        lengthsFit fuel (body.drop (announced (b :: header)))) := by
  have field := field_header b header body (by omega)
  have rest : (b :: (header ++ body)).drop (4 + announced (b :: header)) =
      body.drop (announced (b :: header)) := by
    rw [show b :: (header ++ body) = (b :: header) ++ body from rfl,
      List.drop_append, List.drop_eq_nil_of_le (by simp [size])]
    simp [size]
  have whole : announced (b :: (header ++ body)) = announced (b :: header) := by
    rw [announced, announced, field]
  rw [lengthsFit, if_pos (show byteAt (b :: (header ++ body)) 0 &&& 0xC0 = 0x40 from top),
    if_neg (by simp [size]), field, whole, rest]
  rfl

/-- A ChannelData header the reader has seen in full. -/
theorem channel_inside_iff {fuel : Nat}
    (ih : ∀ stream : Bytes, stream.length ≤ fuel →
      (Inside stream (sessionReader.run .firstByte stream) ↔ lengthsFit fuel stream = true))
    (enough : body.length ≤ fuel) :
    Inside (b :: (header ++ body)) (sessionReader.run .firstByte (b :: (header ++ body))) ↔
      lengthsFit (fuel + 1) (b :: (header ++ body)) = true := by
  have field : word16 (b :: header) 2 = word16 header 1 := rfl
  rw [lengthsFit_channel top size, Bool.and_eq_true, decide_eq_true_eq]
  by_cases small : (word16 header 1).toNat ≤ 65532
  · have padded : (Reading.paddedLen (word16 header 1)).toNat = announced (b :: header) := by
      rw [paddedLen_toNat small, announced, field]
    by_cases short : body.length < announced (b :: header)
    · rw [run_channelHeader b header body top size, ExactReader.run_short
        (by rw [← padded] at short; exact short), List.drop_eq_nil_of_le (by omega),
        lengthsFit_nil]
      refine iff_of_true (inside_underway (.channelBody (b :: header) _ _) body ?_) ⟨small, rfl⟩
      intro header' dataLen paddedLen same
      obtain ⟨rfl, -, rfl⟩ := Reading.channelBody.inj same
      exact padded
    · -- The frame is complete: it is handed out whole, and the rest is read like a new stream.
      obtain ⟨data, rest, rfl, exact⟩ : ∃ data rest, body = data ++ rest ∧
          data.length = announced (b :: header) :=
        ⟨_, _, (List.take_append_drop (announced (b :: header)) body).symm, by simp; omega⟩
      have cut := inside_cons ⟨b :: (header ++ data), 4 + (word16 header 1).toNat⟩ rest
        (sessionReader.run .firstByte rest)
      have frame := field_header b header data (by omega)
      have whole : announced (b :: (header ++ data)) = announced (b :: header) := by
        rw [announced, announced, frame]
      have room : (word16 header 1).toNat ≤ announced (b :: header) := by
        rw [announced, field]
        omega
      rw [run_channel b header data rest top size (by rw [exact, padded]), ← exact,
        List.drop_left, ← ih rest (by simp only [List.length_append] at enough; omega)]
      simp only [List.cons_append, List.append_assoc] at cut
      rw [cut]
      constructor
      · exact fun inside => ⟨small, inside.2.2⟩
      · refine fun inside => ⟨?_, fun _ => ?_, inside.2⟩
        · simp only [List.length_cons, List.length_append, size, exact]
          omega
        · rw [whole]
          simp only [List.length_cons, List.length_append, size, exact]
          omega
  · have wraps := paddedLen_wraps (Nat.not_le.mp small)
    have run := run_channel b header [] body top size (by rw [wraps]; rfl)
    rw [List.nil_append, List.append_nil] at run
    refine iff_of_false (fun inside => ?_) (fun fits => small fits.1)
    rw [run] at inside
    have fits := inside.sizes _ (List.mem_cons_self ..)
    simp only [List.length_cons, size] at fits
    omega

end Channel

section Stun
variable {b : UInt8} {header body : Bytes} (top : b &&& 0xC0 ≠ 0x40) (size : header.length = 19)
include top size

theorem lengthsFit_stun (fuel : Nat) :
    lengthsFit (fuel + 1) (b :: (header ++ body)) =
      lengthsFit fuel (body.drop (word16 (b :: header) 2).toNat) := by
  have field := field_header b header body (by omega)
  have rest : (b :: (header ++ body)).drop (20 + (word16 (b :: header) 2).toNat) =
      body.drop (word16 (b :: header) 2).toNat := by
    rw [show b :: (header ++ body) = (b :: header) ++ body from rfl,
      List.drop_append, List.drop_eq_nil_of_le (by simp [size])]
    simp [size]
  rw [lengthsFit, if_neg (show ¬ byteAt (b :: (header ++ body)) 0 &&& 0xC0 = 0x40 from top),
    if_neg (by simp [size]), field, rest]

/-- A STUN header the reader has seen in full. -/
theorem stun_inside_iff {fuel : Nat}
    (ih : ∀ stream : Bytes, stream.length ≤ fuel →
      (Inside stream (sessionReader.run .firstByte stream) ↔ lengthsFit fuel stream = true))
    (enough : body.length ≤ fuel) :
    Inside (b :: (header ++ body)) (sessionReader.run .firstByte (b :: (header ++ body))) ↔
      lengthsFit (fuel + 1) (b :: (header ++ body)) = true := by
  rw [lengthsFit_stun top size]
  by_cases short : body.length < (word16 (b :: header) 2).toNat
  · rw [run_stunHeader b header body top size, ExactReader.run_short short,
      List.drop_eq_nil_of_le (by omega), lengthsFit_nil]
    exact iff_of_true (inside_underway (.stunBody (b :: header) _) body (by simp)) rfl
  · obtain ⟨attrs, rest, rfl, exact⟩ : ∃ attrs rest, body = attrs ++ rest ∧
        attrs.length = (word16 (b :: header) 2).toNat :=
      ⟨_, _, (List.take_append_drop (word16 (b :: header) 2).toNat body).symm, by simp; omega⟩
    have cut := inside_cons ⟨b :: (header ++ attrs), (b :: (header ++ attrs)).length⟩ rest
      (sessionReader.run .firstByte rest)
    rw [run_stun b header attrs rest top size exact, ← exact, List.drop_left,
      ← ih rest (by simp only [List.length_append] at enough; omega)]
    simp only [List.cons_append, List.append_assoc] at cut
    rw [cut]
    exact ⟨fun inside => inside.2.2, fun inside => ⟨le_rfl, fun channel => absurd channel top,
      inside⟩⟩

end Stun

/-- Frame by frame, the reader stays inside its buffers while the lengths fit. -/
theorem run_inside_iff (fuel : Nat) (stream : Bytes) (enough : stream.length ≤ fuel) :
    Inside stream (sessionReader.run .firstByte stream) ↔ lengthsFit fuel stream = true := by
  induction fuel generalizing stream with
  | zero =>
    obtain rfl := List.eq_nil_of_length_eq_zero (Nat.le_zero.mp enough)
    exact iff_of_true (inside_underway .firstByte [] (by simp)) rfl
  | succ fuel ih =>
    cases stream with
    | nil => exact iff_of_true (inside_underway .firstByte [] (by simp)) (lengthsFit_nil _)
    | cons b rest =>
      simp only [List.length_cons] at enough
      by_cases top : b &&& 0xC0 = 0x40
      · by_cases short : rest.length < 3
        · rw [run_firstByte, if_pos top, ExactReader.run_short short]
          refine iff_of_true (inside_underway (.channelHeader b) rest (by simp)) ?_
          rw [lengthsFit, if_pos (show byteAt (b :: rest) 0 &&& 0xC0 = 0x40 from top),
            if_pos (by simp; omega)]
        · have seen : (rest.take 3).length = 3 := by simp; omega
          have cut := @channel_inside_iff b (rest.take 3) (rest.drop 3) top seen fuel ih
            (by simp; omega)
          rwa [List.take_append_drop] at cut
      · by_cases short : rest.length < 19
        · rw [run_firstByte, if_neg top, ExactReader.run_short short]
          refine iff_of_true (inside_underway (.stunHeader b) rest (by simp)) ?_
          rw [lengthsFit, if_neg (show ¬ byteAt (b :: rest) 0 &&& 0xC0 = 0x40 from top),
            if_pos (by simp; omega)]
        · have seen : (rest.take 19).length = 19 := by simp; omega
          have cut := @stun_inside_iff b (rest.take 19) (rest.drop 19) top seen fuel ih
            (by simp; omega)
          rwa [List.take_append_drop] at cut

theorem receive_eq (segments : List Bytes) :
    TcpSession.receive segments = sessionReader.run .firstByte segments.flatten := by
  have start : sessionReader.issue .firstByte = (⟨.firstByte, []⟩, []) := rfl
  rw [TcpSession.receive, TcpSession.run, ExactReader.feedAll_eq, ExactReader.run, start]
  rfl

/-- **When the stream reader hands out only what it read**: exactly if no ChannelData
header on the stream declares more than 65532 bytes. Any bytes, in any segments, on
both kinds of session. -/
theorem reads_inside_iff (segments : List Bytes) :
    (Inside segments.flatten (TcpSession.receive segments) ↔ LengthsFit segments.flatten) ∧
    ∃ result, TlsSession.receive segments = some result ∧
      (Inside segments.flatten result ↔ LengthsFit segments.flatten) := by
  have read := run_inside_iff segments.flatten.length segments.flatten le_rfl
  rw [← receive_eq] at read
  exact ⟨read, _, rfl, read⟩

/-- A ChannelData header for 65533 bytes, and nothing more. -/
def tooMuch : Bytes := [0x40, 0x00, 0xFF, 0xFD]

/-- The reader hands out 65537 bytes of a buffer of four. -/
theorem reads_beyond : ¬ ∀ segments, Inside segments.flatten (TcpSession.receive segments) := by
  intro inside
  have one : TcpSession.receive [tooMuch] = (ReadState.boundary, [⟨tooMuch, 65537⟩]) := by decide
  have sizes := (inside [tooMuch]).sizes ⟨tooMuch, 65537⟩ (by rw [one]; exact List.mem_cons_self ..)
  exact absurd sizes (by decide)

end Zaza.StreamBounds
