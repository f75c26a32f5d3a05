import Zaza.Stream
import Zaza.StunCodec

/-!
What a stream session reads is what was framed.

A frame is a STUN message that is as long as its length field says, or a
ChannelData message padded to a multiple of four. The reader takes one frame
with a handful of exact reads and is back at the boundary (`run_frame`), so it
recovers every sequence of frames, however the bytes are cut into segments. What
the server's own encoders write are frames (`isFrame_encodeMessage`,
`isFrame_makeChannelData`).
-/
namespace Zaza

/-- A STUN message: top bits 00, and as long as its length field says. -/
def IsStunFrame (f : Bytes) : Prop :=
  byteAt f 0 &&& 0xC0 = 0x00 ∧ f.length = 20 + (word16 f 2).toNat

/-- A ChannelData message: top bits 01, and its data padded to a multiple of
four. The reader counts the padded length in sixteen bits, so longer data than
65532 bytes is no frame. -/
def IsChannelFrame (f : Bytes) : Prop :=
  byteAt f 0 &&& 0xC0 = 0x40 ∧ (word16 f 2).toNat ≤ 65532 ∧
    f.length = 4 + ((word16 f 2).toNat + padding (word16 f 2).toNat)

def IsFrame (f : Bytes) : Prop := IsStunFrame f ∨ IsChannelFrame f

instance (f : Bytes) : Decidable (IsStunFrame f) := inferInstanceAs (Decidable (_ ∧ _))

instance (f : Bytes) : Decidable (IsChannelFrame f) := inferInstanceAs (Decidable (_ ∧ _ ∧ _))

instance (f : Bytes) : Decidable (IsFrame f) := inferInstanceAs (Decidable (_ ∨ _))

/-- What `on_receive` is to be given for a frame: a STUN message whole, a
ChannelData message without its padding. -/
def frameData (f : Bytes) : Bytes :=
  if byteAt f 0 &&& 0xC0 = 0x40 then f.take (4 + (word16 f 2).toNat) else f

/-- Bytes that are a sequence of complete frames. -/
def Framed (stream : Bytes) : Prop := ∃ frames : List Bytes, (∀ f ∈ frames, IsFrame f) ∧
  stream = frames.flatten

namespace StreamFrames

/-! ## One frame -/

theorem top2_channel (b : UInt8) : b >>> 6 &&& 0x03 = 0x01 ↔ b &&& 0xC0 = 0x40 := by
  obtain ⟨⟨n⟩⟩ := b
  revert n
  decide +kernel

theorem paddedLen_toNat {w : UInt16} (small : w.toNat ≤ 65532) :
    (Reading.paddedLen w).toNat = w.toNat + padding w.toNat := by
  unfold Reading.paddedLen padding
  have residue : (w % 4).toNat = w.toNat % 4 := by simp
  by_cases aligned : w % 4 = 0
  · have zero : w.toNat % 4 = 0 := by rw [← residue, aligned]; rfl
    simp [aligned, zero]
  · have nonzero : w.toNat % 4 ≠ 0 := by
      intro zero
      exact aligned (UInt16.toNat_inj.mp (by rw [residue, zero]; rfl))
    have below : w % 4 ≤ 4 := by
      rw [UInt16.le_iff_toNat_le, residue]
      exact Nat.le_of_lt (Nat.mod_lt _ (by decide))
    have rest : (4 - w % 4).toNat = 4 - w.toNat % 4 := by
      rw [UInt16.toNat_sub_of_le _ _ below, residue]
      rfl
    simp only [aligned, nonzero, ne_eq, not_false_eq_true, ↓reduceIte, UInt16.toNat_add, rest]
    omega

theorem run_firstByte (b : UInt8) (rest : Bytes) :
    sessionReader.run .firstByte (b :: rest) =
      sessionReader.run (if b &&& 0xC0 = 0x40 then .channelHeader b else .stunHeader b) rest := by
  have read := ExactReader.run_read (show [b].length = sessionReader.wants .firstByte from rfl) rest
  rw [← List.singleton_append, read]
  by_cases channel : b &&& 0xC0 = 0x40
  · have top2 : b >>> 6 &&& 0x03 = 0x01 := (top2_channel b).mpr channel
    simp [sessionReader, Reading.completed, byteAt, top2, channel]
  · have top2 : b >>> 6 &&& 0x03 ≠ 0x01 := fun same => channel ((top2_channel b).mp same)
    simp [sessionReader, Reading.completed, byteAt, top2, channel]

/-- The header of a STUN message takes two reads. -/
theorem run_stunHeader (b : UInt8) (header rest : Bytes) (top : b &&& 0xC0 ≠ 0x40)
    (headerSize : header.length = 19) :
    sessionReader.run .firstByte (b :: (header ++ rest)) =
      sessionReader.run (.stunBody (b :: header) (word16 (b :: header) 2)) rest := by
  have head := ExactReader.run_read (show header.length = sessionReader.wants (.stunHeader b) from
    headerSize) rest
  rw [run_firstByte, if_neg top, head]
  simp [sessionReader, Reading.completed]

/-- The reader takes a STUN message with three reads. -/
theorem run_stun (b : UInt8) (header body rest : Bytes) (top : b &&& 0xC0 ≠ 0x40)
    (headerSize : header.length = 19)
    (bodySize : body.length = (word16 (b :: header) 2).toNat) :
    sessionReader.run .firstByte (b :: (header ++ (body ++ rest))) =
      ((sessionReader.run .firstByte rest).1,
        ⟨b :: (header ++ body), (b :: (header ++ body)).length⟩ ::
          (sessionReader.run .firstByte rest).2) := by
  have attrs := ExactReader.run_read (show body.length =
    sessionReader.wants (.stunBody (b :: header) (word16 (b :: header) 2)) from bodySize) rest
  rw [run_stunHeader b header _ top headerSize, attrs]
  simp [sessionReader, Reading.completed]

/-- The header of a ChannelData message takes two reads. -/
theorem run_channelHeader (b : UInt8) (header rest : Bytes) (top : b &&& 0xC0 = 0x40)
    (headerSize : header.length = 3) :
    sessionReader.run .firstByte (b :: (header ++ rest)) =
      sessionReader.run (.channelBody (b :: header) (word16 header 1)
        (Reading.paddedLen (word16 header 1))) rest := by
  have head := ExactReader.run_read (show header.length = sessionReader.wants (.channelHeader b)
    from headerSize) rest
  rw [run_firstByte, if_pos top, head]
  simp [sessionReader, Reading.completed]

/-- The reader takes a ChannelData message and its padding with three reads. -/
theorem run_channel (b : UInt8) (header body rest : Bytes) (top : b &&& 0xC0 = 0x40)
    (headerSize : header.length = 3)
    (bodySize : body.length = (Reading.paddedLen (word16 header 1)).toNat) :
    sessionReader.run .firstByte (b :: (header ++ (body ++ rest))) =
      ((sessionReader.run .firstByte rest).1,
        ⟨b :: (header ++ body), 4 + (word16 header 1).toNat⟩ ::
          (sessionReader.run .firstByte rest).2) := by
  have padded := ExactReader.run_read (show body.length = sessionReader.wants
    (.channelBody (b :: header) (word16 header 1) (Reading.paddedLen (word16 header 1))) from
    bodySize) rest
  rw [run_channelHeader b header _ top headerSize, padded]
  simp [sessionReader, Reading.completed]

/-- A frame as its first byte, the rest of its header and its body. -/
theorem frame_cut {f : Bytes} (n : Nat) (long : n + 1 ≤ f.length) :
    f = byteAt f 0 :: ((f.drop 1).take n ++ f.drop (n + 1)) := by
  cases f with
  | nil => simp at long
  | cons b f => simp [byteAt]

/-- The header of a frame, first byte included. -/
theorem frame_head {f : Bytes} (n : Nat) (long : n + 1 ≤ f.length) :
    byteAt f 0 :: (f.drop 1).take n = f.take (n + 1) := by
  cases f with
  | nil => simp at long
  | cons b f => simp [byteAt]

/-- The reader takes a frame, hands out its data, and is at the boundary again. -/
theorem run_frame {f : Bytes} (frame : IsFrame f) (rest : Bytes) :
    ∃ r : Received, r.data = frameData f ∧ r.size ≤ r.buf.length ∧
      sessionReader.run .firstByte (f ++ rest) =
        ((sessionReader.run .firstByte rest).1, r :: (sessionReader.run .firstByte rest).2) := by
  rcases frame with ⟨top, size⟩ | ⟨top, small, size⟩
  · have cut := frame_cut 19 (show 19 + 1 ≤ f.length by omega)
    have other : byteAt f 0 &&& 0xC0 ≠ 0x40 := by rw [top]; decide
    have headerSize : ((f.drop 1).take 19).length = 19 := by simp; omega
    have field : word16 (byteAt f 0 :: (f.drop 1).take 19) 2 = word16 f 2 := by
      have same : (f.take 20).take 20 = f.take 20 := by rw [List.take_take, Nat.min_self]
      rw [frame_head 19 (by omega)]
      simp only [word16, byteAt_of_take same (show 2 < 20 by omega),
        byteAt_of_take same (show 2 + 1 < 20 by omega)]
    have bodySize : (f.drop (19 + 1)).length =
        (word16 (byteAt f 0 :: (f.drop 1).take 19) 2).toNat := by
      rw [field]
      simp
      omega
    have run := run_stun (byteAt f 0) _ _ rest other headerSize bodySize
    rw [← cut] at run
    refine ⟨⟨f, f.length⟩, ?_, le_rfl, ?_⟩
    · simp [Received.data, frameData, other]
    · rw [← run]
      conv => lhs; rw [cut]
      simp
  · have cut := frame_cut 3 (show 3 + 1 ≤ f.length by omega)
    have headerSize : ((f.drop 1).take 3).length = 3 := by simp; omega
    have field : word16 ((f.drop 1).take 3) 1 = word16 f 2 := by
      have same : (byteAt f 0 :: (f.drop 1).take 3).take 4 = f.take 4 := by
        rw [frame_head 3 (by omega), List.take_take, Nat.min_self]
      have second := byteAt_of_take same (show 2 < 4 by omega)
      have third := byteAt_of_take same (show 3 < 4 by omega)
      exact congrArg₂ be16 second third
    have bodySize : (f.drop (3 + 1)).length =
        (Reading.paddedLen (word16 ((f.drop 1).take 3) 1)).toNat := by
      rw [field, paddedLen_toNat small]
      simp
      omega
    have run := run_channel (byteAt f 0) _ _ rest top headerSize bodySize
    rw [← cut, field] at run
    refine ⟨⟨f, 4 + (word16 f 2).toNat⟩, ?_, ?_, ?_⟩
    · simp [Received.data, frameData, top]
    · simp only
      omega
    · rw [← run]
      conv => lhs; rw [cut]
      simp

/-- The reader takes any sequence of frames. -/
theorem run_frames {frames : List Bytes} (each : ∀ f ∈ frames, IsFrame f) :
    ∃ received : List Received, received.map Received.data = frames.map frameData ∧
      (∀ r ∈ received, r.size ≤ r.buf.length) ∧
      sessionReader.run .firstByte frames.flatten = (ReadState.boundary, received) := by
  induction frames with
  | nil => exact ⟨[], rfl, by simp, rfl⟩
  | cons f frames ih =>
    obtain ⟨received, data, sizes, run⟩ := ih fun g member => each g (List.mem_cons_of_mem _ member)
    obtain ⟨r, whole, size, first⟩ := run_frame (each f List.mem_cons_self) frames.flatten
    refine ⟨r :: received, by simp [whole, data], ?_, ?_⟩
    · intro r' member
      rcases List.mem_cons.mp member with rfl | later
      · exact size
      · exact sizes r' later
    · rw [List.flatten_cons, first, run]

/-! ## The server's own encoders -/

/-- A message whose length field is right. -/
theorem isStunFrame_of_header (method : Method) (msgClass : MessageClass) (tid : TransactionId)
    (body : Bytes) (small : body.length ≤ 65535)
    (shape : f = bytes16 (MessageBuilder.encodeType method msgClass) ++
      (bytes16 body.length.toUInt16 ++ ([0x21, 0x12, 0xA4, 0x42] ++ (tid.toList ++ body)))) :
    IsStunFrame f := by
  have field : word16 f 2 = body.length.toUInt16 := by
    rw [shape]
    exact be16_bytes16 _
  constructor
  · rw [shape]
    exact StunCodec.encodeType_top method msgClass
  · rw [field, StunCodec.toUInt16_toNat (by omega), shape]
    simp
    omega

/-- What `MessageBuilder` builds is a frame when its attributes fit the length
field. -/
theorem isStunFrame_build (method : Method) (msgClass : MessageClass) (tid : TransactionId)
    {attrs : List Attribute} (fits : StunCodec.encodedSize attrs ≤ 65535) :
    IsStunFrame
      (StunCodec.addAttrs (MessageBuilder.new method msgClass tid) attrs).build := by
  rw [StunCodec.build_addAttrs method msgClass tid fits]
  apply isStunFrame_of_header method msgClass tid (attrs.flatMap StunCodec.encodeAttr)
  · rwa [StunCodec.encodeAttrs_length]
  · rw [StunCodec.encodeAttrs_length, StunCodec.encodeMessage]

/-- The first two bytes of a ChannelData message with its length, and the data. -/
def channelBytes (ch : UInt16) (data : Bytes) : Bytes :=
  bytes16 ch ++ (bytes16 data.length.toUInt16 ++ data)

/-- What `make_channel_data` builds for data of at most 65532 bytes is a frame,
and its data is everything but the padding. -/
theorem isChannelFrame_makeChannelData {ch : UInt16} (valid : 0x4000 ≤ ch ∧ ch ≤ 0x7FFF)
    {data : Bytes} (small : data.length ≤ 65532) :
    IsChannelFrame (makeChannelData ch data) ∧
      frameData (makeChannelData ch data) = channelBytes ch data := by
  have length : data.length.toUInt16.toNat = data.length := StunCodec.toUInt16_toNat (by omega)
  have field : word16 (makeChannelData ch data) 2 = data.length.toUInt16 := be16_bytes16 _
  have top : byteAt (makeChannelData ch data) 0 &&& 0xC0 = 0x40 :=
    StunCodec.channel_top valid
  refine ⟨⟨top, by rw [field]; omega, ?_⟩, ?_⟩
  · rw [field, length]
    simp [makeChannelData, length]
    omega
  · have front : makeChannelData ch data =
        channelBytes ch data ++ List.replicate (padding data.length) 0 := by
      simp [makeChannelData, channelBytes, length]
    have size : (channelBytes ch data).length = 4 + data.length := by
      simp [channelBytes]
      omega
    rw [frameData, if_pos top, field, length, front, ← size, List.take_left]

/-- What the server itself writes to a stream. -/
inductive Output where
  | message (method : Method) (msgClass : MessageClass) (tid : TransactionId)
      (attrs : List Attribute)
  | channelData (ch : UInt16) (data : Bytes)

namespace Output

/-- `MessageBuilder::build` or `make_channel_data`. -/
def encode : Output → Bytes
  | .message method msgClass tid attrs =>
    (StunCodec.addAttrs (MessageBuilder.new method msgClass tid) attrs).build
  | .channelData ch data => makeChannelData ch data

/-- Small enough for its length field and, with the padding, for the reader's. -/
def Fits : Output → Prop
  | .message _ _ _ attrs => StunCodec.encodedSize attrs ≤ 65535
  | .channelData ch data => (0x4000 ≤ ch ∧ ch ≤ 0x7FFF) ∧ data.length ≤ 65532

/-- What the other end's `on_receive` is to be given. -/
def received : Output → Bytes
  | .message method msgClass tid attrs =>
    (StunCodec.addAttrs (MessageBuilder.new method msgClass tid) attrs).build
  | .channelData ch data => channelBytes ch data

theorem isFrame {output : Output} (fits : output.Fits) : IsFrame output.encode := by
  cases output with
  | message method msgClass tid attrs => exact .inl (isStunFrame_build method msgClass tid fits)
  | channelData ch data => exact .inr (isChannelFrame_makeChannelData fits.1 fits.2).1

theorem frameData_encode {output : Output} (fits : output.Fits) :
    frameData output.encode = output.received := by
  cases output with
  | message method msgClass tid attrs =>
    have top := (isStunFrame_build method msgClass tid fits).1
    rw [frameData, if_neg]
    · rfl
    · rw [encode, top]
      decide
  | channelData ch data => exact (isChannelFrame_makeChannelData fits.1 fits.2).2

end Output

/-! ## Sessions -/

/-- The segments received are cut from these frames, and the session has handed
out each one's data, in order and from inside its buffer, and waits for the next. -/
def Deframed (frames : List Bytes) (outcome : ReadState × List Received) : Prop :=
  outcome.2.map Received.data = frames.map frameData ∧
    (∀ r ∈ outcome.2, r.size ≤ r.buf.length) ∧ outcome.1 = ReadState.boundary

theorem deframed_receive {frames segments : List Bytes} (each : ∀ f ∈ frames, IsFrame f)
    (cut : segments.flatten = frames.flatten) :
    Deframed frames (TcpSession.receive segments) := by
  obtain ⟨received, data, sizes, run⟩ := run_frames each
  have read : TcpSession.receive segments = (ReadState.boundary, received) := by
    rw [TcpSession.receive, ExactReader.feedAll_eq, cut, ← run]
    rfl
  rw [read]
  exact ⟨data, sizes, rfl⟩

/-- **Deframing is lossless.** However the concatenation of a list of frames is
cut into segments, a TCP session calls `on_receive` once for each frame, in
order, with the frame's data, and ends at a frame boundary; a TLS session does
the same with the same plaintext. In particular whatever the server's encoders
write, within the sizes, is recovered. -/
theorem stream_deframing (frames segments : List Bytes) (each : ∀ f ∈ frames, IsFrame f)
    (cut : segments.flatten = frames.flatten) :
    Deframed frames (TcpSession.receive segments) ∧
      TlsSession.receive segments = some (TcpSession.receive segments) ∧
      ∀ (outputs : List Output) (segments' : List Bytes), (∀ output ∈ outputs, output.Fits) →
        segments'.flatten = (outputs.map Output.encode).flatten →
        (TcpSession.receive segments').1 = ReadState.boundary ∧
          (TcpSession.receive segments').2.map Received.data = outputs.map Output.received := by
  refine ⟨deframed_receive each cut, rfl, ?_⟩
  intro outputs segments' fits cut'
  have framed : ∀ f ∈ outputs.map Output.encode, IsFrame f := by
    intro f member
    obtain ⟨output, inside, rfl⟩ := List.mem_map.mp member
    exact Output.isFrame (fits output inside)
  obtain ⟨data, _, ended⟩ := deframed_receive framed cut'
  refine ⟨ended, data.trans ?_⟩
  rw [List.map_map]
  exact List.map_congr_left fun output member => Output.frameData_encode (fits output member)

/-- An empty message and five bytes on a channel, cut inside both headers. -/
theorem stream_deframing_sample :
    (∀ f ∈ [(MessageBuilder.new .allocate .request (Vector.replicate 12 1)).build,
        makeChannelData 0x4001 [1, 2, 3, 4, 5]], IsFrame f) ∧
      Deframed [(MessageBuilder.new .allocate .request (Vector.replicate 12 1)).build,
          makeChannelData 0x4001 [1, 2, 3, 4, 5]]
        (TcpSession.receive
          [[0x00, 0x03, 0x00], [0x00, 0x21, 0x12, 0xA4, 0x42, 1, 1, 1, 1, 1, 1, 1, 1, 1, 1, 1, 1,
            0x40, 0x01], [], [0x00, 0x05, 1, 2], [3, 4, 5, 0, 0, 0]]) :=
  ⟨by decide, (stream_deframing _ _ (by decide) (by decide)).1⟩

end StreamFrames

end Zaza
