import Zaza.Wav

/-!
RIFF/WAVE files of sixteen-bit PCM, and how `readWav` walks them.

The reader goes from chunk to chunk by the sizes it finds, and takes the byte
after a chunk for the start of the next one. RIFF puts a pad byte behind a chunk
of odd size, so the reader loses its place there. As long as the chunks in front of
the data have even sizes it does not, which covers everything `writeWav` writes.
-/
namespace Zaza.WavFormat
open Zaza

variable {junk : Nat → UInt8} {header : WavHeader} {found : Bool} {fuel : Nat} {rest : Bytes}

/-! ## Words -/

theorem le16_eq (b0 b1 : UInt8) : le16 b0 b1 = be16 b1 b0 := by
  have shifted (x : UInt32) : (x.toInt32 <<< 8).toUInt32 = x <<< 8 := rfl
  unfold le16 be16 promote
  simp only [Int32.toUInt32_or, UInt32.toUInt32_toInt32, shifted, UInt32.toUInt16_or]
  rw [UInt16.or_comm]
  simp

theorem le32_eq (b0 b1 b2 b3 : UInt8) : le32 b0 b1 b2 b3 = be32 b3 b2 b1 b0 := by
  have shifted8 (x : UInt32) : (x.toInt32 <<< 8).toUInt32 = x <<< 8 := rfl
  have shifted16 (x : UInt32) : (x.toInt32 <<< 16).toUInt32 = x <<< 16 := rfl
  have shifted24 (x : UInt32) : (x.toInt32 <<< 24).toUInt32 = x <<< 24 := rfl
  unfold le32 be32 promote
  simp only [Int32.toUInt32_or, UInt32.toUInt32_toInt32, shifted8, shifted16, shifted24]
  rw [UInt32.or_comm, UInt32.or_comm (_ ||| _), UInt32.or_comm b0.toUInt32, ← UInt32.or_assoc,
    ← UInt32.or_assoc]

private theorem and_whole (b : UInt8) : b &&& 0xFF = b := UInt8.and_neg_one

theorem bytesLE16_eq (v : UInt16) : bytesLE16 v = (bytes16 v).reverse := by
  simp [bytesLE16, bytes16, and_whole]

theorem bytesLE32_eq (v : UInt32) : bytesLE32 v = (bytes32 v).reverse := by
  simp [bytesLE32, bytes32, and_whole]

theorem le16_bytesLE16 (v : UInt16) : le16 v.toUInt8 (v >>> 8).toUInt8 = v := by
  have parts := be16_bytes16 v
  simp only [UInt16.toUInt8_and, UInt16.toUInt8_ofNat, and_whole] at parts
  rw [le16_eq, parts]

theorem le32_bytesLE32 (v : UInt32) :
    le32 v.toUInt8 (v >>> 8).toUInt8 (v >>> 16).toUInt8 (v >>> 24).toUInt8 = v := by
  have parts := be32_bytes32 v
  simp only [UInt32.toUInt8_and, UInt32.toUInt8_ofNat, and_whole] at parts
  rw [le32_eq, parts]

@[simp] theorem bytesLE16_length (v : UInt16) : (bytesLE16 v).length = 2 := rfl

@[simp] theorem bytesLE32_length (v : UInt32) : (bytesLE32 v).length = 4 := rfl

/-- What was written as samples is read as samples. -/
theorem samplesOf_sampleBytes (samples : List Int16) :
    samplesOf (samples.flatMap sampleBytes) = samples := by
  induction samples with
  | nil => rfl
  | cons sample samples ih =>
    have value := le16_bytesLE16 sample.toUInt16
    simp only [List.flatMap_cons, sampleBytes, bytesLE16, List.cons_append, List.nil_append,
      samplesOf, value, Int16.toInt16_toUInt16]
    exact congrArg _ ih

theorem sampleBytes_length (samples : List Int16) :
    (samples.flatMap sampleBytes).length = 2 * samples.length := by
  induction samples with
  | nil => rfl
  | cons sample samples ih =>
    rw [List.flatMap_cons, List.length_append, ih, List.length_cons]
    show 2 + 2 * samples.length = _
    omega

/-! ## Reads that are served -/

theorem read_append {front : Bytes} (size : front.length = n) :
    IfStream.read ⟨front ++ rest, false, junk⟩ n = (front, ⟨rest, false, junk⟩) := by
  have enough : ¬ (front ++ rest).length < n := by simp [← size]
  simp only [IfStream.read, Bool.false_eq_true, ↓reduceIte, enough, decide_false]
  rw [List.take_left' size, List.drop_left' size]

theorem readArray_append {front : Bytes} (size : front.length = n) :
    IfStream.readArray ⟨front ++ rest, false, junk⟩ n =
      (front, ⟨rest, false, fun i => junk (i + n)⟩) := by
  simp only [IfStream.readArray, read_append size, size, Nat.sub_self, List.range_zero,
    List.map_nil, List.append_nil]

@[simp] theorem readU16LE_bytes (v : UInt16) :
    IfStream.readU16LE ⟨bytesLE16 v ++ rest, false, junk⟩ =
      (v, ⟨rest, false, fun i => junk (i + 2)⟩) := by
  simp only [IfStream.readU16LE, readArray_append (bytesLE16_length v)]
  exact congrArg (·, _) (le16_bytesLE16 v)

@[simp] theorem readU32LE_bytes (v : UInt32) :
    IfStream.readU32LE ⟨bytesLE32 v ++ rest, false, junk⟩ =
      (v, ⟨rest, false, fun i => junk (i + 4)⟩) := by
  simp only [IfStream.readU32LE, readArray_append (bytesLE32_length v)]
  exact congrArg (·, _) (le32_bytesLE32 v)

/-! ## Chunks -/

/-- The sixteen bytes every `fmt ` chunk of sixteen-bit PCM starts with. -/
def fmtFields (numChannels : UInt16) (sampleRate byteRate : UInt32) (blockAlign : UInt16) :
    Bytes :=
  bytesLE16 1 ++ (bytesLE16 numChannels ++ (bytesLE32 sampleRate ++ (bytesLE32 byteRate ++
    (bytesLE16 blockAlign ++ bytesLE16 16))))

/-- A chunk the reader does not know: it goes on right behind its body. -/
theorem chunkLoop_foreign {id : Bytes} (four : id.length = 4)
    (foreign : id ≠ ascii "fmt " ∧ id ≠ ascii "data") (size : UInt32) :
    chunkLoop (fuel + 1) ⟨id ++ (bytesLE32 size ++ rest), false, junk⟩ header found =
      chunkLoop fuel ⟨rest.drop size.toNat, false, fun i => junk (i + 4 + 4)⟩ header found := by
  simp only [chunkLoop, Bool.false_eq_true, ↓reduceIte, readArray_append four, readU32LE_bytes,
    foreign.1, foreign.2, IfStream.seekg]

/-- The `fmt ` chunk, whose extension is skipped. -/
theorem chunkLoop_fmt {numChannels blockAlign : UInt16} {sampleRate byteRate : UInt32}
    (size : UInt32) : chunkLoop (fuel + 1)
      ⟨ascii "fmt " ++ (bytesLE32 size ++ (fmtFields numChannels sampleRate byteRate blockAlign ++
        rest)), false, junk⟩ header found =
      chunkLoop fuel ⟨rest.drop (size.toNat - 16), false, fun i => junk (i + 24)⟩
        { header with numChannels, sampleRate, bitsPerSample := 16 } true := by
  have skipped : (if size > 16 then
      IfStream.seekg ⟨rest, false, fun i => junk (i + 24)⟩ (size - 16).toNat
      else ⟨rest, false, fun i => junk (i + 24)⟩) =
      ⟨rest.drop (size.toNat - 16), false, fun i => junk (i + 24)⟩ := by
    split
    · rename_i large
      simp only [IfStream.seekg, Bool.false_eq_true, ↓reduceIte,
        UInt32.toNat_sub_of_le _ _ (UInt32.le_of_lt large)]
      rfl
    · rename_i small
      have small : size.toNat ≤ 16 := by simpa [UInt32.lt_iff_toNat_lt] using small
      rw [Nat.sub_eq_zero_of_le small, List.drop_zero]
  simp only [chunkLoop, Bool.false_eq_true, ↓reduceIte,
    readArray_append (show (ascii "fmt ").length = 4 from rfl), readU32LE_bytes, readFmt,
    fmtFields, List.append_assoc, readU16LE_bytes, ne_eq, not_true_eq_false]
  exact congrArg (chunkLoop fuel · _ true) skipped

/-- The `data` chunk ends the loop, whether its size is there or not. -/
theorem chunkLoop_data : chunkLoop (fuel + 1) ⟨ascii "data" ++ rest, false, junk⟩ header true =
    .ok (readData (IfStream.readU32LE ⟨rest, false, fun i => junk (i + 4)⟩).2 header
      (IfStream.readU32LE ⟨rest, false, fun i => junk (i + 4)⟩).1) := by
  have other : ascii "data" ≠ ascii "fmt " := by decide
  simp only [chunkLoop, Bool.false_eq_true, ↓reduceIte, other, Bool.not_true,
    readArray_append (show (ascii "data").length = 4 from rfl)]

/-- The data chunk of samples that are all there. -/
theorem readData_whole (samples : List Int16) (small : 2 * samples.length < 4294967296) :
    let reading := readData ⟨samples.flatMap sampleBytes ++ rest, false, junk⟩ header
      (2 * samples.length).toUInt32
    reading.result = .ok samples ∧
      reading.header = { header with numSamples := samples.length.toUInt32 } := by
  have size : (2 * samples.length).toUInt32.toNat = 2 * samples.length :=
    UInt32.toNat_ofNat_of_lt' small
  have count : ((2 * samples.length).toUInt32 / 2).toNat = samples.length := by
    rw [UInt32.toNat_div, size]
    exact Nat.mul_div_cancel_left _ (by decide)
  have bytes := sampleBytes_length samples
  simp only [readData, size, count, read_append bytes, bytes, Nat.sub_self, List.replicate_zero,
    List.append_nil, List.take_of_length_le (Nat.le_of_eq bytes), samplesOf_sampleBytes, and_self]

/-! ## Files -/

/-- A chunk body with the pad byte that an odd one is followed by. -/
def padded (body : Bytes) (pad : UInt8) : Bytes :=
  if body.length % 2 = 1 then body ++ [pad] else body

/-- A chunk of a type the reader does not know. -/
structure ForeignChunk where
  id : Bytes
  body : Bytes
  pad : UInt8
  four : id.length = 4
  foreign : id ≠ ascii "fmt " ∧ id ≠ ascii "data"
  small : body.length < 4294967296

def ForeignChunk.encode (chunk : ForeignChunk) : Bytes :=
  chunk.id ++ (bytesLE32 chunk.body.length.toUInt32 ++ padded chunk.body chunk.pad)

/-- A well-formed RIFF/WAVE file of sixteen-bit PCM. -/
structure PcmFile where
  riffSize : UInt32
  before : List ForeignChunk
  numChannels : UInt16
  sampleRate : UInt32
  byteRate : UInt32
  blockAlign : UInt16
  /-- What follows the first sixteen bytes of the `fmt ` chunk. -/
  extension : Bytes
  fmtPad : UInt8
  after : List ForeignChunk
  samples : List Int16
  fmtSmall : 16 + extension.length < 4294967296
  dataSmall : 2 * samples.length < 4294967296

namespace PcmFile

def fmtBody (file : PcmFile) : Bytes :=
  fmtFields file.numChannels file.sampleRate file.byteRate file.blockAlign ++ file.extension

def fmtChunk (file : PcmFile) : Bytes :=
  ascii "fmt " ++ (bytesLE32 file.fmtBody.length.toUInt32 ++ padded file.fmtBody file.fmtPad)

def dataChunk (file : PcmFile) : Bytes :=
  ascii "data" ++ (bytesLE32 (2 * file.samples.length).toUInt32 ++
    file.samples.flatMap sampleBytes)

def encode (file : PcmFile) : Bytes :=
  ascii "RIFF" ++ (bytesLE32 file.riffSize ++ (ascii "WAVE" ++
    (file.before.flatMap ForeignChunk.encode ++ (file.fmtChunk ++
      (file.after.flatMap ForeignChunk.encode ++ file.dataChunk)))))

/-- No chunk in front of the data has an odd size. -/
def EvenChunks (file : PcmFile) : Prop :=
  (∀ chunk ∈ file.before ++ file.after, chunk.body.length % 2 = 0) ∧
    file.extension.length % 2 = 0

/-- `readWav` returns the samples, and has filled the header in. -/
def ReadsBack (file : PcmFile) : Prop :=
  ∀ junk header, ∃ reading, readWav junk (some file.encode) header = .ok reading ∧
    reading.result = .ok file.samples ∧
    reading.header = ⟨file.sampleRate, file.numChannels, 16, file.samples.length.toUInt32⟩

end PcmFile

/-- Chunks of even sizes are skipped one after the other. -/
theorem chunkLoop_foreigns {chunks : List ForeignChunk}
    (even : ∀ chunk ∈ chunks, chunk.body.length % 2 = 0)
    (enough : (chunks.flatMap ForeignChunk.encode ++ rest).length < fuel) :
    ∃ fuel' junk', rest.length < fuel' ∧
      chunkLoop fuel ⟨chunks.flatMap ForeignChunk.encode ++ rest, false, junk⟩ header found =
        chunkLoop fuel' ⟨rest, false, junk'⟩ header found := by
  induction chunks generalizing fuel junk with
  | nil => exact ⟨fuel, junk, by simpa using enough, by simp⟩
  | cons chunk chunks ih =>
    have size : chunk.body.length.toUInt32.toNat = chunk.body.length :=
      UInt32.toNat_ofNat_of_lt' chunk.small
    have whole : padded chunk.body chunk.pad = chunk.body :=
      if_neg (by rw [even chunk (by simp)]; decide)
    cases fuel with
    | zero => omega
    | succ fuel =>
      simp only [List.flatMap_cons, ForeignChunk.encode, whole, List.append_assoc,
        List.length_append, chunk.four, bytesLE32_length] at enough ⊢
      rw [chunkLoop_foreign chunk.four chunk.foreign, size, List.drop_left]
      refine ih (fun other member => even other (by simp [member])) ?_
      rw [List.length_append]
      omega

/-- The header after the `fmt ` chunk. -/
def PcmFile.withFormat (file : PcmFile) (header : WavHeader) : WavHeader :=
  { header with
    numChannels := file.numChannels, sampleRate := file.sampleRate, bitsPerSample := 16 }

/-- So is a `fmt ` chunk of even size. -/
theorem chunkLoop_fmtChunk (file : PcmFile) (even : file.extension.length % 2 = 0)
    (enough : (file.fmtChunk ++ rest).length < fuel) : ∃ fuel' junk', rest.length < fuel' ∧
      chunkLoop fuel ⟨file.fmtChunk ++ rest, false, junk⟩ header found =
        chunkLoop fuel' ⟨rest, false, junk'⟩ (file.withFormat header) true := by
  have length : file.fmtBody.length = 16 + file.extension.length := by
    rw [PcmFile.fmtBody, List.length_append]
    rfl
  have size : file.fmtBody.length.toUInt32.toNat = 16 + file.extension.length := by
    rw [length]
    exact UInt32.toNat_ofNat_of_lt' file.fmtSmall
  have whole : padded file.fmtBody file.fmtPad = file.fmtBody := if_neg (by omega)
  cases fuel with
  | zero => omega
  | succ fuel =>
    have id : 0 < (ascii "fmt ").length := by decide
    refine ⟨fuel, fun i => junk (i + 24), ?_, ?_⟩
    · simp only [PcmFile.fmtChunk, List.length_append] at enough
      omega
    · have walked := @chunkLoop_fmt junk header found fuel (file.extension ++ rest)
        file.numChannels file.blockAlign file.sampleRate file.byteRate
        file.fmtBody.length.toUInt32
      rw [size, Nat.add_sub_cancel_left, List.drop_left] at walked
      have body : file.fmtBody ++ rest = fmtFields file.numChannels file.sampleRate file.byteRate
          file.blockAlign ++ (file.extension ++ rest) := List.append_assoc _ _ _
      rw [PcmFile.fmtChunk, whole, List.append_assoc, List.append_assoc, body]
      exact walked

/-- The three chunks every file has, after the twelve bytes of its start. -/
theorem chunkLoop_file (file : PcmFile) (even : file.EvenChunks) (junk : Nat → UInt8)
    (header : WavHeader)
    (enough : (file.before.flatMap ForeignChunk.encode ++ (file.fmtChunk ++
      (file.after.flatMap ForeignChunk.encode ++ file.dataChunk))).length < fuel) :
    ∃ junk', chunkLoop fuel ⟨file.before.flatMap ForeignChunk.encode ++ (file.fmtChunk ++
        (file.after.flatMap ForeignChunk.encode ++ file.dataChunk)), false, junk⟩ header false =
      .ok (readData ⟨file.samples.flatMap sampleBytes, false, junk'⟩ (file.withFormat header)
        (2 * file.samples.length).toUInt32) := by
  obtain ⟨foreign, extension⟩ := even
  obtain ⟨fuel₁, junk₁, enough₁, first⟩ := chunkLoop_foreigns
    (fun chunk member => foreign chunk (List.mem_append_left _ member)) enough
  obtain ⟨fuel₂, junk₂, enough₂, second⟩ := chunkLoop_fmtChunk file extension enough₁
  obtain ⟨fuel₃, junk₃, enough₃, third⟩ := chunkLoop_foreigns
    (fun chunk member => foreign chunk (List.mem_append_right _ member)) enough₂
  cases fuel₃ with
  | zero => omega
  | succ fuel₃ =>
    exact ⟨_, by rw [first, second, third, PcmFile.dataChunk, chunkLoop_data, readU32LE_bytes]⟩

/-- A file without odd chunks in front of its data is read up to its data. -/
theorem readWav_encode (file : PcmFile) (even : file.EvenChunks) (junk : Nat → UInt8)
    (header : WavHeader) : ∃ junk', readWav junk (some file.encode) header =
      .ok (readData ⟨file.samples.flatMap sampleBytes ++ [], false, junk'⟩
        (file.withFormat header) (2 * file.samples.length).toUInt32) := by
  have riff : (ascii "RIFF").length = 4 := rfl
  have wave : (ascii "WAVE").length = 4 := rfl
  obtain ⟨junk', walked⟩ := @chunkLoop_file (file.encode.length + 1) file even
    (fun i => junk (i + 4 + 4 + 4)) header
    (by simp only [PcmFile.encode, List.length_append]; omega)
  refine ⟨junk', ?_⟩
  rw [List.append_nil, ← walked]
  simp only [readWav]
  rw [PcmFile.encode, readArray_append riff]
  simp only [readU32LE_bytes, readArray_append wave, ne_eq, not_true_eq_false, ↓reduceIte]

/-- **Even chunks**: a file is read back if no chunk in front of its data has an odd size. -/
theorem reads_back_of_even (file : PcmFile) (even : file.EvenChunks) : file.ReadsBack := by
  intro junk header
  obtain ⟨junk', done⟩ := readWav_encode file even junk header
  exact ⟨_, done, readData_whole file.samples file.dataSmall⟩

/-- One sample, behind a list of some bytes. -/
def listFile (info : Bytes) (small : info.length < 4294967296) : PcmFile where
  riffSize := 46 + (padded info 0).length.toUInt32
  before := [⟨ascii "LIST", info, 0, rfl, by decide, small⟩]
  numChannels := 1
  sampleRate := 48000
  byteRate := 96000
  blockAlign := 2
  extension := []
  fmtPad := 0
  after := []
  samples := [5]
  fmtSmall := by decide
  dataSmall := by decide

theorem reads_back_of_even_list : (listFile [1, 2] (by decide)).EvenChunks ∧
    (listFile [1, 2] (by decide)).ReadsBack := by
  have even : (listFile [1, 2] (by decide)).EvenChunks := ⟨by simp [listFile], rfl⟩
  exact ⟨even, reads_back_of_even _ even⟩

/-- A list of one byte, and the reader does not find the format. -/
theorem odd_list_misread : ¬ ∀ file : PcmFile, file.ReadsBack := by
  intro all
  obtain ⟨reading, done, samples, _⟩ := all (listFile [1] (by decide)) (fun _ => 0) ⟨0, 0, 0, 0⟩
  have lost : (readWav (fun _ => 0) (some (listFile [1] (by decide)).encode)
      ⟨0, 0, 0, 0⟩).toOption.any (fun reading => reading.result.toOption.isNone) = true := by
    decide +kernel
  simp [done, samples, Except.toOption] at lost

/-! ## What is written -/

/-- The file `writeWav` makes. -/
def writtenFile (samples : List Int16) (sampleRate : UInt32) (numChannels : UInt16)
    (small : 2 * samples.length + 36 < 4294967296) : PcmFile where
  riffSize := 36 + (samples.length * 2).toUInt32
  before := []
  numChannels := numChannels
  sampleRate := sampleRate
  byteRate := sampleRate * numChannels.toUInt32 * 2
  blockAlign := numChannels * 2
  extension := []
  fmtPad := 0
  after := []
  samples := samples
  fmtSmall := by decide
  dataSmall := by omega

theorem writtenFile_fmtChunk (samples : List Int16) (sampleRate : UInt32) (numChannels : UInt16)
    (small : 2 * samples.length + 36 < 4294967296) :
    (writtenFile samples sampleRate numChannels small).fmtChunk =
      ascii "fmt " ++ (bytesLE32 16 ++
        fmtFields numChannels sampleRate (sampleRate * numChannels.toUInt32 * 2)
          (numChannels * 2)) := by
  have body : (writtenFile samples sampleRate numChannels small).fmtBody =
      fmtFields numChannels sampleRate (sampleRate * numChannels.toUInt32 * 2) (numChannels * 2) :=
    List.append_nil _
  have length : (writtenFile samples sampleRate numChannels small).fmtBody.length = 16 := rfl
  rw [PcmFile.fmtChunk, padded, if_neg (by rw [length]; decide), length, body]
  rfl

theorem wavBytes_eq (samples : List Int16) (sampleRate : UInt32) (numChannels : UInt16)
    (small : 2 * samples.length + 36 < 4294967296) : wavBytes samples sampleRate numChannels 16 =
      (writtenFile samples sampleRate numChannels small).encode := by
  have size : (2 * samples.length).toUInt32.toNat = 2 * samples.length :=
    UInt32.toNat_ofNat_of_lt' (by show _ < 4294967296; omega)
  have all : (samples.flatMap sampleBytes).take (2 * samples.length) =
      samples.flatMap sampleBytes :=
    List.take_of_length_le (Nat.le_of_eq (sampleBytes_length samples))
  rw [PcmFile.encode, writtenFile_fmtChunk]
  simp only [wavBytes, size, all, writtenFile, List.flatMap_nil, List.nil_append,
    List.append_assoc, PcmFile.dataChunk, fmtFields, Nat.mul_comm samples.length 2]
  rfl

/-- **Round trip**: what `writeWav` writes, `readWav` reads. -/
theorem wav_round_trip (samples : List Int16) (sampleRate : UInt32) (numChannels : UInt16)
    (small : 2 * samples.length + 36 < 4294967296) (junk : Nat → UInt8) (header : WavHeader) :
    ∃ content reading, writeWav ⟨true, true⟩ samples sampleRate numChannels 16 = .ok content ∧
      readWav junk (some content) header = .ok reading ∧ reading.result = .ok samples ∧
      reading.header.sampleRate = sampleRate ∧ reading.header.numChannels = numChannels ∧
      reading.header.bitsPerSample = 16 ∧ reading.header.numSamples.toNat = samples.length := by
  have even : (writtenFile samples sampleRate numChannels small).EvenChunks :=
    ⟨by simp [writtenFile], rfl⟩
  obtain ⟨junk', done⟩ := readWav_encode _ even junk header
  obtain ⟨result, filled⟩ := @readData_whole junk'
    ((writtenFile samples sampleRate numChannels small).withFormat header) [] samples (by omega)
  refine ⟨_, _, rfl, by rw [wavBytes_eq _ _ _ small]; exact done, result, ?_⟩
  rw [filled]
  refine ⟨rfl, rfl, rfl, ?_⟩
  exact UInt32.toNat_ofNat_of_lt' (by show _ < 4294967296; omega)

theorem wav_round_trip_high_rate : ∃ content reading,
    writeWav ⟨true, true⟩ [1, -2, 300] 0xF0000001 0xFFFE 16 = .ok content ∧
    readWav (fun _ => 7) (some content) ⟨0, 0, 0, 0⟩ = .ok reading ∧
    reading.result = .ok [1, -2, 300] ∧ reading.header.sampleRate = 0xF0000001 ∧
    reading.header.numChannels = 0xFFFE ∧ reading.header.bitsPerSample = 16 ∧
    reading.header.numSamples.toNat = 3 :=
  wav_round_trip [1, -2, 300] 0xF0000001 0xFFFE (by decide) (fun _ => 7) ⟨0, 0, 0, 0⟩

end Zaza.WavFormat
