import Zaza.WavFormat

/-!
`readWav` on any file.

The reader ends on every file, and what it says goes back to the one chunk it
takes for the data (`ReachesData`): its size is used twice, halved for the vector
and whole for the read, and nobody asks how much was read. So an odd size makes the
stream store a byte behind the vector, and a chunk that is cut off leaves zeros in it.
-/
namespace Zaza.WavSafety
open Zaza WavFormat

variable {junk : Nat → UInt8} {header : WavHeader} {found : Bool} {fuel : Nat}
  {content rest behind : Bytes}

/-- Going from chunk to chunk by their sizes, after a `fmt ` chunk or not, one comes to a data
chunk, with this behind its four letters. -/
inductive ReachesData : (found : Bool) → Bytes → Bytes → Prop where
  | here (behind : Bytes) : ReachesData true (ascii "data" ++ behind) behind
  | fmt {found : Bool} {rest behind : Bytes} {numChannels blockAlign : UInt16}
      {sampleRate byteRate : UInt32} (size : UInt32)
      (later : ReachesData true (rest.drop (size.toNat - 16)) behind) :
      ReachesData found (ascii "fmt " ++ (bytesLE32 size ++
        (fmtFields numChannels sampleRate byteRate blockAlign ++ rest))) behind
  | foreign {found : Bool} {id rest behind : Bytes} (four : id.length = 4)
      (foreign : id ≠ ascii "fmt " ∧ id ≠ ascii "data") (size : UInt32)
      (later : ReachesData found (rest.drop size.toNat) behind) :
      ReachesData found (id ++ (bytesLE32 size ++ rest)) behind

/-- The data chunk a file comes to, if any, has an even size and is in the file as a whole. -/
def WholeData (content : Bytes) : Prop :=
  ∀ riffSize chunks behind, content = ascii "RIFF" ++ (riffSize ++ (ascii "WAVE" ++ chunks)) →
    riffSize.length = 4 → ReachesData false chunks behind →
      ∃ size rest, behind = bytesLE32 size ++ rest ∧ size.toNat % 2 = 0 ∧
        size.toNat ≤ rest.length

/-- The samples are what the read has stored, which stands in a data chunk of the file. -/
def FromData (content : Bytes) (store : SampleStore) (samples : List Int16) : Prop :=
  2 * samples.length ≤ store.stored.length ∧
    samples = samplesOf (store.stored.take (2 * samples.length)) ∧
    ∃ front size tail, content = front ++ (ascii "data" ++ (size ++ (store.stored ++ tail))) ∧
      size.length = 4

/-- What a call should come to. -/
structure Proper (content : Bytes) (reading : WavReading) : Prop where
  /-- The stream is asked for no more than the vector holds. -/
  inside : ∀ store, reading.store = some store → store.asked ≤ 2 * store.size
  /-- Every sample that is returned was read. -/
  read : ∀ samples, reading.result = .ok samples → ∃ store, reading.store = some store ∧
    store.size = samples.length ∧ FromData content store samples

/-- Whatever the memory holds, the call ends as it should. -/
def ReadsSafely (content : Bytes) : Prop :=
  ∀ junk header, ∃ reading, readWav junk (some content) header = .ok reading ∧
    Proper content reading

/-! ## A stream that comes short -/

/-- The stream has not failed, and will not within this many bytes. -/
def Serves (s : IfStream) (n : Nat) : Prop := s.failed = false ∧ n ≤ s.rest.length

theorem readArray_serves (s : IfStream) (n m : Nat) :
    Serves (s.readArray n).2 m ↔ Serves s (m + n) := by
  unfold Serves IfStream.readArray IfStream.read
  cases failed : s.failed with
  | true => simp [failed]
  | false =>
    simp only [Bool.false_eq_true, ↓reduceIte, decide_eq_false_iff_not, List.length_drop, true_and]
    omega

theorem readU16LE_serves (s : IfStream) (n : Nat) :
    Serves s.readU16LE.2 n ↔ Serves s (n + 2) := readArray_serves s 2 n

theorem readU32LE_serves (s : IfStream) (n : Nat) :
    Serves s.readU32LE.2 n ↔ Serves s (n + 4) := readArray_serves s 4 n

theorem serves_zero (s : IfStream) : ¬ Serves s 0 ↔ s.failed = true := by
  simp [Serves]

theorem chunkLoop_failed {s : IfStream} (failed : s.failed = true) :
    chunkLoop (fuel + 1) s header found = .ok { result := .error .noData, header } := by
  rw [chunkLoop, if_pos failed]

/-- A `fmt ` chunk that is cut off is turned down, or leaves a stream that has failed. -/
theorem readFmt_short {s : IfStream} (short : ¬ Serves s 16) (header : WavHeader)
    (size : UInt32) : (∃ e header', readFmt s header size = (.error e, header')) ∨
      ∃ s' header', readFmt s header size = (.ok s', header') ∧ s'.failed = true := by
  have last : (s.readU16LE.2.readU16LE.2.readU32LE.2.readU32LE.2.readU16LE.2.readU16LE.2).failed =
      true := by
    rw [← serves_zero, readU16LE_serves, readU16LE_serves, readU32LE_serves, readU32LE_serves,
      readU16LE_serves, readU16LE_serves]
    exact short
  unfold readFmt
  simp only
  split
  · exact .inl ⟨_, _, rfl⟩
  · split
    · exact .inl ⟨_, _, rfl⟩
    · refine .inr ⟨_, _, rfl, ?_⟩
      split
      · rw [IfStream.seekg, if_pos last]
        exact last
      · exact last

/-! ## The walk -/

/-- Two bytes are a word. -/
theorem exists_word16 (rest : Bytes) (long : 2 ≤ rest.length) :
    ∃ v tail, rest = bytesLE16 v ++ tail := by
  match rest, long with
  | b0 :: b1 :: tail, _ =>
    refine ⟨be16 b1 b0, tail, ?_⟩
    rw [bytesLE16_eq, bytes16_be16]
    rfl

/-- Four bytes are a word. -/
theorem exists_word32 (rest : Bytes) (long : 4 ≤ rest.length) :
    ∃ v tail, rest = bytesLE32 v ++ tail := by
  match rest, long with
  | b0 :: b1 :: b2 :: b3 :: tail, _ =>
    refine ⟨be32 b3 b2 b1 b0, tail, ?_⟩
    rw [bytesLE32_eq, bytes32_be32]
    rfl

/-- A `fmt ` chunk is turned down, is cut off, or is the one of sixteen-bit PCM. -/
theorem readFmt_cases (rest : Bytes) (junk : Nat → UInt8) (header : WavHeader) (size : UInt32) :
    (∃ e header', readFmt ⟨rest, false, junk⟩ header size = (.error e, header')) ∨
    (∃ s' header', readFmt ⟨rest, false, junk⟩ header size = (.ok s', header') ∧
      s'.failed = true) ∨
    ∃ numChannels sampleRate byteRate blockAlign tail,
      rest = fmtFields numChannels sampleRate byteRate blockAlign ++ tail := by
  by_cases long : 16 ≤ rest.length
  · obtain ⟨format, rest, rfl⟩ := exists_word16 rest (by omega)
    simp only [List.length_append, bytesLE16_length] at long
    obtain ⟨numChannels, rest, rfl⟩ := exists_word16 rest (by omega)
    simp only [List.length_append, bytesLE16_length] at long
    obtain ⟨sampleRate, rest, rfl⟩ := exists_word32 rest (by omega)
    simp only [List.length_append, bytesLE32_length] at long
    obtain ⟨byteRate, rest, rfl⟩ := exists_word32 rest (by omega)
    simp only [List.length_append, bytesLE32_length] at long
    obtain ⟨blockAlign, rest, rfl⟩ := exists_word16 rest (by omega)
    simp only [List.length_append, bytesLE16_length] at long
    obtain ⟨bits, tail, rfl⟩ := exists_word16 rest (by omega)
    simp only [readFmt, readU16LE_bytes, readU32LE_bytes]
    by_cases pcm : format = 1
    · by_cases wide : bits = 16
      · refine .inr (.inr ⟨numChannels, sampleRate, byteRate, blockAlign, tail, ?_⟩)
        simp [fmtFields, pcm, wide]
      · exact .inl ⟨.only16Bit, _, by rw [if_neg (by simpa using pcm), if_pos wide]⟩
    · exact .inl ⟨.onlyPcm, _, by rw [if_pos pcm]⟩
  · have short : ¬ Serves ⟨rest, false, junk⟩ 16 := fun serves => long serves.2
    rcases readFmt_short short header size with rejected | cut
    · exact .inl rejected
    · exact .inr (.inl cut)

/-- A chunk whose size is cut off is the end, if it is not the data. -/
theorem chunkLoop_cut {id : Bytes} (four : id.length = 4) (other : id ≠ ascii "data")
    (short : rest.length < 4) : ∃ e header', chunkLoop (fuel + 2) ⟨id ++ rest, false, junk⟩ header
      found = .ok { result := .error e, header := header' } := by
  have cut : ¬ Serves (IfStream.readU32LE ⟨rest, false, fun i => junk (i + 4)⟩).2 0 := by
    rw [readU32LE_serves]
    exact fun serves => absurd serves.2 (by show ¬ 0 + 4 ≤ rest.length; omega)
  have failed := (serves_zero _).mp cut
  rw [chunkLoop]
  simp only [Bool.false_eq_true, ↓reduceIte, readArray_append four, other]
  by_cases fmt : id = ascii "fmt "
  · rw [if_pos fmt]
    have short : ¬ Serves (IfStream.readU32LE ⟨rest, false, fun i => junk (i + 4)⟩).2 16 :=
      fun serves => cut ⟨serves.1, Nat.zero_le _⟩
    rcases readFmt_short short header (IfStream.readU32LE ⟨rest, false, fun i => junk (i + 4)⟩).1
      with ⟨e, header', rejected⟩ | ⟨s', header', accepted, failed⟩
    · rw [rejected]
      exact ⟨e, header', rfl⟩
    · rw [accepted]
      exact ⟨.noData, header', chunkLoop_failed failed⟩
  · rw [if_neg fmt, IfStream.seekg, if_pos failed]
    exact ⟨.noData, header, chunkLoop_failed failed⟩

/-- The reader throws, or comes to the data and reads its size. -/
def Ends (found : Bool) (rest : Bytes) (result : Except Trap WavReading) : Prop :=
  (∃ e header', result = .ok { result := .error e, header := header' }) ∨
    ∃ behind junk' header', ReachesData found rest behind ∧
      result = .ok (readData (IfStream.readU32LE ⟨behind, false, junk'⟩).2 header'
        (IfStream.readU32LE ⟨behind, false, junk'⟩).1)

theorem Ends.of_reaches {found' : Bool} {later : Bytes} {result : Except Trap WavReading}
    (step : ∀ behind, ReachesData found' later behind → ReachesData found rest behind)
    (ends : Ends found' later result) : Ends found rest result := by
  rcases ends with thrown | ⟨behind, junk', header', reaches, done⟩
  · exact .inl thrown
  · exact .inr ⟨behind, junk', header', step behind reaches, done⟩

theorem chunkLoop_ends (enough : rest.length < fuel) :
    Ends found rest (chunkLoop fuel ⟨rest, false, junk⟩ header found) := by
  induction fuel generalizing rest junk header found with
  | zero => omega
  | succ fuel ih =>
    by_cases long : 4 ≤ rest.length
    · obtain ⟨id, tail, rfl, four⟩ : ∃ id tail, rest = id ++ tail ∧ id.length = 4 :=
        ⟨rest.take 4, rest.drop 4, (List.take_append_drop 4 rest).symm, by simp; omega⟩
      rw [List.length_append, four] at enough
      by_cases isData : id = ascii "data"
      · subst isData
        cases found with
        | true => exact .inr ⟨tail, _, header, .here tail, chunkLoop_data⟩
        | false =>
          refine .inl ⟨.dataBeforeFmt, header, ?_⟩
          simp only [chunkLoop, Bool.false_eq_true, ↓reduceIte, readArray_append four,
            show ascii "data" ≠ ascii "fmt " by decide, Bool.not_false]
      by_cases sized : 4 ≤ tail.length
      · obtain ⟨size, tail, rfl⟩ := exists_word32 tail sized
        rw [List.length_append, bytesLE32_length] at enough
        by_cases isFmt : id = ascii "fmt "
        · subst isFmt
          rcases readFmt_cases tail (fun i => junk (i + 4 + 4)) header size with
            ⟨e, header', rejected⟩ | ⟨s', header', accepted, failed⟩ | ⟨_, _, _, _, tail, rfl⟩
          · refine .inl ⟨e, header', ?_⟩
            simp only [chunkLoop, Bool.false_eq_true, ↓reduceIte, readArray_append four,
              readU32LE_bytes, rejected]
          · obtain ⟨fuel, rfl⟩ : ∃ n, fuel = n + 1 := ⟨fuel - 1, by omega⟩
            refine .inl ⟨.noData, header', ?_⟩
            rw [chunkLoop]
            simp only [Bool.false_eq_true, ↓reduceIte, readArray_append four, readU32LE_bytes,
              accepted]
            exact chunkLoop_failed failed
          · rw [chunkLoop_fmt]
            refine (ih ?_).of_reaches fun behind => .fmt size
            rw [List.length_append] at enough
            rw [List.length_drop]
            omega
        · rw [chunkLoop_foreign four ⟨isFmt, isData⟩]
          refine (ih ?_).of_reaches fun behind => .foreign four ⟨isFmt, isData⟩ size
          rw [List.length_drop]
          omega
      · obtain ⟨fuel, rfl⟩ : ∃ n, fuel = n + 1 := ⟨fuel - 1, by omega⟩
        exact .inl (chunkLoop_cut four isData (by omega))
    · have short : (IfStream.readArray ⟨rest, false, junk⟩ 4).2.failed = true := by
        rw [← serves_zero, readArray_serves]
        exact fun serves => long serves.2
      refine .inl ⟨.noData, header, ?_⟩
      simp only [chunkLoop, Bool.false_eq_true, ↓reduceIte, short]

/-- It does come to the data that is there to come to. -/
theorem chunkLoop_reaches (reaches : ReachesData found rest behind) (enough : rest.length < fuel)
    (junk : Nat → UInt8) (header : WavHeader) : ∃ k header',
      chunkLoop fuel ⟨rest, false, junk⟩ header found =
        .ok (readData (IfStream.readU32LE ⟨behind, false, fun i => junk (i + k)⟩).2 header'
          (IfStream.readU32LE ⟨behind, false, fun i => junk (i + k)⟩).1) := by
  induction reaches generalizing fuel junk header with
  | here behind =>
    obtain ⟨fuel, rfl⟩ : ∃ n, fuel = n + 1 := ⟨fuel - 1, by omega⟩
    exact ⟨4, header, chunkLoop_data⟩
  | @fmt found rest _ _ _ _ _ size later ih =>
    obtain ⟨fuel, rfl⟩ : ∃ n, fuel = n + 1 := ⟨fuel - 1, by omega⟩
    simp only [List.length_append, bytesLE32_length] at enough
    have shorter : (rest.drop (size.toNat - 16)).length < fuel := by
      rw [List.length_drop]
      omega
    rw [chunkLoop_fmt]
    obtain ⟨k, header', done⟩ := ih shorter (fun i => junk (i + 24)) _
    exact ⟨k + 24, header', done⟩
  | @foreign found id rest _ four foreign size later ih =>
    obtain ⟨fuel, rfl⟩ : ∃ n, fuel = n + 1 := ⟨fuel - 1, by omega⟩
    simp only [List.length_append, bytesLE32_length] at enough
    have shorter : (rest.drop size.toNat).length < fuel := by
      rw [List.length_drop]
      omega
    rw [chunkLoop_foreign four foreign]
    obtain ⟨k, header', done⟩ := ih shorter (fun i => junk (i + 4 + 4)) _
    exact ⟨k + 4 + 4, header', done⟩

/-- What one comes to stands behind the letters of a data chunk. -/
theorem ReachesData.split (reaches : ReachesData found rest behind) :
    ∃ front, rest = front ++ (ascii "data" ++ behind) := by
  induction reaches with
  | here behind => exact ⟨[], rfl⟩
  | @fmt found rest behind numChannels blockAlign sampleRate byteRate size later ih =>
    obtain ⟨front, split⟩ := ih
    refine ⟨ascii "fmt " ++ (bytesLE32 size ++ (fmtFields numChannels sampleRate byteRate
      blockAlign ++ (rest.take (size.toNat - 16) ++ front))), ?_⟩
    simp only [List.append_assoc]
    rw [← split, List.take_append_drop]
  | @foreign found id rest behind four foreign size later ih =>
    obtain ⟨front, split⟩ := ih
    refine ⟨id ++ (bytesLE32 size ++ (rest.take size.toNat ++ front)), ?_⟩
    simp only [List.append_assoc]
    rw [← split, List.take_append_drop]

/-! ## The start of a file -/

/-- After the twelve bytes of its start, a file is chunks. -/
theorem readWav_start {riffSize chunks : Bytes} (four : riffSize.length = 4) (junk : Nat → UInt8)
    (header : WavHeader) :
    readWav junk (some (ascii "RIFF" ++ (riffSize ++ (ascii "WAVE" ++ chunks)))) header =
      chunkLoop ((ascii "RIFF" ++ (riffSize ++ (ascii "WAVE" ++ chunks))).length + 1)
        ⟨chunks, false, fun i => junk (i + 4 + 4 + 4)⟩ header false := by
  obtain ⟨v, tail, rfl⟩ := exists_word32 riffSize (by omega)
  obtain rfl : tail = [] := by simpa using four
  simp only [readWav, List.append_nil, readArray_append (show (ascii "RIFF").length = 4 from rfl),
    readU32LE_bytes, readArray_append (show (ascii "WAVE").length = 4 from rfl), ne_eq,
    not_true_eq_false, ↓reduceIte]

/-- Any other file is turned down. -/
theorem readWav_other (junk : Nat → UInt8) (header : WavHeader)
    (other : ∀ riffSize chunks, riffSize.length = 4 →
      content ≠ ascii "RIFF" ++ (riffSize ++ (ascii "WAVE" ++ chunks))) :
    ∃ e, readWav junk (some content) header = .ok { result := .error e, header } := by
  by_cases long : 12 ≤ content.length
  · obtain ⟨riff, size, wave, chunks, rfl, riffFour, four, waveFour⟩ : ∃ riff size wave chunks,
        content = riff ++ (size ++ (wave ++ chunks)) ∧ riff.length = 4 ∧ size.length = 4 ∧
          wave.length = 4 := by
      refine ⟨content.take 4, (content.drop 4).take 4, (content.drop 8).take 4, content.drop 12,
        ?_, by simp; omega, by simp; omega, by simp; omega⟩
      rw [show content.drop 12 = (content.drop 8).drop 4 by rw [List.drop_drop],
        List.take_append_drop, show content.drop 8 = (content.drop 4).drop 4 by rw [List.drop_drop],
        List.take_append_drop, List.take_append_drop]
    obtain ⟨v, tail, rfl⟩ := exists_word32 size (by omega)
    obtain rfl : tail = [] := by simpa using four
    simp only [readWav, List.append_nil, readArray_append riffFour, readU32LE_bytes,
      readArray_append waveFour]
    by_cases isRiff : riff = ascii "RIFF"
    · have notWave : wave ≠ ascii "WAVE" := by
        rintro rfl
        exact other _ chunks four (by rw [isRiff])
      rw [if_neg (by simpa using isRiff), if_pos notWave]
      exact ⟨_, rfl⟩
    · rw [if_pos isRiff]
      exact ⟨_, rfl⟩
  · -- A file that is too short may look right, by what the memory holds, and has failed then.
    have failed : ((IfStream.readArray ⟨content, false, junk⟩ 4).2.readU32LE.2.readArray
        4).2.failed = true := by
      rw [← serves_zero, readArray_serves, readU32LE_serves, readArray_serves]
      exact fun serves => long serves.2
    simp only [readWav]
    split
    · exact ⟨_, rfl⟩
    · split
      · exact ⟨_, rfl⟩
      · exact ⟨.noData, chunkLoop_failed failed⟩

/-! ## The data -/

theorem samplesOf_length (memory : Bytes) : (samplesOf memory).length = memory.length / 2 := by
  fun_induction samplesOf memory with
  | case1 lo hi rest ih =>
    simp only [List.length_cons, ih]
    omega
  | case2 memory short =>
    rcases memory with _ | ⟨lo, _ | ⟨hi, rest⟩⟩
    · rfl
    · simp
    · exact absurd rfl (short lo hi rest)

/-- What goes wrong with a data chunk. -/
theorem proper_readData {s : IfStream} {size : UInt32}
    (proper : Proper content (readData s header size)) :
    size.toNat % 2 = 0 ∧ size.toNat ≤ (s.read size.toNat).1.length := by
  have half : (size / 2).toNat = size.toNat / 2 := UInt32.toNat_div size 2
  have even : size.toNat ≤ 2 * (size / 2).toNat := proper.inside _ rfl
  obtain ⟨store, isStore, isSize, enough, _⟩ := proper.read _ rfl
  obtain rfl := Option.some.inj isStore
  rw [← isSize] at enough
  have enough : 2 * (size / 2).toNat ≤ (s.read size.toNat).1.length := enough
  rw [half] at even enough
  omega

/-- A data chunk that is whole. -/
theorem readData_proper {front tail : Bytes} {size : UInt32} (even : size.toNat % 2 = 0)
    (inside : size.toNat ≤ tail.length)
    (split : content = front ++ (ascii "data" ++ (bytesLE32 size ++ tail))) :
    Proper content (readData ⟨tail, false, junk⟩ header size) := by
  have half : (size / 2).toNat = size.toNat / 2 := UInt32.toNat_div size 2
  have twice : 2 * (size.toNat / 2) = size.toNat := by omega
  have stored : IfStream.read ⟨tail, false, junk⟩ size.toNat =
      (tail.take size.toNat, ⟨tail.drop size.toNat, false, junk⟩) := by
    simp [IfStream.read, inside]
  have length : (tail.take size.toNat).length = size.toNat := List.length_take_of_le inside
  simp only [readData, stored, half, twice, length, Nat.sub_self, List.replicate_zero,
    List.append_nil, List.take_of_length_le (Nat.le_of_eq length)]
  constructor
  · rintro store isStore
    obtain rfl := Option.some.inj isStore
    exact Nat.le_of_eq twice.symm
  · rintro samples isResult
    obtain rfl := Except.ok.inj isResult
    have count : (samplesOf (tail.take size.toNat)).length = size.toNat / 2 := by
      rw [samplesOf_length, length]
    refine ⟨_, rfl, count.symm, ?_, ?_, front, bytesLE32 size, tail.drop size.toNat, ?_, rfl⟩
    · rw [count, twice]
      exact Nat.le_of_eq length.symm
    · rw [count, twice, List.take_of_length_le (Nat.le_of_eq length)]
    · rw [split, List.take_append_drop]

/-- A size that is cut off is completed by what the memory holds. -/
theorem readU32LE_junk (short : behind.length < 4) :
    2 ≤ (IfStream.readU32LE ⟨behind, false, fun _ => 1⟩).1.toNat := by
  have last : byteAt (IfStream.readArray ⟨behind, false, fun _ => 1⟩ 4).1 3 = 1 := by
    match behind, short with
    | [], _ => rfl
    | [_], _ => rfl
    | [_, _], _ => rfl
    | [_, _, _], _ => rfl
  simp only [IfStream.readU32LE, last]
  rw [le32_eq, toNat_be32, UInt8.toNat_one]
  omega

/-- Every call throws, or comes to the data. -/
theorem readWav_ends (content : Bytes) (junk : Nat → UInt8) (header : WavHeader) :
    (∃ e header', readWav junk (some content) header =
      .ok { result := .error e, header := header' }) ∨
    ∃ riffSize chunks behind junk' header',
      content = ascii "RIFF" ++ (riffSize ++ (ascii "WAVE" ++ chunks)) ∧ riffSize.length = 4 ∧
      ReachesData false chunks behind ∧ readWav junk (some content) header =
        .ok (readData (IfStream.readU32LE ⟨behind, false, junk'⟩).2 header'
          (IfStream.readU32LE ⟨behind, false, junk'⟩).1) := by
  by_cases wave : ∃ riffSize chunks, riffSize.length = 4 ∧
      content = ascii "RIFF" ++ (riffSize ++ (ascii "WAVE" ++ chunks))
  · obtain ⟨riffSize, chunks, four, rfl⟩ := wave
    rw [readWav_start four]
    have enough : chunks.length <
        (ascii "RIFF" ++ (riffSize ++ (ascii "WAVE" ++ chunks))).length + 1 := by
      simp only [List.length_append]
      omega
    rcases chunkLoop_ends enough with thrown | ⟨behind, junk', header', reaches, done⟩
    · exact .inl thrown
    · exact .inr ⟨riffSize, chunks, behind, junk', header', rfl, four, reaches, done⟩
  · obtain ⟨e, thrown⟩ := readWav_other junk header fun riffSize chunks four same =>
      wave ⟨riffSize, chunks, four, same⟩
    exact .inl ⟨e, header, thrown⟩

/-- A file that is read safely has its data as a whole: otherwise some memory makes it show. -/
theorem ReadsSafely.whole (safe : ReadsSafely content) : WholeData content := by
  rintro riffSize chunks behind rfl four reaches
  obtain ⟨reading, done, proper⟩ := safe (fun _ => 1) ⟨0, 0, 0, 0⟩
  rw [readWav_start four] at done
  have enough : chunks.length <
      (ascii "RIFF" ++ (riffSize ++ (ascii "WAVE" ++ chunks))).length + 1 := by
    simp only [List.length_append]
    omega
  obtain ⟨k, header', done'⟩ := chunkLoop_reaches reaches enough (fun _ => 1) ⟨0, 0, 0, 0⟩
  obtain rfl := Except.ok.inj (done'.symm.trans done)
  obtain ⟨even, inside⟩ := proper_readData proper
  by_cases sized : 4 ≤ behind.length
  · obtain ⟨size, rest, rfl⟩ := exists_word32 behind sized
    rw [readU32LE_bytes] at even inside
    refine ⟨size, rest, rfl, even, Nat.le_trans inside ?_⟩
    simp only [IfStream.read, Bool.false_eq_true, ↓reduceIte]
    exact List.length_take_le' _ _
  · -- The stream has failed, so nothing is stored, and the size is not zero.
    have failed : (IfStream.readU32LE ⟨behind, false, fun _ => 1⟩).2.failed = true := by
      rw [← serves_zero, readU32LE_serves]
      exact fun serves => sized serves.2
    have junk := @readU32LE_junk behind (by omega)
    rw [IfStream.read, if_pos failed] at inside
    exact absurd (Nat.le_trans junk inside) (by simp)

theorem WholeData.readsSafely (whole : WholeData content) : ReadsSafely content := by
  intro junk header
  rcases readWav_ends content junk header with
    ⟨e, header', thrown⟩ | ⟨riffSize, chunks, behind, junk', header', rfl, four, reaches, done⟩
  · exact ⟨_, thrown, fun store none => by simp at none, fun samples ok => by simp at ok⟩
  · obtain ⟨size, tail, rfl, even, inside⟩ := whole riffSize chunks behind rfl four reaches
    obtain ⟨front, split⟩ := reaches.split
    rw [readU32LE_bytes] at done
    have whole : ascii "RIFF" ++ (riffSize ++ (ascii "WAVE" ++ chunks)) =
        (ascii "RIFF" ++ (riffSize ++ (ascii "WAVE" ++ front))) ++
          (ascii "data" ++ (bytesLE32 size ++ tail)) := by
      simp only [split, List.append_assoc]
    exact ⟨_, done, readData_proper even inside whole⟩

/-- **Every file**: the reader ends, and it stays inside the vector and returns only what it
has read, exactly if the data chunk it comes to has an even size and is whole. -/
theorem readWav_safe_iff (content : Bytes) :
    (∀ junk header, ∃ reading, readWav junk (some content) header = .ok reading) ∧
      (ReadsSafely content ↔ WholeData content) := by
  refine ⟨fun junk header => ?_, ReadsSafely.whole, WholeData.readsSafely⟩
  rcases readWav_ends content junk header with ⟨e, header', thrown⟩ | ⟨_, _, _, _, _, _, _, _, done⟩
  · exact ⟨_, thrown⟩
  · exact ⟨_, done⟩

/-- A recording, with the size its data chunk declares and what is there of it. -/
def recording (declared : UInt32) (data : Bytes) : Bytes :=
  ascii "RIFF" ++ (bytesLE32 (36 + declared) ++ (ascii "WAVE" ++ (ascii "fmt " ++ (bytesLE32 16 ++
    (fmtFields 1 48000 96000 2 ++ (ascii "data" ++ (bytesLE32 declared ++ data)))))))

/-- Three bytes of data are stored in a vector of one sample, and of four bytes that are cut off
after the second, the other two are zeros. -/
theorem odd_and_cut_data_misread :
    ¬ ReadsSafely (recording 3 [1, 2, 3]) ∧ ¬ ReadsSafely (recording 4 [1, 2]) := by
  constructor
  · intro safe
    obtain ⟨reading, done, proper⟩ := safe (fun _ => 0) ⟨0, 0, 0, 0⟩
    have misread : (readWav (fun _ => 0) (some (recording 3 [1, 2, 3])) ⟨0, 0, 0, 0⟩).toOption.any
        (fun reading => reading.store.any fun store => 2 * store.size < store.asked) = true := by
      decide +kernel
    simp only [done, Except.toOption, Option.any_some, Option.any_eq_true, decide_eq_true_eq]
      at misread
    obtain ⟨store, isStore, misread⟩ := misread
    exact absurd (proper.inside store isStore) (by omega)
  · intro safe
    obtain ⟨reading, done, proper⟩ := safe (fun _ => 0) ⟨0, 0, 0, 0⟩
    have short : (readWav (fun _ => 0) (some (recording 4 [1, 2])) ⟨0, 0, 0, 0⟩).toOption.any
        (fun reading => reading.result.toOption.isSome &&
          reading.store.all fun store => store.stored.length < 2 * store.size) = true := by
      decide +kernel
    simp only [done, Except.toOption, Option.any_some, Bool.and_eq_true, Option.all_eq_true,
      decide_eq_true_eq] at short
    obtain ⟨returned, short⟩ := short
    cases result : reading.result with
    | error e => simp [result] at returned
    | ok samples =>
      obtain ⟨store, isStore, isSize, enough, _⟩ := proper.read samples result
      have fewer := short store isStore
      omega

end Zaza.WavSafety
