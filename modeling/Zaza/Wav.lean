import Zaza.Bytes
import Zaza.Checked

/-!
`audio/wav.cpp`: the files that recordings are written to, and that are read to
be sent.

A `std::ifstream` is what is left of its file and whether it has failed: a read
that comes short sets `eofbit` and `failbit` together, after which no read and no
`seekg` does anything, and `seekg` may leave the file's end behind without failing.
An array that is not filled by a read keeps what the memory held, which is up to
`junk`. Samples are in the byte order of the host, which is little-endian.
-/
namespace Zaza

/-! ## Words -/

/-- A byte promoted to `int`. -/
def promote (b : UInt8) : Int32 := b.toUInt32.toInt32

/-- `b0 | (b1 << 8)`, as a `uint16_t`. -/
def le16 (b0 b1 : UInt8) : UInt16 := (promote b0 ||| promote b1 <<< 8).toUInt32.toUInt16

/-- `b0 | (b1 << 8) | (b2 << 16) | (b3 << 24)`, as a `uint32_t`. -/
def le32 (b0 b1 b2 b3 : UInt8) : UInt32 :=
  (promote b0 ||| promote b1 <<< 8 ||| promote b2 <<< 16 ||| promote b3 <<< 24).toUInt32

/-- What `writeU16LE` writes. -/
def bytesLE16 (val : UInt16) : Bytes := [val.toUInt8, (val >>> 8).toUInt8]

/-- What `writeU32LE` writes. -/
def bytesLE32 (val : UInt32) : Bytes :=
  [val.toUInt8, (val >>> 8).toUInt8, (val >>> 16).toUInt8, (val >>> 24).toUInt8]

/-- A sample in memory. -/
def sampleBytes (sample : Int16) : Bytes := bytesLE16 sample.toUInt16

/-- The samples that some memory holds. -/
def samplesOf : Bytes → List Int16
  | lo :: hi :: rest => (le16 lo hi).toInt16 :: samplesOf rest
  | _ => []

/-! ## `std::ifstream` -/

structure IfStream where
  /-- What is left from the read position on. -/
  rest : Bytes
  failed : Bool := false
  /-- What the memory of the next arrays holds before they are filled. -/
  junk : Nat → UInt8

namespace IfStream

/-- `in.read(p, n)`: what it stores at `p`. -/
def read (s : IfStream) (n : Nat) : Bytes × IfStream :=
  if s.failed then ([], s)
  else (s.rest.take n, { s with rest := s.rest.drop n, failed := s.rest.length < n })

/-- The same for a local array of `n` bytes: what it holds then. -/
def readArray (s : IfStream) (n : Nat) : Bytes × IfStream :=
  ((s.read n).1 ++ (List.range (n - (s.read n).1.length)).map s.junk,
    { (s.read n).2 with junk := fun i => s.junk (i + n) })

/-- `in.seekg(offset, std::ios::cur)`. -/
def seekg (s : IfStream) (offset : Nat) : IfStream :=
  if s.failed then s else { s with rest := s.rest.drop offset }

def readU16LE (s : IfStream) : UInt16 × IfStream :=
  let (buf, s) := s.readArray 2
  (le16 (byteAt buf 0) (byteAt buf 1), s)

def readU32LE (s : IfStream) : UInt32 × IfStream :=
  let (buf, s) := s.readArray 4
  (le32 (byteAt buf 0) (byteAt buf 1) (byteAt buf 2) (byteAt buf 3), s)

end IfStream

/-! ## `wav.cpp` -/

structure WavHeader where
  sampleRate : UInt32
  numChannels : UInt16
  bitsPerSample : UInt16
  numSamples : UInt32
  deriving DecidableEq

inductive WavError where
  | cannotOpenForWriting
  | writeFailed
  | cannotOpen
  | notRiff
  | notWave
  | onlyPcm
  | only16Bit
  | dataBeforeFmt
  | noData
  deriving DecidableEq

/-- `what()`. -/
def WavError.what (filename : Bytes) : WavError → Bytes
  | cannotOpenForWriting => ascii "cannot open for writing: " ++ filename
  | writeFailed => ascii "write failed: " ++ filename
  | cannotOpen => ascii "cannot open: " ++ filename
  | notRiff => ascii "not a RIFF file: " ++ filename
  | notWave => ascii "not a WAVE file: " ++ filename
  | onlyPcm => ascii "only PCM WAV supported: " ++ filename
  | only16Bit => ascii "only 16-bit WAV supported: " ++ filename
  | dataBeforeFmt => ascii "data chunk before fmt: " ++ filename
  | noData => ascii "no data chunk: " ++ filename

/-- What the file system does with a file that is written. -/
structure OutFile where
  opens : Bool
  writes : Bool

/-- What `writeWav` writes. All sizes and rates wrap. -/
def wavBytes (samples : List Int16) (sampleRate : UInt32) (numChannels bits : UInt16) : Bytes :=
  let dataSize := (samples.length * 2).toUInt32
  let byteRate := sampleRate * numChannels.toUInt32 * (bits / 8).toUInt32
  let blockAlign := numChannels * (bits / 8)
  ascii "RIFF" ++ bytesLE32 (36 + dataSize) ++ ascii "WAVE" ++
    (ascii "fmt " ++ bytesLE32 16 ++ bytesLE16 1 ++ bytesLE16 numChannels ++
      bytesLE32 sampleRate ++ bytesLE32 byteRate ++ bytesLE16 blockAlign ++ bytesLE16 bits) ++
    (ascii "data" ++ bytesLE32 dataSize ++ (samples.flatMap sampleBytes).take dataSize.toNat)

/-- The content of the file afterwards. -/
def writeWav (file : OutFile) (samples : List Int16) (sampleRate : UInt32)
    (numChannels bits : UInt16) : Except WavError Bytes :=
  if !file.opens then .error .cannotOpenForWriting
  else if !file.writes then .error .writeFailed
  else .ok (wavBytes samples sampleRate numChannels bits)

/-- The one read into `samples`. -/
structure SampleStore where
  /-- How many bytes the stream is asked for. -/
  asked : Nat
  /-- `samples.size()`. -/
  size : Nat
  /-- What it has stored. -/
  stored : Bytes
  deriving DecidableEq

/-- What a call of `readWav` comes to. -/
structure WavReading where
  result : Except WavError (List Int16)
  /-- The output parameter, which is filled step by step. -/
  header : WavHeader
  store : Option SampleStore := none

/-- A `fmt ` chunk, after its size. -/
def readFmt (s : IfStream) (header : WavHeader) (chunkSize : UInt32) :
    Except WavError IfStream × WavHeader :=
  let (format, s) := s.readU16LE
  if format ≠ 1 then (.error .onlyPcm, header)
  else
    let (numChannels, s) := s.readU16LE
    let (sampleRate, s) := s.readU32LE
    let (_, s) := s.readU32LE
    let (_, s) := s.readU16LE
    let (bitsPerSample, s) := s.readU16LE
    let header := { header with numChannels, sampleRate, bitsPerSample }
    if bitsPerSample ≠ 16 then (.error .only16Bit, header)
    else (.ok (if chunkSize > 16 then s.seekg (chunkSize - 16).toNat else s), header)

/-- A `data` chunk, after its size. The samples are zeros where nothing is stored. What a byte
stored behind them overwrites is not modelled. -/
def readData (s : IfStream) (header : WavHeader) (chunkSize : UInt32) : WavReading :=
  let size := (chunkSize / 2).toNat
  let (stored, _) := s.read chunkSize.toNat
  let memory := (stored ++ List.replicate (2 * size - stored.length) 0).take (2 * size)
  { result := .ok (samplesOf memory)
    header := { header with numSamples := size.toUInt32 }
    store := some ⟨chunkSize.toNat, size, stored⟩ }

/-- The loop of `readWav`. -/
def chunkLoop : (fuel : Nat) → IfStream → WavHeader → (foundFmt : Bool) → Except Trap WavReading
  | 0, _, _, _ => .error .endless
  | fuel + 1, s, header, foundFmt =>
    if s.failed then .ok { result := .error .noData, header }
    else
      let (id, s) := s.readArray 4
      if s.failed then .ok { result := .error .noData, header }
      else
        let (chunkSize, s) := s.readU32LE
        if id = ascii "fmt " then
          match readFmt s header chunkSize with
          | (.error e, header) => .ok { result := .error e, header }
          | (.ok s, header) => chunkLoop fuel s header true
        else if id = ascii "data" then
          if !foundFmt then .ok { result := .error .dataBeforeFmt, header }
          else .ok (readData s header chunkSize)
        else chunkLoop fuel (s.seekg chunkSize.toNat) header foundFmt

/-- `readWav` of a file, if it can be opened, with the iterations of its loop limited to one more
than the file has bytes. -/
def readWav (junk : Nat → UInt8) (file : Option Bytes) (header : WavHeader) :
    Except Trap WavReading :=
  match file with
  | none => .ok { result := .error .cannotOpen, header }
  | some content =>
    let (riff, s) := IfStream.readArray { rest := content, junk } 4
    if riff ≠ ascii "RIFF" then .ok { result := .error .notRiff, header }
    else
      let (_, s) := s.readU32LE
      let (wave, s) := s.readArray 4
      if wave ≠ ascii "WAVE" then .ok { result := .error .notWave, header }
      else chunkLoop (content.length + 1) s header false

end Zaza
