import Zaza.Checked
import Zaza.Dispatcher

/-!
The functions that look at the bytes of a packet, with every access checked: the
demultiplexing of `TurnDispatcher::onPacket`, `message/parser.cpp`, and the two
verifications of `auth/long_term_cred.cpp`.

`Stun`, `Credentials` and `Dispatcher` have them as what they compute, and read zeros where
there is no byte. Here a read past the `size` of the packet is a trap, and so is a write past
the end of a buffer that a function has allocated, or a loop that takes more iterations than
the message has bytes. A loop also returns the offsets its condition was evaluated at.
-/
namespace Zaza

/-- Two bytes, put together. -/
def readWord16 (data : Bytes) (offset : Nat) : Except Trap UInt16 := do
  let hi ← readAt data offset
  let lo ← readAt data (offset + 1)
  .ok (be16 hi lo)

/-! ## `turn_dispatcher.cpp` -/

/-- The branches of `onPacket`. -/
inductive PacketKind where
  | ignored
  | channelData
  | stun
  deriving DecidableEq

/-- Which branch of `onPacket` a packet takes. -/
def demultiplexChecked (data : Bytes) : Except Trap PacketKind :=
  if data.length = 0 then .ok .ignored
  else do
    let first ← readAt data 0
    if first &&& 0xC0 = 0x40 then .ok .channelData
    else do
      let first ← readAt data 0
      if first &&& 0xC0 = 0x00 then .ok .stun else .ok .ignored

/-- The rest of `onPacket`. -/
def TurnDispatcher.handlePacket (host : Host) (cfg : Config) (env : Env) (d : TurnDispatcher)
    (data : Bytes) (sender : Endpoint) (via : Transport) :
    PacketKind → Except Exn (TurnDispatcher × List Sent)
  | .ignored => .ok (d, [])
  | .channelData => .ok (d, d.handleChannelData host env data sender via)
  | .stun =>
    match parse data with
    | .error _ => .ok (d, [])
    | .ok msg => d.handleStun host cfg env msg data sender via

/-! ## `parser.cpp` -/

/-- The `while` loop of `parse`. -/
def parseAttributesChecked (data : Bytes) (stop : Nat) :
    Nat → Nat → Except Trap (List Nat × List Attribute)
  | 0, _ => .error .endless
  | fuel + 1, offset =>
    if offset + 4 ≤ stop then do
      let type ← readWord16 data offset
      let attrLen ← readWord16 data (offset + 2)
      let len := attrLen.toNat
      if offset + 4 + len > data.length then .ok ([offset], [])
      else do
        let value ← readRange data (offset + 4) (offset + 4 + len)
        let (offsets, attributes) ←
          parseAttributesChecked data stop fuel (offset + 4 + len + padding len)
        .ok (offset :: offsets, ⟨type, value⟩ :: attributes)
    else .ok ([offset], [])

/-- `parse`, with the offsets of its loop. The transaction id is copied to an array of twelve. -/
def parseChecked (data : Bytes) : Except Trap (List Nat × Except ParseError TurnMessage) :=
  if data.length < 20 then .ok ([], .error .tooShort)
  else do
    let first ← readAt data 0
    if first &&& 0xC0 ≠ 0x00 then .ok ([], .error .notTurnMessage)
    else do
      let msgType ← readWord16 data 0
      let length ← readWord16 data 2
      if data.length < 20 + length.toNat then .ok ([], .error .badLength)
      else do
        let b4 ← readAt data 4
        let b5 ← readAt data 5
        let b6 ← readAt data 6
        let b7 ← readAt data 7
        if be32 b4 b5 b6 b7 ≠ kMagicCookie then .ok ([], .error .badMagicCookie)
        else do
          let copied ← readRange data 8 20
          let id ← writeRange (List.replicate 12 0) 0 copied
          let (offsets, attributes) ←
            parseAttributesChecked data (20 + length.toNat) (20 + length.toNat) 20
          .ok (offsets, .ok {
            msgClass := decodeClass msgType
            method := decodeMethod msgType
            length := length
            transactionId := Vector.ofFn fun i => byteAt id i
            attributes := attributes })

/-- `parse_channel_data`. -/
def parseChannelDataChecked (raw : Bytes) :
    Except Trap (Except ChannelDataError ChannelDataMessage) :=
  if raw.length < 4 then .ok (.error .tooShort)
  else do
    let ch ← readWord16 raw 0
    let len ← readWord16 raw 2
    if ch < 0x4000 ∨ ch > 0x4FFF then .ok (.error .invalidChannel)
    else if raw.length < 4 + len.toNat then .ok (.error .tooShort)
    else do
      let data ← readRange raw 4 (4 + len.toNat)
      .ok (.ok ⟨ch, data⟩)

/-! ## `long_term_cred.cpp` -/

/-- What a verification has done. -/
structure Verification where
  /-- The offsets of its loop. -/
  offsets : List Nat
  /-- `adjusted_len`, before it is cast to sixteen bits. -/
  adjusted : Option Nat
  verdict : Bool

namespace LongTermCred

/-- The `while` loop of both verifications, until it finds its type. -/
def scanForChecked (raw : Bytes) (type : AttrType) (stop : Nat) :
    Nat → Nat → Except Trap (List Nat × Option Nat)
  | 0, _ => .error .endless
  | fuel + 1, offset =>
    if offset + 4 ≤ stop ∧ offset + 4 ≤ raw.length then do
      let found ← readWord16 raw offset
      let attrLen ← readWord16 raw (offset + 2)
      let len := attrLen.toNat
      if found = type then .ok ([offset], some offset)
      else do
        let (offsets, result) ←
          scanForChecked raw type stop fuel (offset + 4 + len + padding len)
        .ok (offset :: offsets, result)
    else .ok ([offset], none)

/-- `buf[2]` and `buf[3]` overwritten with a length. -/
def setLengthChecked (buf : Bytes) (len : UInt16) : Except Trap Bytes := do
  let buf ← writeAt buf 2 (len >>> 8 &&& 0xFF).toUInt8
  writeAt buf 3 (len &&& 0xFF).toUInt8

/-- The body of both verifications, up to what `buf` holds. -/
def checkIntegrityChecked (raw : Bytes) (type : AttrType) (size : Nat)
    (hashed : Nat → UInt16 → Except Trap Bytes) (mac : Bytes → Bytes) :
    Except Trap Verification :=
  if raw.length < 20 then .ok ⟨[], none, false⟩
  else do
    let attrsLen ← readWord16 raw 2
    let (offsets, found) ←
      scanForChecked raw type (20 + attrsLen.toNat) (20 + attrsLen.toNat) 20
    match found with
    | none => .ok ⟨offsets, none, false⟩
    | some miPos =>
      if miPos + 4 + size > raw.length then .ok ⟨offsets, none, false⟩
      else do
        let adjusted := miPos - 20 + 4 + size
        let buf ← hashed miPos adjusted.toUInt16
        let expected ← readRange raw (miPos + 4) (miPos + 4 + size)
        .ok ⟨offsets, some adjusted, mac buf = expected⟩

/-- `verifyMessageIntegrity`: the digest is copied too, and then filled with zeros. -/
def verifyMessageIntegrityChecked (host : Host) (realm raw username password : Bytes) :
    Except Trap Verification :=
  checkIntegrityChecked raw AttrType.messageIntegritySha256 32
    (fun miPos adjusted => do
      let copied ← readRange raw 0 (miPos + 4 + 32)
      let buf ← writeRange (List.replicate (miPos + 4 + 32) 0) 0 copied
      let buf ← setLengthChecked buf adjusted
      writeRange buf (miPos + 4) (List.replicate 32 0))
    (fun buf => (host.hmacSha256 (longTermKey host username realm password) buf).toList)

/-- `verifyMessageIntegrityMd5`. -/
def verifyMessageIntegrityMd5Checked (host : Host) (realm raw username password : Bytes) :
    Except Trap Verification :=
  checkIntegrityChecked raw AttrType.messageIntegrity 20
    (fun miPos adjusted => do
      let buf ← readRange raw 0 miPos
      setLengthChecked buf adjusted)
    (fun buf => (host.hmacSha1 (longTermKeyMd5 host username realm password) buf).toList)

end LongTermCred

end Zaza
