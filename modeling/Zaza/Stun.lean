import Zaza.Bytes

/-!
STUN messages and ChannelData frames as the server reads and writes them:
`turn_server/src/message/`, that is `xor_codec.hpp`, `parser.cpp` and
`builder.cpp`.

A buffer is its bytes, and its `size` their number. The parser's output
parameter becomes the value of an `Except`: the caller of a failed `parse`
never looks at what was filled in. The attribute loop carries fuel; an
iteration moves the offset by at least four, so the declared end of the
message is always enough (`StunCodec.attributes_unfold`).
-/
namespace Zaza

/-! ## `xor_codec.hpp` -/

def kMagicCookie : UInt32 := 0x2112A442

/-- `xor_port`. -/
def xorPort (port : UInt16) : UInt16 := port ^^^ (kMagicCookie >>> 16).toUInt16

/-- `xor_addr_v4`. -/
def xorAddrV4 (addr : UInt32) : UInt32 := addr ^^^ kMagicCookie

/-! ## `parser.hpp` -/

inductive MessageClass where
  | request
  | indication
  | successResponse
  | errorResponse
  deriving DecidableEq

def MessageClass.code : MessageClass → UInt16
  | .request => 0x00
  | .indication => 0x01
  | .successResponse => 0x02
  | .errorResponse => 0x03

inductive Method where
  | allocate
  | refresh
  | send
  | data
  | createPermission
  | channelBind
  | unknown
  deriving DecidableEq

def Method.code : Method → UInt16
  | .allocate => 0x003
  | .refresh => 0x004
  | .send => 0x006
  | .data => 0x007
  | .createPermission => 0x008
  | .channelBind => 0x009
  | .unknown => 0xFFF

/-- An open enumeration: `parse` casts any sixteen bits to it. The named
values are those the server looks for or writes. -/
abbrev AttrType := UInt16

namespace AttrType
def username : AttrType := 0x0006
def messageIntegrity : AttrType := 0x0008
def errorCode : AttrType := 0x0009
def channelNumber : AttrType := 0x000C
def lifetime : AttrType := 0x000D
def xorPeerAddress : AttrType := 0x0012
def data : AttrType := 0x0013
def realm : AttrType := 0x0014
def nonce : AttrType := 0x0015
def xorRelayedAddress : AttrType := 0x0016
def requestedTransport : AttrType := 0x0019
def messageIntegritySha256 : AttrType := 0x001C
def xorMappedAddress : AttrType := 0x0020
end AttrType

structure Attribute where
  type : AttrType
  value : Bytes
  deriving DecidableEq

/-- `std::array<uint8_t, 12>`. -/
abbrev TransactionId := Vector UInt8 12

structure TurnMessage where
  msgClass : MessageClass
  method : Method
  length : UInt16
  transactionId : TransactionId
  attributes : List Attribute
  deriving DecidableEq

/-- The first attribute of a type. -/
def findAttr (attributes : List Attribute) (type : AttrType) : Option Attribute :=
  attributes.find? (·.type = type)

/-- `TurnMessage::findAttr`. -/
def TurnMessage.findAttr (msg : TurnMessage) (type : AttrType) : Option Attribute :=
  Zaza.findAttr msg.attributes type

/-- `ParseResult` without its `Ok`. -/
inductive ParseError where
  | tooShort
  | badMagicCookie
  | badLength
  | notTurnMessage
  deriving DecidableEq

/-! ## `parser.cpp` -/

/-- The twelve method bits, gathered from around the class bits. -/
def methodBits (msgType : UInt16) : UInt16 :=
  (msgType &&& 0x3E00) >>> 2 ||| (msgType &&& 0x00E0) >>> 1 ||| msgType &&& 0x000F

def decodeMethod (msgType : UInt16) : Method :=
  match methodBits msgType with
  | 0x003 => .allocate
  | 0x004 => .refresh
  | 0x006 => .send
  | 0x007 => .data
  | 0x008 => .createPermission
  | 0x009 => .channelBind
  | _ => .unknown

def decodeClass (msgType : UInt16) : MessageClass :=
  let high : UInt16 := msgType >>> 7 &&& 0x02
  let low : UInt16 := msgType >>> 4 &&& 0x01
  match (high ||| low).toUInt8 with
  | 0 => .request
  | 1 => .indication
  | 2 => .successResponse
  | 3 => .errorResponse
  | _ => .request

/-- The sixteen bits at a position of a buffer. -/
def word16 (data : Bytes) (offset : Nat) : UInt16 :=
  be16 (byteAt data offset) (byteAt data (offset + 1))

/-- The `while` loop of `parse`: `stop` is `20u + out.length`. A value that
would run past the buffer ends the loop; one that runs past `stop` does not. -/
def parseAttributes (data : Bytes) (stop : Nat) : Nat → Nat → List Attribute
  | 0, _ => []
  | fuel + 1, offset =>
    if offset + 4 ≤ stop then
      let type := word16 data offset
      let len := (word16 data (offset + 2)).toNat
      if offset + 4 + len > data.length then []
      else ⟨type, slice data (offset + 4) len⟩ ::
        parseAttributes data stop fuel (offset + 4 + len + padding len)
    else []

def parse (data : Bytes) : Except ParseError TurnMessage :=
  if data.length < 20 then .error .tooShort
  else if byteAt data 0 &&& 0xC0 ≠ 0x00 then .error .notTurnMessage
  else
    let msgType := word16 data 0
    let length := word16 data 2
    if data.length < 20 + length.toNat then .error .badLength
    else if be32 (byteAt data 4) (byteAt data 5) (byteAt data 6) (byteAt data 7) ≠ kMagicCookie then
      .error .badMagicCookie
    else .ok {
      msgClass := decodeClass msgType
      method := decodeMethod msgType
      length := length
      transactionId := Vector.ofFn fun i => byteAt data (8 + i)
      attributes := parseAttributes data (20 + length.toNat) (20 + length.toNat) 20 }

structure ChannelDataMessage where
  channelNumber : UInt16
  data : Bytes
  deriving DecidableEq

/-- `ChannelDataResult` without its `Ok`. -/
inductive ChannelDataError where
  | tooShort
  | invalidChannel
  deriving DecidableEq

/-- `is_channel_data`. -/
def isChannelData (data : Bytes) : Bool :=
  if data.length < 1 then false else byteAt data 0 &&& 0xC0 = 0x40

/-- `parse_channel_data`. -/
def parseChannelData (raw : Bytes) : Except ChannelDataError ChannelDataMessage :=
  if raw.length < 4 then .error .tooShort
  else
    let ch := word16 raw 0
    let len := (word16 raw 2).toNat
    if ch < 0x4000 ∨ ch > 0x4FFF then .error .invalidChannel
    else if raw.length < 4 + len then .error .tooShort
    else .ok ⟨ch, slice raw 4 len⟩

/-! ## `builder.cpp` -/

structure MessageBuilder where
  msgType : UInt16
  transactionId : TransactionId
  attrsBuf : Bytes

namespace MessageBuilder

def encodeType (method : Method) (msgClass : MessageClass) : UInt16 :=
  let m := method.code
  let c := msgClass.code
  let mHigh := (m &&& 0x0F80) <<< 2
  let mMid := (m &&& 0x0070) <<< 1
  let mLow := m &&& 0x000F
  let cHigh := (c &&& 0x02) <<< 7
  let cLow := (c &&& 0x01) <<< 4
  mHigh ||| cHigh ||| mMid ||| cLow ||| mLow

/-- The constructor. -/
def new (method : Method) (msgClass : MessageClass) (tid : TransactionId) : MessageBuilder :=
  ⟨encodeType method msgClass, tid, []⟩

/-- Header, the first `len` bytes of the value, zeros up to a multiple of four. -/
def appendAttrRaw (b : MessageBuilder) (type : UInt16) (value : Bytes) (len : UInt16) :
    MessageBuilder :=
  { b with attrsBuf := b.attrsBuf ++ (bytes16 type ++ (bytes16 len ++
      (value.take len.toNat ++ List.replicate (padding len.toNat) 0))) }

/-- The size is cast to sixteen bits, so a longer value is cut. -/
def addAttr (b : MessageBuilder) (type : AttrType) (value : Bytes) : MessageBuilder :=
  b.appendAttrRaw type value value.length.toUInt16

def addErrorCode (b : MessageBuilder) (code : UInt16) (reason : Bytes) : MessageBuilder :=
  b.addAttr AttrType.errorCode
    ([0x00, 0x00, (code / 100).toUInt8 &&& 0x07, (code % 100).toUInt8] ++ reason)

def addLifetime (b : MessageBuilder) (seconds : UInt32) : MessageBuilder :=
  b.addAttr AttrType.lifetime (bytes32 seconds)

/-- The value `appendXorAddress` writes: family 0x01 and the two masked fields. -/
def xorAddress (ipv4 : UInt32) (port : UInt16) : Bytes :=
  [0x00, 0x01] ++ bytes16 (xorPort port) ++ bytes32 (xorAddrV4 ipv4)

def appendXorAddress (b : MessageBuilder) (type : AttrType) (ipv4 : UInt32) (port : UInt16) :
    MessageBuilder :=
  b.addAttr type (xorAddress ipv4 port)

def addXorMappedAddress (b : MessageBuilder) (ipv4 : UInt32) (port : UInt16) : MessageBuilder :=
  b.appendXorAddress AttrType.xorMappedAddress ipv4 port

def addXorRelayedAddress (b : MessageBuilder) (ipv4 : UInt32) (port : UInt16) : MessageBuilder :=
  b.appendXorAddress AttrType.xorRelayedAddress ipv4 port

def addXorPeerAddress (b : MessageBuilder) (ipv4 : UInt32) (port : UInt16) : MessageBuilder :=
  b.appendXorAddress AttrType.xorPeerAddress ipv4 port

def build (b : MessageBuilder) : Bytes :=
  bytes16 b.msgType ++ (bytes16 b.attrsBuf.length.toUInt16 ++
    ([0x21, 0x12, 0xA4, 0x42] ++ (b.transactionId.toList ++ b.attrsBuf)))

end MessageBuilder

/-- `make_data_indication`. -/
def makeDataIndication (tid : TransactionId) (peerIpv4 : UInt32) (peerPort : UInt16)
    (payload : Bytes) : Bytes :=
  (MessageBuilder.new .data .indication tid)
    |>.addXorPeerAddress peerIpv4 peerPort
    |>.addAttr AttrType.data payload
    |>.build

/-- `make_channel_data`: the length field is the size cast to sixteen bits, the
data is written whole. -/
def makeChannelData (channelNumber : UInt16) (data : Bytes) : Bytes :=
  let len := data.length.toUInt16
  bytes16 channelNumber ++ (bytes16 len ++ (data ++ List.replicate (padding len.toNat) 0))

/-- `make_error`: always in the name of Allocate. -/
def makeError (tid : TransactionId) (code : UInt16) (reason : String) : Bytes :=
  (MessageBuilder.new .allocate .errorResponse tid).addErrorCode code (ascii reason) |>.build

end Zaza
