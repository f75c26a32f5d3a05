import Zaza.ExactReader
import Zaza.Stun

/-!
Byte streams: the readers of `TcpSession` and `TlsSession` in
`turn_server/src/transport/`.

Each `async_read` of the source is a read of an exact number of bytes, and its
completion handler issues the next one; `Reading` names the read under way with
what its handler captured. The members `first_byte_`, `stun_header_buf_` and
`chan_header_buf_` keep the bytes of the last reads; the handlers use them only
for the frame those reads belong to, so they are part of the phase here.

`on_receive` gets a pointer and a size. `Received` keeps both apart, because the
size of a ChannelData call comes from the length field and not from the buffer.
Both session classes have the same five reads; a TLS session issues the first
one when its handshake is done.
-/
namespace Zaza

/-- One call of `on_receive_(buf->data(), size, from_)`. -/
structure Received where
  buf : Bytes
  size : Nat
  deriving DecidableEq

/-- The bytes the callee is given. -/
def Received.data (r : Received) : Bytes := r.buf.take r.size

inductive Reading where
  | firstByte
  | stunHeader (first : UInt8)
  | stunBody (header : Bytes) (attrsLen : UInt16)
  | channelHeader (first : UInt8)
  | channelBody (header : Bytes) (dataLen paddedLen : UInt16)
  deriving DecidableEq

namespace Reading

/-- The size of the buffer given to `async_read`. -/
def wants : Reading → Nat
  | .firstByte => 1
  | .stunHeader _ => 19
  | .stunBody _ attrsLen => attrsLen.toNat
  | .channelHeader _ => 3
  | .channelBody _ _ paddedLen => paddedLen.toNat

/-- `data_len` rounded up to a multiple of four, in sixteen bits. -/
def paddedLen (dataLen : UInt16) : UInt16 :=
  dataLen + (if dataLen % 4 ≠ 0 then 4 - dataLen % 4 else 0)

/-- The completion handlers. -/
def completed : Reading → Bytes → Reading × List Received
  | .firstByte, buf =>
    let first := byteAt buf 0
    let top2 := first >>> 6 &&& 0x03
    if top2 = 0x01 then (.channelHeader first, []) else (.stunHeader first, [])
  | .stunHeader first, buf =>
    let header := first :: buf
    (.stunBody header (word16 header 2), [])
  | .stunBody header _, buf => (.firstByte, [⟨header ++ buf, (header ++ buf).length⟩])
  | .channelHeader first, buf =>
    let dataLen := word16 buf 1
    (.channelBody (first :: buf) dataLen (paddedLen dataLen), [])
  | .channelBody header dataLen _, buf => (.firstByte, [⟨header ++ buf, 4 + dataLen.toNat⟩])

end Reading

/-- The reader both session classes run. -/
def sessionReader : ExactReader UInt8 Reading Received where
  wants := Reading.wants
  completed := Reading.completed
  progress phase empty := by
    -- Only a body can be empty, and behind it the next first byte is read.
    cases phase <;> simp_all [Reading.wants, Reading.completed]

/-- The bytes of the reads under way in a session. -/
abbrev ReadState := Pending UInt8 Reading

/-- Waiting for the first byte of a frame. -/
def ReadState.boundary : ReadState := ⟨.firstByte, []⟩

namespace TcpSession

/-- `run`: the first read is issued. -/
def run : ReadState := (sessionReader.issue .firstByte).1

/-- Segments received after `run`. -/
def receive (segments : List Bytes) : ReadState × List Received :=
  sessionReader.feedAll run segments

end TcpSession

namespace TlsSession

/-- `run`: no read is issued before the handshake is done. -/
def run : Option ReadState := none

/-- The handshake's completion handler. -/
def handshaken (error : Bool) : Option ReadState :=
  if error then none else some (sessionReader.issue .firstByte).1

/-- Plaintext segments received after the handshake. -/
def receive (segments : List Bytes) : Option (ReadState × List Received) :=
  (handshaken false).map (sessionReader.feedAll · segments)

end TlsSession

end Zaza
