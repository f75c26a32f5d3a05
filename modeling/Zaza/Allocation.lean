import Zaza.Host
import Zaza.Stun

/-!
The allocation manager: `turn_server/src/allocation/`.

Both tables of `AllocationManager` hold `shared_ptr`s, so one object is seen
under its client key and under its relay key. Objects live in `heap`; a pointer
is the position `make_shared` put the object at, and never changes. An object
in neither table is garbage and no operation finds it.

Each handler reads the clock once; the source reads it again for every
permission it writes. What `client_send_` and `peer_send_` are called with is
returned as datagrams. A datagram's `purpose` is not sent anywhere: it names
the send site, with that site's variables, for the theorems to speak about.
-/
namespace Zaza

/-- `transport::Endpoint`. -/
structure Endpoint where
  address : Bytes
  port : UInt16
  deriving DecidableEq

/-! ## `allocation.hpp` -/

structure Permission where
  address : Bytes
  expiresAt : TimePoint
  deriving DecidableEq

structure ChannelBinding where
  channelNumber : UInt16
  peer : Endpoint
  expiresAt : TimePoint
  deriving DecidableEq

structure Allocation where
  id : UInt64
  clientAddr : Endpoint
  relayedAddr : Endpoint
  username : Bytes
  realm : Bytes
  expiresAt : TimePoint
  permissions : UnorderedMap Bytes Permission
  channels : UnorderedMap UInt16 ChannelBinding

namespace Allocation

def kDefaultLifetime : UInt32 := 600
def kMaxLifetime : UInt32 := 3600
def kPermissionTTL : UInt32 := 300
def kChannelTTL : UInt32 := 600

def isExpired (a : Allocation) (now : TimePoint) : Bool := now ≥ a.expiresAt

def hasPermission (a : Allocation) (now : TimePoint) (peerAddress : Bytes) : Bool :=
  match a.permissions.lookup peerAddress with
  | none => false
  | some permission => now < permission.expiresAt

/-- The first binding, in the map's own order, to this peer that is unexpired. -/
def findChannelByPeer (a : Allocation) (order : IterOrder) (now : TimePoint) (peer : Endpoint) :
    Option ChannelBinding :=
  ((a.channels.iterate order).find? fun entry =>
    entry.2.peer.address = peer.address ∧ entry.2.peer.port = peer.port ∧
      now < entry.2.expiresAt).map Prod.snd

/-- The binding of a number, unless it has expired. -/
def findChannelByNumber (a : Allocation) (now : TimePoint) (num : UInt16) :
    Option ChannelBinding :=
  match a.channels.lookup num with
  | none => none
  | some binding => if now ≥ binding.expiresAt then none else some binding

/-- `permissions[address] = perm` with a fresh lifetime. -/
def permit (a : Allocation) (now : TimePoint) (address : Bytes) : Allocation :=
  { a with permissions := a.permissions.insert address ⟨address, now + seconds kPermissionTTL⟩ }

/-- `channels[num] = binding` with a fresh lifetime. -/
def bind (a : Allocation) (now : TimePoint) (num : UInt16) (peer : Endpoint) : Allocation :=
  { a with channels := a.channels.insert num ⟨num, peer, now + seconds kChannelTTL⟩ }

end Allocation

/-! ## `permission_table.cpp` -/

def kDeniedRanges : List (UInt32 × UInt32) :=
  [(0x0A000000, 0x0AFFFFFF), (0xAC100000, 0xAC1FFFFF)]

/-- An IPv4 value inside one of the denied ranges. -/
def deniedIp (ip : UInt32) : Bool := kDeniedRanges.any fun range => range.1 ≤ ip && ip ≤ range.2

def isDeniedAddress (host : Host) (address : Bytes) : Bool :=
  match host.makeAddressV4 address with
  | none => false
  | some ip => deniedIp ip

/-! ## `allocation_manager.hpp` -/

/-- What the constructor and the callback setters fix. -/
structure ManagerConfig where
  relayAddress : Bytes
  relayPortMin : UInt16
  relayPortMax : UInt16
  maxAllocPerUser : UInt32
  /-- Whether `client_send_` has been set. -/
  clientSend : Bool
  /-- Whether `peer_send_` has been set. -/
  peerSend : Bool

/-- `shared_ptr<Allocation>`. -/
abbrev Ptr := Nat

structure AllocationManager where
  nextId : UInt64
  heap : List Allocation
  byClient : UnorderedMap Bytes Ptr
  byRelay : UnorderedMap Bytes Ptr
  usedPorts : UnorderedMap UInt16 Bool

/-- Why a packet is sent: a reply to the requester; a payload that `client`
addressed to `peer`, sent on raw; such a payload handed to the client of the
local allocation `receiver`, in the name of `source`; or an outside peer's
payload handed to that client. -/
inductive Purpose where
  | reply
  | toPeer (client peer : Endpoint)
  | toLocal (client peer source : Endpoint) (receiver : Ptr)
  | fromPeer (source : Endpoint) (receiver : Ptr)
  deriving DecidableEq

structure Datagram where
  data : Bytes
  dest : Endpoint
  purpose : Purpose
  deriving DecidableEq

/-- `endpointKey`. -/
def endpointKey (ep : Endpoint) : Bytes := ep.address ++ 58 :: toString ep.port.toNat

namespace AllocationManager

/-- The manager as constructed. -/
def empty : AllocationManager := ⟨1, [], ∅, ∅, ∅⟩

/-- The object a table holds under an endpoint's key. -/
def find (m : AllocationManager) (table : UnorderedMap Bytes Ptr) (ep : Endpoint) :
    Option (Ptr × Allocation) :=
  (table.lookup (endpointKey ep)).bind fun p => m.heap[p]?.map (p, ·)

def findByClient (m : AllocationManager) (client : Endpoint) : Option Allocation :=
  (m.find m.byClient client).map Prod.snd

def findByRelay (m : AllocationManager) (relay : Endpoint) : Option Allocation :=
  (m.find m.byRelay relay).map Prod.snd

/-- Writing through a pointer. -/
def store (m : AllocationManager) (p : Ptr) (a : Allocation) : AllocationManager :=
  { m with heap := m.heap.set p a }

/-! ## `allocation_manager.cpp` -/

/-- The port a draw stands for. The range is computed in sixteen bits, so the
full range wraps to zero and `range - 1` back to its end. -/
def drawPort (cfg : ManagerConfig) (draw : Nat) : UInt16 :=
  let range := cfg.relayPortMax - cfg.relayPortMin + 1
  cfg.relayPortMin + (uniformInt 0 (range - 1).toNat draw).toUInt16

/-- The `for` loop of `allocatePort`, with the attempts left and those made. -/
def tryPorts (cfg : ManagerConfig) (draws : Nat → Nat) :
    Nat → Nat → UnorderedMap UInt16 Bool → Option UInt16 × UnorderedMap UInt16 Bool
  | 0, _, usedPorts => (none, usedPorts)
  | left + 1, attempts, usedPorts =>
    let port := drawPort cfg (draws attempts)
    let (used, usedPorts) := UnorderedMap.index usedPorts port false
    if !used then (some port, usedPorts.insert port true)
    else tryPorts cfg draws left (attempts + 1) usedPorts

def allocatePort (cfg : ManagerConfig) (draws : Nat → Nat) (usedPorts : UnorderedMap UInt16 Bool) :
    Option UInt16 × UnorderedMap UInt16 Bool :=
  tryPorts cfg draws 1000 0 usedPorts

def requestedLifetime (msg : TurnMessage) : UInt32 :=
  match msg.findAttr AttrType.lifetime with
  | none => Allocation.kDefaultLifetime
  | some lt =>
    if lt.value.length < 4 then Allocation.kDefaultLifetime
    else
      let requested := be32 (byteAt lt.value 0) (byteAt lt.value 1)
        (byteAt lt.value 2) (byteAt lt.value 3)
      if requested = 0 then 0 else min requested Allocation.kMaxLifetime

/-- The allocations of a user, counted in thirty-two bits. -/
def userCount (m : AllocationManager) (order : IterOrder) (username : Bytes) : UInt32 :=
  (m.byClient.iterate order).foldl
    (fun count entry => if m.heap[entry.2]?.any (·.username = username) then count + 1 else count) 0

/-- The bookkeeping at the end of a successful Allocate. -/
def create (m : AllocationManager) (alloc : Allocation) (usedPorts : UnorderedMap UInt16 Bool) :
    AllocationManager where
  nextId := m.nextId + 1
  heap := m.heap ++ [alloc]
  byClient := m.byClient.insert (endpointKey alloc.clientAddr) m.heap.length
  byRelay := m.byRelay.insert (endpointKey alloc.relayedAddr) m.heap.length
  usedPorts := usedPorts

def handleAllocate (host : Host) (cfg : ManagerConfig) (env : Env) (m : AllocationManager)
    (msg : TurnMessage) (client : Endpoint) (username realm : Bytes) :
    AllocationManager × Bytes :=
  if (m.byClient.lookup (endpointKey client)).isSome then
    (m, makeError msg.transactionId 437 "Allocation Mismatch")
  else match msg.findAttr AttrType.requestedTransport with
  | none => (m, makeError msg.transactionId 400 "Bad Request")
  | some rt =>
    if rt.value.length < 4 ∨ byteAt rt.value 0 ≠ 17 then
      (m, makeError msg.transactionId 442 "Unsupported Transport Protocol")
    else if m.userCount env.order username ≥ cfg.maxAllocPerUser then
      (m, makeError msg.transactionId 486 "Allocation Quota Reached")
    else match allocatePort cfg env.draws m.usedPorts with
    | (none, usedPorts) =>
      ({ m with usedPorts }, makeError msg.transactionId 508 "Insufficient Capacity")
    | (some relayPort, usedPorts) =>
      let requested := requestedLifetime msg
      let lifetime := if requested = 0 then Allocation.kDefaultLifetime else requested
      let alloc : Allocation := {
        id := m.nextId
        clientAddr := client
        relayedAddr := ⟨cfg.relayAddress, relayPort⟩
        username := username
        realm := realm
        expiresAt := env.now + seconds lifetime
        permissions := ∅
        channels := ∅ }
      let relayIp := (host.makeAddressV4 cfg.relayAddress).getD 0
      let clientIp := (host.makeAddressV4 client.address).getD 0
      (m.create alloc usedPorts,
        (MessageBuilder.new .allocate .successResponse msg.transactionId)
          |>.addXorRelayedAddress relayIp relayPort
          |>.addXorMappedAddress clientIp client.port
          |>.addLifetime lifetime
          |>.build)

/-- The bookkeeping of a Refresh with lifetime zero. -/
def release (m : AllocationManager) (client : Endpoint) (alloc : Allocation) :
    AllocationManager :=
  { m with
    byRelay := m.byRelay.erase (endpointKey alloc.relayedAddr)
    usedPorts := m.usedPorts.erase alloc.relayedAddr.port
    byClient := m.byClient.erase (endpointKey client) }

def handleRefresh (env : Env) (m : AllocationManager) (msg : TurnMessage) (client : Endpoint)
    (username : Bytes) : AllocationManager × Bytes :=
  match m.find m.byClient client with
  | none => (m, makeError msg.transactionId 437 "Allocation Mismatch")
  | some (p, alloc) =>
    if alloc.username ≠ username then
      (m, makeError msg.transactionId 441 "Wrong Credentials")
    else
      let lifetime := requestedLifetime msg
      let m' := if lifetime = 0 then m.release client alloc
        else m.store p { alloc with expiresAt := env.now + seconds lifetime }
      (m', (MessageBuilder.new .refresh .successResponse msg.transactionId)
        |>.addLifetime lifetime
        |>.build)

/-- The address in an XOR-PEER-ADDRESS value of at least eight bytes. -/
def peerIp (value : Bytes) : UInt32 :=
  be32 (byteAt value 4) (byteAt value 5) (byteAt value 6) (byteAt value 7) ^^^ kMagicCookie

/-- The port in an XOR-PEER-ADDRESS value of at least eight bytes. -/
def peerPort (value : Bytes) : UInt16 :=
  be16 (byteAt value 2) (byteAt value 3) ^^^ (kMagicCookie >>> 16).toUInt16

/-- The endpoint in an XOR-PEER-ADDRESS value of at least eight bytes. -/
def peerEndpoint (host : Host) (value : Bytes) : Endpoint :=
  ⟨host.addressToString (peerIp value), peerPort value⟩

/-- The `for` loop of `handleCreatePermission`, with `found_peer`. `none` is the
early return on a denied address: what was permitted before it stays. -/
def permitPeers (host : Host) (now : TimePoint) :
    List Attribute → Allocation → Bool → Allocation × Option Bool
  | [], alloc, foundPeer => (alloc, some foundPeer)
  | attr :: rest, alloc, foundPeer =>
    if attr.type ≠ AttrType.xorPeerAddress then permitPeers host now rest alloc foundPeer
    else if attr.value.length < 8 then permitPeers host now rest alloc foundPeer
    else
      let peerAddress := host.addressToString (peerIp attr.value)
      if isDeniedAddress host peerAddress then (alloc, none)
      else permitPeers host now rest (alloc.permit now peerAddress) true

def handleCreatePermission (host : Host) (env : Env) (m : AllocationManager) (msg : TurnMessage)
    (client : Endpoint) : AllocationManager × Bytes :=
  match m.find m.byClient client with
  | none => (m, makeError msg.transactionId 437 "Allocation Mismatch")
  | some (p, alloc) =>
    match permitPeers host env.now msg.attributes alloc false with
    | (alloc', none) => (m.store p alloc', makeError msg.transactionId 403 "Forbidden")
    | (alloc', some false) => (m.store p alloc', makeError msg.transactionId 400 "Bad Request")
    | (alloc', some true) => (m.store p alloc',
        (MessageBuilder.new .createPermission .successResponse msg.transactionId).build)

/-- A number already bound to another peer, or a peer bound to another number. -/
def channelConflict (order : IterOrder) (alloc : Allocation) (channelNum : UInt16)
    (peer : Endpoint) : Bool :=
  (match alloc.channels.lookup channelNum with
    | none => false
    | some existing => existing.peer.address ≠ peer.address ∨ existing.peer.port ≠ peer.port) ||
  (alloc.channels.iterate order).any fun entry =>
    entry.1 ≠ channelNum ∧ entry.2.peer.address = peer.address ∧ entry.2.peer.port = peer.port

def handleChannelBind (host : Host) (env : Env) (m : AllocationManager) (msg : TurnMessage)
    (client : Endpoint) : AllocationManager × Bytes :=
  match m.find m.byClient client with
  | none => (m, makeError msg.transactionId 437 "Allocation Mismatch")
  | some (p, alloc) =>
    match msg.findAttr AttrType.channelNumber, msg.findAttr AttrType.xorPeerAddress with
    | some chAttr, some peerAttr =>
      if chAttr.value.length < 2 ∨ peerAttr.value.length < 8 then
        (m, makeError msg.transactionId 400 "Bad Request")
      else
        let channelNum := be16 (byteAt chAttr.value 0) (byteAt chAttr.value 1)
        if channelNum < 0x4000 ∨ channelNum > 0x4FFF then
          (m, makeError msg.transactionId 400 "Bad Request")
        else
          let peer := peerEndpoint host peerAttr.value
          if isDeniedAddress host peer.address then
            (m, makeError msg.transactionId 403 "Forbidden")
          else if channelConflict env.order alloc channelNum peer then
            (m, makeError msg.transactionId 400 "Bad Request")
          else
            (m.store p ((alloc.bind env.now channelNum peer).permit env.now peer.address),
              (MessageBuilder.new .channelBind .successResponse msg.transactionId).build)
    | _, _ => (m, makeError msg.transactionId 400 "Bad Request")

/-- The all-zero transaction id of the indications the server sends. -/
def zeroTid : TransactionId := Vector.replicate 12 0

def handleSend (host : Host) (cfg : ManagerConfig) (env : Env) (m : AllocationManager)
    (msg : TurnMessage) (client : Endpoint) : List Datagram :=
  match m.find m.byClient client with
  | none => []
  | some (_, alloc) =>
    match msg.findAttr AttrType.xorPeerAddress with
    | none => []
    | some peerAttr =>
      if peerAttr.value.length < 8 then []
      else
        let peer := peerEndpoint host peerAttr.value
        if !alloc.hasPermission env.now peer.address then []
        else match msg.findAttr AttrType.data with
        | none => []
        | some dataAttr =>
          match m.find m.byRelay peer with
          | some (q, peerAlloc) =>
            let senderIp := (host.makeAddressV4 alloc.relayedAddr.address).getD 0
            let indication := makeDataIndication zeroTid senderIp alloc.relayedAddr.port
              dataAttr.value
            if cfg.clientSend then
              [⟨indication, peerAlloc.clientAddr, .toLocal client peer alloc.relayedAddr q⟩]
            else []
          | none =>
            if cfg.peerSend then [⟨dataAttr.value, peer, .toPeer client peer⟩] else []

def handlePeerData (host : Host) (cfg : ManagerConfig) (env : Env) (m : AllocationManager)
    (data : Bytes) (peer relayAddr : Endpoint) : List Datagram :=
  match m.find m.byRelay relayAddr with
  | none => []
  | some (p, alloc) =>
    if !alloc.hasPermission env.now peer.address then []
    else if !cfg.clientSend then []
    else match alloc.findChannelByPeer env.order env.now peer with
    | some ch => [⟨makeChannelData ch.channelNumber data, alloc.clientAddr, .fromPeer peer p⟩]
    | none =>
      let peerIp := (host.makeAddressV4 peer.address).getD 0
      [⟨makeDataIndication zeroTid peerIp peer.port data, alloc.clientAddr, .fromPeer peer p⟩]

end AllocationManager

end Zaza
