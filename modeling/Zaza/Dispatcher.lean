import Zaza.Credentials
import Zaza.Machine

/-!
The TURN server as one machine: `turn_server/src/core/turn_dispatcher.cpp`, fed
with packets by the four transports of `main.cpp`.

`onPacket` handles one packet to the end, as the single `io_context` thread
does. The machine also takes the datagrams a peer sends to a relayed address
(`handlePeerData`), which the dispatcher's callbacks are set up for although no
transport delivers them yet. What is logged is left out.
-/
namespace Zaza

/-- The `ITransport` objects of `main`. -/
inductive Transport where
  | udp
  | tcp
  | tls
  | dtls
  deriving DecidableEq

/-- The constructor's arguments. -/
structure Config where
  realm : Bytes
  sharedSecret : Bytes
  relayAddress : Bytes
  relayPortMin : UInt16
  relayPortMax : UInt16

/-- `alloc_manager_`, with the default quota and both callbacks set. -/
def Config.manager (cfg : Config) : ManagerConfig where
  relayAddress := cfg.relayAddress
  relayPortMin := cfg.relayPortMin
  relayPortMax := cfg.relayPortMax
  maxAllocPerUser := 10
  clientSend := true
  peerSend := true

structure TurnDispatcher where
  nonces : NonceStore
  manager : AllocationManager
  currentTransport : Option Transport

/-- A packet handed to a transport. -/
structure Sent extends Datagram where
  via : Transport
  deriving DecidableEq

namespace TurnDispatcher

def init : TurnDispatcher := ⟨∅, AllocationManager.empty, none⟩

/-- Both callbacks: the datagram goes to the current transport, if there is one. -/
def callback (d : TurnDispatcher) (datagrams : List Datagram) : List Sent :=
  match d.currentTransport with
  | none => []
  | some via => datagrams.map fun datagram => ⟨datagram, via⟩

/-- An error response with a fresh nonce, in the request's own method. -/
def challenge (cfg : Config) (env : Env) (d : TurnDispatcher) (msg : TurnMessage)
    (sender : Endpoint) (via : Transport) (code : UInt16) (reason : String) :
    Except Exn (TurnDispatcher × List Sent) :=
  match NonceManager.generate env d.nonces with
  | .error e => .error e
  | .ok (nonce, nonces) =>
    let resp := (MessageBuilder.new msg.method .errorResponse msg.transactionId)
      |>.addErrorCode code (ascii reason)
      |>.addAttr AttrType.realm cfg.realm
      |>.addAttr AttrType.nonce nonce
      |>.build
    .ok ({ d with nonces }, [⟨⟨resp, sender, .reply⟩, via⟩])

/-- Success responses get a MESSAGE-INTEGRITY attribute, everything else is
returned as it is. -/
def signResponse (host : Host) (cfg : Config) (resp username password : Bytes) : Bytes :=
  if resp.length < 20 then resp
  else if decodeClass (word16 resp 0) ≠ .successResponse then resp
  else
    let key := longTermKeyMd5 host username cfg.realm password
    let adjustedLen := (resp.length - 20 + 4 + 20).toUInt16
    let buf := setLength resp adjustedLen
    let mi := (host.hmacSha1 key buf).toList
    buf ++ ([0x00, 0x08, 0x00, 0x14] ++ mi)

/-- The username a request from `sender` must have: that of its allocation. -/
def allocatedUsername (d : TurnDispatcher) (msg : TurnMessage) (sender : Endpoint) : Bytes :=
  if msg.method ≠ .allocate then
    match d.manager.findByClient sender with
    | some alloc => alloc.username
    | none => []
  else []

/-- `LongTermCred::authenticate` as `handleStun` calls it. -/
def authResult (host : Host) (cfg : Config) (env : Env) (d : TurnDispatcher) (msg : TurnMessage)
    (raw : Bytes) (sender : Endpoint) : AuthResult :=
  LongTermCred.authenticate host cfg.realm cfg.sharedSecret env d.nonces msg raw
    (d.allocatedUsername msg sender)

/-- The USERNAME of a message. -/
def usernameOf (msg : TurnMessage) : Bytes :=
  match msg.findAttr AttrType.username with
  | some attr => attr.value
  | none => []

/-- The second `switch` of `handleStun`, after a successful check. -/
def handleRequest (host : Host) (cfg : Config) (env : Env) (m : AllocationManager)
    (msg : TurnMessage) (sender : Endpoint) : AllocationManager × Bytes :=
  match msg.method with
  | .allocate => m.handleAllocate host cfg.manager env msg sender (usernameOf msg) cfg.realm
  | .refresh => m.handleRefresh env msg sender (usernameOf msg)
  | .createPermission => m.handleCreatePermission host env msg sender
  | .channelBind => m.handleChannelBind host env msg sender
  | _ => (m, makeError msg.transactionId 400 "Bad Request")

def handleStun (host : Host) (cfg : Config) (env : Env) (d : TurnDispatcher) (msg : TurnMessage)
    (raw : Bytes) (sender : Endpoint) (via : Transport) :
    Except Exn (TurnDispatcher × List Sent) :=
  let d := { d with currentTransport := some via }
  if msg.msgClass = .indication then
    if msg.method = .send then
      .ok (d, d.callback (d.manager.handleSend host cfg.manager env msg sender))
    else .ok (d, [])
  else match d.authResult host cfg env msg raw sender with
  | .missingCredentials => d.challenge cfg env msg sender via 401 "Unauthorized"
  | .staleNonce => d.challenge cfg env msg sender via 438 "Stale Nonce"
  | .badIntegrity => d.challenge cfg env msg sender via 401 "Unauthorized"
  | .credentialsExpired => d.challenge cfg env msg sender via 401 "Unauthorized"
  | .wrongCredentials =>
    .ok (d, [⟨⟨makeError msg.transactionId 441 "Wrong Credentials", sender, .reply⟩, via⟩])
  | .ok =>
    let username := usernameOf msg
    let password := HmacValidator.getPassword host cfg.sharedSecret username
    let (manager, resp) := handleRequest host cfg env d.manager msg sender
    let d := { d with manager }
    if resp ≠ [] then
      .ok (d, [⟨⟨signResponse host cfg resp username password, sender, .reply⟩, via⟩])
    else .ok (d, [])

/-- The channel, in the map's own order, that an allocation binds to a peer, or
zero. Expired bindings count. -/
def peerChannel (order : IterOrder) (alloc : Allocation) (peer : Endpoint) : UInt16 :=
  match (alloc.channels.iterate order).find? fun entry =>
    entry.2.peer.address = peer.address ∧ entry.2.peer.port = peer.port with
  | some entry => entry.1
  | none => 0

def handleChannelData (host : Host) (env : Env) (d : TurnDispatcher) (data : Bytes)
    (sender : Endpoint) (via : Transport) : List Sent :=
  match parseChannelData data with
  | .error _ => []
  | .ok ch =>
    match d.manager.findByClient sender with
    | none => []
    | some alloc =>
      match alloc.channels.lookup ch.channelNumber with
      | none => []
      | some binding =>
        let peer := binding.peer
        if !alloc.hasPermission env.now peer.address then []
        else match d.manager.find d.manager.byRelay peer with
        | some (q, peerAlloc) =>
          let purpose := .toLocal sender peer alloc.relayedAddr q
          let number := peerChannel env.order peerAlloc alloc.relayedAddr
          if number ≠ 0 then
            [⟨⟨makeChannelData number ch.data, peerAlloc.clientAddr, purpose⟩, via⟩]
          else match host.makeAddressV4 alloc.relayedAddr.address with
          | none => []
          | some relayIp =>
            [⟨⟨makeDataIndication AllocationManager.zeroTid relayIp alloc.relayedAddr.port ch.data,
              peerAlloc.clientAddr, purpose⟩, via⟩]
        | none => [⟨⟨ch.data, peer, .toPeer sender peer⟩, via⟩]

def onPacket (host : Host) (cfg : Config) (env : Env) (d : TurnDispatcher) (data : Bytes)
    (sender : Endpoint) (via : Transport) : Except Exn (TurnDispatcher × List Sent) :=
  if data.length = 0 then .ok (d, [])
  else if byteAt data 0 &&& 0xC0 = 0x40 then
    .ok (d, d.handleChannelData host env data sender via)
  else if byteAt data 0 &&& 0xC0 = 0x00 then
    match parse data with
    | .error _ => .ok (d, [])
    | .ok msg => d.handleStun host cfg env msg data sender via
  else .ok (d, [])

end TurnDispatcher

/-- What reaches the server: a packet from a client on a transport, or a
datagram from a peer at a relayed address. -/
inductive Event where
  | packet (data : Bytes) (sender : Endpoint) (via : Transport)
  | peerData (data : Bytes) (peer relayAddr : Endpoint)

/-- The server as constructed, taking events one at a time. -/
def turnServer (host : Host) (cfg : Config) :
    Machine TurnDispatcher (Event × Env) (List Sent) Exn where
  init := TurnDispatcher.init
  step d input :=
    match input.1 with
    | .packet data sender via => d.onPacket host cfg input.2 data sender via
    | .peerData data peer relayAddr =>
      .ok (d, d.callback
        (d.manager.handlePeerData host cfg.manager input.2 data peer relayAddr))

end Zaza
