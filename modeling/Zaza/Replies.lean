import Zaza.Signing

/-!
What the server puts into its messages.

A message is a method, a class, a transaction id and the attributes added to the
builder (`Call`). Its bytes carry sixteen bits of every length, so they say what was
added exactly if the encoded size fits (`Call.read_back_iff`). Each handler's response
is such a call, `handleRequest_call`; the definitions below follow the handlers branch
by branch and name the attributes instead of the bytes.
-/
namespace Zaza

/-- A message as it was put together. -/
structure Call where
  method : Method
  msgClass : MessageClass
  tid : TransactionId
  attrs : List Attribute

namespace Call
open StunCodec

def build (c : Call) : Bytes :=
  (addAttrs (MessageBuilder.new c.method c.msgClass c.tid) c.attrs).build

/-- The size of the attributes, whatever sixteen bits make of it. -/
def size (c : Call) : Nat := encodedSize c.attrs

/-- The bytes are read back as the message with these attributes, and maybe some behind
them; the length field is the size of their encoding, which is all that follows the
header. -/
def ReadBack (c : Call) (bytes : Bytes) (behind : List Attribute) : Prop :=
  ∃ msg, parse bytes = .ok msg ∧ msg.method = c.method ∧ msg.msgClass = c.msgClass ∧
    msg.transactionId = c.tid ∧ msg.attributes = c.attrs ++ behind ∧
    msg.length.toNat = encodedSize (c.attrs ++ behind) ∧ bytes.length = 20 + msg.length.toNat

theorem readBack_encoded (c : Call) (behind : List Attribute)
    (fits : encodedSize (c.attrs ++ behind) ≤ 65535) :
    c.ReadBack (encodeMessage c.method c.msgClass c.tid (c.attrs ++ behind)) behind := by
  have parsed := parse_encodeMessage c.method c.msgClass c.tid [] fits
  rw [List.append_nil] at parsed
  have length := toUInt16_toNat (Nat.lt_succ_of_le fits)
  exact ⟨_, parsed, rfl, rfl, rfl, rfl, length, by rw [encodeMessage_length, length]⟩

/-- A message is read back as what was added exactly if its size fits sixteen bits. -/
theorem read_back_iff (c : Call) : c.ReadBack c.build [] ↔ c.size ≤ 65535 := by
  constructor
  · rintro ⟨msg, _, _, _, _, _, length, _⟩
    rw [List.append_nil] at length
    have bound := msg.length.toNat_lt
    rw [size]
    omega
  · intro fits
    have read := c.readBack_encoded [] (by rwa [List.append_nil])
    rwa [List.append_nil, ← build_addAttrs _ _ _ fits] at read

/-- `make_error`: one ERROR-CODE attribute, in the name of Allocate. -/
def error (tid : TransactionId) (code : UInt16) (reason : String) : Call :=
  ⟨.allocate, .errorResponse, tid, [⟨AttrType.errorCode,
    [0x00, 0x00, (code / 100).toUInt8 &&& 0x07, (code % 100).toUInt8] ++ ascii reason⟩]⟩

theorem error_build (tid : TransactionId) (code : UInt16) (reason : String) :
    (error tid code reason).build = makeError tid code reason := rfl

/-- `make_data_indication`. -/
def indication (ip : UInt32) (port : UInt16) (payload : Bytes) : Call :=
  ⟨.data, .indication, AllocationManager.zeroTid,
    [⟨AttrType.xorPeerAddress, MessageBuilder.xorAddress ip port⟩, ⟨AttrType.data, payload⟩]⟩

/-- A challenge: the error, the realm and a fresh nonce, in the request's own method. -/
def challenge (cfg : Config) (msg : TurnMessage) (code : UInt16) (reason : String)
    (nonce : Bytes) : Call :=
  ⟨msg.method, .errorResponse, msg.transactionId, [⟨AttrType.errorCode,
      [0x00, 0x00, (code / 100).toUInt8 &&& 0x07, (code % 100).toUInt8] ++ ascii reason⟩,
    ⟨AttrType.realm, cfg.realm⟩, ⟨AttrType.nonce, nonce⟩]⟩

end Call

namespace Replies
open StunCodec AllocationManager TurnDispatcher

variable {host : Host} {cfg : Config} {env : Env} {m : AllocationManager} {msg : TurnMessage}
  {client : Endpoint}

/-! ## The handlers' responses -/

/-- The success response of Allocate. -/
def allocated (host : Host) (cfg : ManagerConfig) (msg : TurnMessage) (client : Endpoint)
    (relayPort : UInt16) (lifetime : UInt32) : Call :=
  ⟨.allocate, .successResponse, msg.transactionId,
    [⟨AttrType.xorRelayedAddress,
        MessageBuilder.xorAddress ((host.makeAddressV4 cfg.relayAddress).getD 0) relayPort⟩,
      ⟨AttrType.xorMappedAddress,
        MessageBuilder.xorAddress ((host.makeAddressV4 client.address).getD 0) client.port⟩,
      ⟨AttrType.lifetime, bytes32 lifetime⟩]⟩

/-- The success response of Refresh. -/
def refreshed (msg : TurnMessage) (lifetime : UInt32) : Call :=
  ⟨.refresh, .successResponse, msg.transactionId, [⟨AttrType.lifetime, bytes32 lifetime⟩]⟩

theorem xorAddress_length (ip : UInt32) (port : UInt16) :
    (MessageBuilder.xorAddress ip port).length = 8 := rfl

theorem allocated_size (cfg : ManagerConfig) (relayPort : UInt16) (lifetime : UInt32) :
    (allocated host cfg msg client relayPort lifetime).size = 32 := by
  simp [Call.size, allocated, encodedSize, attrSize_words, xorAddress_length]

theorem refreshed_size (msg : TurnMessage) (lifetime : UInt32) :
    (refreshed msg lifetime).size = 8 := by
  simp [Call.size, refreshed, encodedSize, attrSize_words]

/-- A success response without attributes. -/
def done (method : Method) (msg : TurnMessage) : Call :=
  ⟨method, .successResponse, msg.transactionId, []⟩

/-- The lifetime an Allocate is granted. -/
def grantedLifetime (msg : TurnMessage) : UInt32 :=
  if requestedLifetime msg = 0 then Allocation.kDefaultLifetime else requestedLifetime msg

def allocateCall (host : Host) (cfg : ManagerConfig) (env : Env) (m : AllocationManager)
    (msg : TurnMessage) (client : Endpoint) (username : Bytes) : Call :=
  if (m.byClient.lookup (endpointKey client)).isSome then
    .error msg.transactionId 437 "Allocation Mismatch"
  else match msg.findAttr AttrType.requestedTransport with
  | none => .error msg.transactionId 400 "Bad Request"
  | some rt =>
    if rt.value.length < 4 ∨ byteAt rt.value 0 ≠ 17 then
      .error msg.transactionId 442 "Unsupported Transport Protocol"
    else if m.userCount env.order username ≥ cfg.maxAllocPerUser then
      .error msg.transactionId 486 "Allocation Quota Reached"
    else match (allocatePort cfg env.draws m.usedPorts).1 with
    | none => .error msg.transactionId 508 "Insufficient Capacity"
    | some relayPort => allocated host cfg msg client relayPort (grantedLifetime msg)

def refreshCall (m : AllocationManager) (msg : TurnMessage) (client : Endpoint)
    (username : Bytes) : Call :=
  match m.find m.byClient client with
  | none => .error msg.transactionId 437 "Allocation Mismatch"
  | some (_, alloc) =>
    if alloc.username ≠ username then .error msg.transactionId 441 "Wrong Credentials"
    else refreshed msg (requestedLifetime msg)

def createPermissionCall (host : Host) (env : Env) (m : AllocationManager) (msg : TurnMessage)
    (client : Endpoint) : Call :=
  match m.find m.byClient client with
  | none => .error msg.transactionId 437 "Allocation Mismatch"
  | some (_, alloc) =>
    match (permitPeers host env.now msg.attributes alloc false).2 with
    | none => .error msg.transactionId 403 "Forbidden"
    | some false => .error msg.transactionId 400 "Bad Request"
    | some true => done .createPermission msg

def channelBindCall (host : Host) (env : Env) (m : AllocationManager) (msg : TurnMessage)
    (client : Endpoint) : Call :=
  match m.find m.byClient client with
  | none => .error msg.transactionId 437 "Allocation Mismatch"
  | some (_, alloc) =>
    match msg.findAttr AttrType.channelNumber, msg.findAttr AttrType.xorPeerAddress with
    | some chAttr, some peerAttr =>
      let channelNum := be16 (byteAt chAttr.value 0) (byteAt chAttr.value 1)
      let peer := peerEndpoint host peerAttr.value
      if chAttr.value.length < 2 ∨ peerAttr.value.length < 8 then
        .error msg.transactionId 400 "Bad Request"
      else if channelNum < 0x4000 ∨ channelNum > 0x4FFF then
        .error msg.transactionId 400 "Bad Request"
      else if isDeniedAddress host peer.address then .error msg.transactionId 403 "Forbidden"
      else if channelConflict env.order alloc channelNum peer then
        .error msg.transactionId 400 "Bad Request"
      else done .channelBind msg
    | _, _ => .error msg.transactionId 400 "Bad Request"

/-- The response of the second `switch` of `handleStun`. -/
def requestCall (host : Host) (cfg : Config) (env : Env) (m : AllocationManager)
    (msg : TurnMessage) (sender : Endpoint) : Call :=
  match msg.method with
  | .allocate => allocateCall host cfg.manager env m msg sender (usernameOf msg)
  | .refresh => refreshCall m msg sender (usernameOf msg)
  | .createPermission => createPermissionCall host env m msg sender
  | .channelBind => channelBindCall host env m msg sender
  | _ => .error msg.transactionId 400 "Bad Request"

theorem handleAllocate_call (cfg : ManagerConfig) (username realm : Bytes) :
    (handleAllocate host cfg env m msg client username realm).2 =
      (allocateCall host cfg env m msg client username).build := by
  unfold handleAllocate allocateCall
  by_cases taken : (m.byClient.lookup (endpointKey client)).isSome
  · rw [if_pos taken, if_pos taken]
    rfl
  rw [if_neg taken, if_neg taken]
  cases msg.findAttr AttrType.requestedTransport with
  | none => rfl
  | some rt =>
    simp only
    by_cases transport : rt.value.length < 4 ∨ byteAt rt.value 0 ≠ 17
    · rw [if_pos transport, if_pos transport]
      rfl
    rw [if_neg transport, if_neg transport]
    by_cases quota : m.userCount env.order username ≥ cfg.maxAllocPerUser
    · rw [if_pos quota, if_pos quota]
      rfl
    rw [if_neg quota, if_neg quota]
    generalize allocatePort cfg env.draws m.usedPorts = result
    obtain ⟨drawn, usedPorts⟩ := result
    cases drawn with
    | none => rfl
    | some relayPort => rfl

theorem handleRefresh_call (username : Bytes) :
    (handleRefresh env m msg client username).2 =
      (refreshCall m msg client username).build := by
  unfold handleRefresh refreshCall
  cases m.find m.byClient client with
  | none => rfl
  | some found =>
    obtain ⟨p, alloc⟩ := found
    simp only
    by_cases foreign : alloc.username ≠ username
    · rw [if_pos foreign, if_pos foreign]
      rfl
    rw [if_neg foreign, if_neg foreign]
    split
    · rfl
    · rfl

theorem handleCreatePermission_call :
    (handleCreatePermission host env m msg client).2 =
      (createPermissionCall host env m msg client).build := by
  unfold handleCreatePermission createPermissionCall
  cases m.find m.byClient client with
  | none => rfl
  | some found =>
    obtain ⟨p, alloc⟩ := found
    simp only
    generalize permitPeers host env.now msg.attributes alloc false = result
    obtain ⟨alloc', _ | _ | _⟩ := result
    · rfl
    · rfl
    · rfl

theorem handleChannelBind_call :
    (handleChannelBind host env m msg client).2 =
      (channelBindCall host env m msg client).build := by
  unfold handleChannelBind channelBindCall
  cases m.find m.byClient client with
  | none => rfl
  | some found =>
    obtain ⟨p, alloc⟩ := found
    cases msg.findAttr AttrType.channelNumber with
    | none => rfl
    | some chAttr =>
      cases msg.findAttr AttrType.xorPeerAddress with
      | none => rfl
      | some peerAttr =>
        simp only
        by_cases short : chAttr.value.length < 2 ∨ peerAttr.value.length < 8
        · rw [if_pos short, if_pos short]
          rfl
        rw [if_neg short, if_neg short]
        split
        · rfl
        split
        · rfl
        split
        · rfl
        · rfl

theorem handleRequest_call :
    (handleRequest host cfg env m msg client).2 =
      (requestCall host cfg env m msg client).build := by
  unfold handleRequest requestCall
  cases msg.method with
  | allocate => exact handleAllocate_call cfg.manager (usernameOf msg) cfg.realm
  | refresh => exact handleRefresh_call (usernameOf msg)
  | createPermission => exact handleCreatePermission_call
  | channelBind => exact handleChannelBind_call
  | send => rfl
  | data => rfl
  | unknown => rfl

/-! ## Sizes -/

theorem error_size (tid : TransactionId) (code : UInt16) (reason : String)
    (short : (ascii reason).length ≤ 30) : (Call.error tid code reason).size ≤ 40 := by
  simp only [Call.size, Call.error, encodedSize, attrSize_words, List.map_cons, List.map_nil,
    List.sum_cons, List.sum_nil, List.length_append, List.length_cons, List.length_nil]
  omega

/-- A response that leaves room for a signature. -/
def Short (c : Call) : Prop :=
  c.size ≤ 40 ∧ (c.msgClass = .successResponse ∨ c.msgClass = .errorResponse)

theorem short_error (tid : TransactionId) (code : UInt16) {reason : String}
    (small : (ascii reason).length ≤ 30) : Short (.error tid code reason) :=
  ⟨error_size tid code reason small, .inr rfl⟩

theorem short_done (method : Method) (msg : TurnMessage) : Short (done method msg) :=
  ⟨Nat.zero_le 40, .inl rfl⟩

theorem short_allocated (mcfg : ManagerConfig) (relayPort : UInt16) (lifetime : UInt32) :
    Short (allocated host mcfg msg client relayPort lifetime) := by
  refine ⟨?_, .inl rfl⟩
  rw [allocated_size]
  decide

theorem short_refreshed (msg : TurnMessage) (lifetime : UInt32) :
    Short (refreshed msg lifetime) := by
  refine ⟨?_, .inl rfl⟩
  rw [refreshed_size]
  decide

theorem short_allocateCall (mcfg : ManagerConfig) (username : Bytes) :
    Short (allocateCall host mcfg env m msg client username) := by
  unfold allocateCall
  split
  · exact short_error _ _ (by decide)
  split
  · exact short_error _ _ (by decide)
  split
  · exact short_error _ _ (by decide)
  split
  · exact short_error _ _ (by decide)
  split
  · exact short_error _ _ (by decide)
  · exact short_allocated _ _ _

theorem short_refreshCall (username : Bytes) : Short (refreshCall m msg client username) := by
  unfold refreshCall
  split
  · exact short_error _ _ (by decide)
  split
  · exact short_error _ _ (by decide)
  · exact short_refreshed _ _

theorem short_createPermissionCall : Short (createPermissionCall host env m msg client) := by
  unfold createPermissionCall
  split
  · exact short_error _ _ (by decide)
  split
  · exact short_error _ _ (by decide)
  · exact short_error _ _ (by decide)
  · exact short_done _ _

theorem short_channelBindCall : Short (channelBindCall host env m msg client) := by
  unfold channelBindCall
  split
  · exact short_error _ _ (by decide)
  split
  · simp only
    split
    · exact short_error _ _ (by decide)
    split
    · exact short_error _ _ (by decide)
    split
    · exact short_error _ _ (by decide)
    split
    · exact short_error _ _ (by decide)
    · exact short_done _ _
  · exact short_error _ _ (by decide)

/-- Every response of the handlers is short. -/
theorem short_requestCall : Short (requestCall host cfg env m msg client) := by
  unfold requestCall
  split
  · exact short_allocateCall _ _
  · exact short_refreshCall _
  · exact short_createPermissionCall
  · exact short_channelBindCall
  · exact short_error _ _ (by decide)

end Replies

end Zaza
