import Zaza.Replies
import Zaza.ChannelExpiry

/-!
Sixteen bits of length, on the way out.

The server writes three kinds of packets for its clients: messages as the builder
leaves them, signed responses and ChannelData. Each casts sizes to `uint16_t`. What is
put into a ChannelData frame came out of one, or out of an attribute, so its length
fits; a Data indication puts the same payload next to an address, and a challenge
carries the configured realm. `lengths_exact_iff` says for which packets this ends
beyond sixteen bits.
-/
namespace Zaza

/-- A packet for a client, by what was put into it. -/
inductive Made where
  | message (c : Call)
  | answer (c : Call) (username password : Bytes)
  | channelData (num : UInt16) (payload : Bytes)

namespace Made
open StunCodec TurnDispatcher

/-- The packet as it is sent. -/
def bytes (host : Host) (cfg : Config) : Made → Bytes
  | .message c => c.build
  | .answer c username password => signResponse host cfg c.build username password
  | .channelData num payload => makeChannelData num payload

/-- The lengths in the packet are the true ones. A message is read back as what was
added to it, a signed success response with the MESSAGE-INTEGRITY behind; a ChannelData
frame is its header, as many bytes as the header says, and the padding. -/
def Exact (host : Host) (cfg : Config) : Made → Prop
  | .message c => c.ReadBack c.build []
  | .answer c username password =>
    ∃ behind, c.ReadBack (signResponse host cfg c.build username password) behind ∧
      if c.msgClass = .successResponse then
        ∃ integrity : Attribute, integrity.type = AttrType.messageIntegrity ∧
          integrity.value.length = 20 ∧ behind = [integrity]
      else behind = []
  | .channelData num payload =>
    word16 (makeChannelData num payload) 0 = num ∧
      (word16 (makeChannelData num payload) 2).toNat = payload.length ∧
      (makeChannelData num payload).length = 4 + payload.length + padding payload.length ∧
      slice (makeChannelData num payload) 4 payload.length = payload

variable {host : Host} {cfg : Config}

/-- A payload whose length fits its header is framed exactly. -/
theorem exact_channelData (num : UInt16) {payload : Bytes} (small : payload.length < 65536) :
    (channelData num payload).Exact host cfg := by
  have field : word16 (makeChannelData num payload) 2 = payload.length.toUInt16 := be16_bytes16 _
  have inside := slice_append (bytes16 num ++ bytes16 payload.length.toUInt16) payload
    (List.replicate (padding payload.length) 0)
  refine ⟨be16_bytes16 _, by rw [field, toUInt16_toNat small], ?_, ?_⟩
  · rw [makeChannelData_length num small]
  · simpa [makeChannelData, toUInt16_toNat small] using inside

/-- A response that leaves room for the signature is signed exactly. -/
theorem exact_answer {c : Call} (username password : Bytes) (small : c.size + 24 ≤ 65535)
    (response : c.msgClass = .successResponse ∨ c.msgClass = .errorResponse) :
    (answer c username password).Exact host cfg := by
  obtain ⟨method, msgClass, tid, attrs⟩ := c
  rcases response with rfl | rfl
  · have signed := @Signing.signResponse_encoded host cfg method tid attrs username password small
    have long : encodedSize (attrs ++ [Signing.integrityOf host cfg method tid attrs username
        password]) ≤ 65535 := by
      have sum : encodedSize [Signing.integrityOf host cfg method tid attrs username password] =
          24 := by simp [encodedSize, attrSize, Signing.integrityOf, padding]
      simp only [encodedSize, List.map_append, List.sum_append] at sum ⊢
      simp only [Call.size, encodedSize] at small
      omega
    refine ⟨[Signing.integrityOf host cfg method tid attrs username password], ?_, ?_⟩
    · have read := Call.readBack_encoded ⟨method, .successResponse, tid, attrs⟩ _ long
      rwa [← signed] at read
    · exact (if_pos rfl).mpr ⟨_, rfl, by simp [Signing.integrityOf], rfl⟩
  · refine ⟨[], ?_, (if_neg (by simp)).mpr rfl⟩
    rw [show (Call.mk method .errorResponse tid attrs).build = _ from rfl, Call.build,
      Signing.signResponse_error]
    exact (Call.read_back_iff ⟨method, .errorResponse, tid, attrs⟩).mpr (by omega)

end Made

namespace OutputLengths
open StunCodec AllocationManager TurnDispatcher RelaySteps Replies

/-! ## What is written -/

/-- The payload of a relay request, for the client of the local allocation. -/
def handedOver (host : Host) (env : Env) (data : Bytes) (a b : Allocation) (payload : Bytes) :
    List Made :=
  if isChannelData data then
    if peerChannel env.order b a.relayedAddr ≠ 0 then
      [.channelData (peerChannel env.order b a.relayedAddr) payload]
    else match host.makeAddressV4 a.relayedAddr.address with
    | none => []
    | some relayIp => [.message (.indication relayIp a.relayedAddr.port payload)]
  else [.message (.indication ((host.makeAddressV4 a.relayedAddr.address).getD 0)
    a.relayedAddr.port payload)]

/-- The relayed packets of `written`. What goes to an outside peer is raw. -/
def forwarded (host : Host) (env : Env) (m : AllocationManager) (data : Bytes)
    (sender : Endpoint) : List Made :=
  match relayRequest host env m data sender with
  | none => []
  | some (a, peer, payload) =>
    match m.find m.byRelay peer with
    | none => []
    | some (_, b) => handedOver host env data a b payload

/-- The code and the reason of a challenge. -/
def challengeOf : AuthResult → Option (UInt16 × String)
  | .missingCredentials => some (401, "Unauthorized")
  | .staleNonce => some (438, "Stale Nonce")
  | .badIntegrity => some (401, "Unauthorized")
  | .credentialsExpired => some (401, "Unauthorized")
  | .wrongCredentials => none
  | .ok => none

/-- The reply to a message other than an indication. -/
def replied (host : Host) (cfg : Config) (env : Env) (d : TurnDispatcher) (msg : TurnMessage)
    (data : Bytes) (sender : Endpoint) : List Made :=
  match challengeOf (d.authResult host cfg env msg data sender) with
  | some (code, reason) =>
    match drawNonce d.nonces env.randBytes with
    | .ok nonce => [.message (.challenge cfg msg code reason nonce)]
    | .error _ => []
  | none =>
    if d.authResult host cfg env msg data sender = .ok then
      [.answer (requestCall host cfg env d.manager msg sender) (usernameOf msg)
        (HmacValidator.getPassword host cfg.sharedSecret (usernameOf msg))]
    else [.message (.error msg.transactionId 441 "Wrong Credentials")]

/-- What a packet makes the server write to its clients. -/
def written (host : Host) (cfg : Config) (env : Env) (d : TurnDispatcher) (data : Bytes)
    (sender : Endpoint) : List Made :=
  forwarded host env d.manager data sender ++
    match parse data with
    | .ok msg =>
      if msg.msgClass = .indication then [] else replied host cfg env d msg data sender
    | .error _ => []

/-- Packets for clients: all but the raw payloads for outside peers. -/
def forClient (sent : Sent) : Bool :=
  match sent.purpose with
  | .toPeer _ _ => false
  | _ => true

/-- The packets for clients, as bytes. -/
def clientBytes (out : List Sent) : List Bytes := (out.filter forClient).map fun sent => sent.data

/-! ## The condition -/

/-- The payload that a packet hands to a local client in a Data indication. -/
def indicated (host : Host) (env : Env) (m : AllocationManager) (data : Bytes)
    (sender : Endpoint) : Option Bytes :=
  match relayRequest host env m data sender with
  | none => none
  | some (a, peer, payload) =>
    match m.find m.byRelay peer with
    | none => none
    | some (_, b) =>
      if isChannelData data ∧ (peerChannel env.order b a.relayedAddr ≠ 0 ∨
        host.makeAddressV4 a.relayedAddr.address = none) then none
      else some payload

/-- The packet is a request, or a response, that the credentials check answers with a
challenge. -/
def challenged (host : Host) (cfg : Config) (env : Env) (d : TurnDispatcher) (data : Bytes)
    (sender : Endpoint) : Bool :=
  match parse data with
  | .ok msg => msg.msgClass ≠ .indication &&
      (challengeOf (d.authResult host cfg env msg data sender)).isSome
  | .error _ => false

/-- A payload that goes into a Data indication leaves room for the address, and the
realm leaves room for the rest of a challenge if there is one. -/
def Fits (host : Host) (cfg : Config) (env : Env) (d : TurnDispatcher) (data : Bytes)
    (sender : Endpoint) : Prop :=
  (∀ payload, indicated host env d.manager data sender = some payload → payload.length ≤ 65516) ∧
  (challenged host cfg env d data sender = true → cfg.realm.length ≤ 65472)

variable {host : Host} {cfg : Config} {env : Env} {d d' : TurnDispatcher} {data payload : Bytes}
  {sender peer : Endpoint} {via : Transport} {msg : TurnMessage} {out : List Sent}
  {a b : Allocation} {m : AllocationManager}

/-! ## Sizes -/

/-- Sixteen bytes around the padded payload. -/
theorem indication_fits (ip : UInt32) (port : UInt16) (payload : Bytes) :
    (Call.indication ip port payload).size ≤ 65535 ↔ payload.length ≤ 65516 := by
  simp only [Call.size, Call.indication, encodedSize, attrSize_words, List.map_cons,
    List.map_nil, List.sum_cons, List.sum_nil, xorAddress_length]
  omega

/-- Sixty bytes around the padded realm. -/
theorem challenge_fits {verdict : AuthResult} {code : UInt16} {reason : String} {nonce : Bytes}
    (kind : challengeOf verdict = some (code, reason)) (size : nonce.length = 32)
    (msg : TurnMessage) :
    (Call.challenge cfg msg code reason nonce).size ≤ 65535 ↔ cfg.realm.length ≤ 65472 := by
  have short : (ascii reason).length = 11 ∨ (ascii reason).length = 12 := by
    cases verdict with
    | missingCredentials | badIntegrity | credentialsExpired =>
      obtain ⟨_, rfl⟩ := Prod.mk.inj (Option.some.inj kind)
      exact .inr (by decide)
    | staleNonce =>
      obtain ⟨_, rfl⟩ := Prod.mk.inj (Option.some.inj kind)
      exact .inl (by decide)
    | wrongCredentials | ok => cases kind
  simp only [Call.size, Call.challenge, encodedSize, attrSize_words, List.map_cons,
    List.map_nil, List.sum_cons, List.sum_nil, List.length_append, List.length_cons,
    List.length_nil, size]
  omega

/-- What is relayed came out of an attribute or a ChannelData frame. -/
theorem relayRequest_small
    (request : relayRequest host env m data sender = some (a, peer, payload)) :
    payload.length < 65536 := by
  unfold relayRequest at request
  split at request
  · rename_i msg parsed
    split at request
    · unfold sendRequest at request
      split at request
      · rename_i found
        split at request
        · obtain ⟨-, -, rfl⟩ := by simpa using request
          exact parse_small parsed _ (List.mem_of_find?_eq_some found)
        · simp at request
      · simp at request
    · simp at request
  · split at request
    · unfold channelRequest at request
      split at request
      · rename_i ch alloc parsed _
        split at request
        · split at request
          · obtain ⟨-, -, rfl⟩ := by simpa using request
            obtain ⟨_, rfl⟩ := parseChannelData_ok parsed
            have bound := (word16 data 2).toNat_lt
            simp only [slice, List.length_take]
            omega
          · simp at request
        · simp at request
      · simp at request
    · simp at request

/-! ## Exactness -/

/-- What is handed over is exact unless it is a Data indication that is too long. -/
theorem forwarded_exact_iff :
    (∀ made ∈ forwarded host env m data sender, made.Exact host cfg) ↔
      ∀ payload, indicated host env m data sender = some payload → payload.length ≤ 65516 := by
  have single (ip : UInt32) (port : UInt16) (payload : Bytes) :
      (∀ made ∈ [Made.message (.indication ip port payload)], made.Exact host cfg) ↔
        ∀ payload', some payload = some payload' → payload'.length ≤ 65516 := by
    simp only [List.mem_singleton, forall_eq, Option.some.injEq, forall_eq']
    exact (Call.read_back_iff _).trans (indication_fits ip port payload)
  unfold forwarded indicated
  cases request : relayRequest host env m data sender with
  | none => simp
  | some asked =>
    obtain ⟨a, peer, payload⟩ := asked
    simp only
    cases m.find m.byRelay peer with
    | none => simp
    | some entry =>
      obtain ⟨q, b⟩ := entry
      simp only [handedOver]
      cases isChannelData data with
      | false => simpa using single _ _ payload
      | true =>
        by_cases bound : peerChannel env.order b a.relayedAddr ≠ 0
        · have framed := @Made.exact_channelData host cfg
            (peerChannel env.order b a.relayedAddr) payload (relayRequest_small request)
          simpa [bound] using framed
        · cases host.makeAddressV4 a.relayedAddr.address with
          | none => simp [bound]
          | some relayIp => simpa [bound] using single relayIp a.relayedAddr.port payload

/-- A reply is exact unless it is a challenge with too long a realm. -/
theorem replied_exact_iff (drawn : drawNonce d.nonces env.randBytes = .ok nonce ∨
    (challengeOf (d.authResult host cfg env msg data sender)).isSome = false) :
    (∀ made ∈ replied host cfg env d msg data sender, made.Exact host cfg) ↔
      ((challengeOf (d.authResult host cfg env msg data sender)).isSome = true →
        cfg.realm.length ≤ 65472) := by
  unfold replied
  cases kind : challengeOf (d.authResult host cfg env msg data sender) with
  | none =>
    simp only [Option.isSome_none, Bool.false_eq_true, false_implies, iff_true]
    split
    · obtain ⟨small, response⟩ := @short_requestCall host cfg env d.manager msg sender
      rw [List.forall_mem_singleton]
      exact Made.exact_answer _ _ (by omega) response
    · have small := error_size msg.transactionId 441 "Wrong Credentials" (by decide)
      rw [List.forall_mem_singleton]
      exact (Call.read_back_iff _).mpr (by omega)
  | some challenge =>
    obtain ⟨code, reason⟩ := challenge
    rw [kind] at drawn
    have nonce_drawn := drawn.resolve_right (by simp)
    simp only [nonce_drawn, List.mem_singleton, forall_eq, Option.isSome_some, forall_const]
    exact (Call.read_back_iff _).trans
      (challenge_fits kind (StreamSafety.drawNonce_length nonce_drawn) msg)

/-! ## The packets -/

/-- The packets for clients among those a relay request is answered with. -/
theorem clientBytes_relayed :
    clientBytes ((relayed host env m data sender).map fun datagram => (⟨datagram, via⟩ : Sent)) =
      (forwarded host env m data sender).map (Made.bytes host cfg) := by
  unfold relayed forwarded
  cases relayRequest host env m data sender with
  | none => rfl
  | some asked =>
    obtain ⟨a, peer, payload⟩ := asked
    simp only
    cases m.find m.byRelay peer with
    | none => rfl
    | some entry =>
      obtain ⟨q, b⟩ := entry
      simp only [frames, handedOver]
      cases isChannelData data with
      | false => rfl
      | true =>
        simp only [localFrames, ↓reduceIte]
        by_cases bound : peerChannel env.order b a.relayedAddr ≠ 0
        · simp only [if_pos bound]
          rfl
        · simp only [if_neg bound]
          cases host.makeAddressV4 a.relayedAddr.address with
          | none => rfl
          | some relayIp => rfl

/-- The nonce of a challenge was drawn. -/
theorem challenge_taken
    (taken : d.challenge cfg env msg sender via code reason = .ok (d', out)) :
    ∃ nonce, drawNonce d.nonces env.randBytes = .ok nonce ∧
      clientBytes out = [(Call.challenge cfg msg code reason nonce).build] := by
  unfold challenge NonceManager.generate at taken
  cases drawn : drawNonce d.nonces env.randBytes with
  | error e =>
    rw [drawn] at taken
    cases taken
  | ok nonce =>
    rw [drawn] at taken
    obtain ⟨_, rfl⟩ := Prod.mk.inj (Except.ok.inj taken)
    exact ⟨nonce, rfl, rfl⟩

/-- The reply to a message other than an indication. -/
theorem clientBytes_reply (class_ne : msg.msgClass ≠ .indication)
    (taken : d.handleStun host cfg env msg data sender via = .ok (d', out)) :
    clientBytes out = (replied host cfg env d msg data sender).map (Made.bytes host cfg) ∧
      ((∃ nonce, drawNonce d.nonces env.randBytes = .ok nonce) ∨
        (challengeOf (d.authResult host cfg env msg data sender)).isSome = false) := by
  simp only [handleStun, if_neg class_ne] at taken
  have same : ({ d with currentTransport := some via } : TurnDispatcher).authResult host cfg env
      msg data sender = d.authResult host cfg env msg data sender := rfl
  rw [same] at taken
  unfold replied
  cases verdict : d.authResult host cfg env msg data sender <;> simp only [verdict] at taken
  case missingCredentials | staleNonce | badIntegrity | credentialsExpired =>
    obtain ⟨nonce, drawn, wrote⟩ := challenge_taken taken
    refine ⟨?_, .inl ⟨nonce, drawn⟩⟩
    rw [wrote]
    simp only [challengeOf, show drawNonce d.nonces env.randBytes = .ok nonce from drawn]
    rfl
  case wrongCredentials =>
    obtain ⟨_, rfl⟩ := Prod.mk.inj (Except.ok.inj taken)
    exact ⟨rfl, .inr rfl⟩
  case ok =>
    have resp := @handleRequest_call host cfg env d.manager msg sender
    have some : (requestCall host cfg env d.manager msg sender).build ≠ [] := by
      simp [Call.build, MessageBuilder.build]
    rw [resp, if_pos some] at taken
    obtain ⟨_, rfl⟩ := Prod.mk.inj (Except.ok.inj taken)
    exact ⟨rfl, .inr rfl⟩

/-- The packets for clients are the ones `written` names. -/
theorem written_bytes (taken : d.onPacket host cfg env data sender via = .ok (d', out)) :
    clientBytes out = (written host cfg env d data sender).map (Made.bytes host cfg) := by
  rcases onPacket_cases taken with ⟨msg, parsed, class_ne, stun⟩ | ⟨indication, rfl⟩
  · have quiet : forwarded host env d.manager data sender = [] := by
      simp [forwarded, relayRequest, parsed, class_ne]
    simp only [written, quiet, parsed, if_neg class_ne, List.nil_append]
    exact (clientBytes_reply class_ne stun).1
  · have unanswered : written host cfg env d data sender =
        forwarded host env d.manager data sender := by
      unfold written
      cases parsed : parse data with
      | error e => exact List.append_nil _
      | ok msg => simp [indication msg parsed]
    rw [unanswered]
    exact clientBytes_relayed

/-- Their lengths are exact under the condition. -/
theorem written_exact_iff (taken : d.onPacket host cfg env data sender via = .ok (d', out)) :
    (∀ made ∈ written host cfg env d data sender, made.Exact host cfg) ↔
      Fits host cfg env d data sender := by
  unfold written Fits challenged
  rw [List.forall_mem_append, forwarded_exact_iff]
  apply and_congr_right'
  cases parsed : parse data with
  | error e => simp
  | ok msg =>
    by_cases indication : msg.msgClass = .indication
    · simp [indication]
    · rw [DispatcherSteps.onPacket_of_parse parsed] at taken
      have drawn := (clientBytes_reply indication taken).2
      simp only [ne_eq, indication, not_false_eq_true, decide_true, Bool.true_and]
      rcases drawn with ⟨nonce, drawn⟩ | answered
      · exact replied_exact_iff (.inl drawn)
      · exact @replied_exact_iff _ _ _ _ _ _ _ [] (.inr answered)

/-- **When no length wraps on output.** Every packet written to a client in answer to a
packet has true lengths and is read back as what was put into it, if and only if a payload
it hands over in a Data indication has at most 65516 bytes and, in case it is challenged,
the realm at most 65472. -/
theorem lengths_exact_iff (host : Host) (cfg : Config) (env : Env) (d : TurnDispatcher)
    (data : Bytes) (sender : Endpoint) (via : Transport)
    (taken : d.onPacket host cfg env data sender via = .ok (d', out)) :
    clientBytes out = (written host cfg env d data sender).map (Made.bytes host cfg) ∧
    ((∀ made ∈ written host cfg env d data sender, made.Exact host cfg) ↔
      Fits host cfg env d data sender) :=
  ⟨written_bytes taken, written_exact_iff taken⟩

/-! ## A payload at the limit of ChannelData -/

/-- A ChannelData message asks for what is in it, on its channel. -/
theorem relayRequest_channel {num : UInt16} (valid : 0x4000 ≤ num ∧ num ≤ 0x4FFF)
    (small : payload.length < 65536) :
    relayRequest host env m (makeChannelData num payload) sender =
      (m.findByClient sender).bind fun alloc => (alloc.channels.lookup num).bind fun binding =>
        if alloc.hasPermission env.now binding.peer.address then
          some (alloc, binding.peer, payload)
        else none := by
  have top : byteAt (makeChannelData num payload) 0 &&& 0xC0 = 0x40 :=
    channel_top ⟨valid.1, UInt16.le_trans valid.2 (by decide)⟩
  have read := parseChannelData_makeChannelData valid small []
  rw [List.append_nil] at read
  unfold relayRequest
  cases parsed : parse (makeChannelData num payload) with
  | ok msg => exact absurd parsed (parse_channel _ top msg)
  | error e =>
    simp only [if_pos top, channelRequest, read]
    cases m.findByClient sender with
    | none => rfl
    | some alloc =>
      simp only [Option.bind_some]
      cases alloc.channels.lookup num with
      | none => rfl
      | some binding => rfl

/-- ChannelData messages on one channel differ in the payload they hand over. -/
theorem indicated_channel {num : UInt16} (valid : 0x4000 ≤ num ∧ num ≤ 0x4FFF)
    (small : payload.length < 65536) :
    indicated host env m (makeChannelData num payload) sender =
      (indicated host env m (makeChannelData num []) sender).map fun _ => payload := by
  have channel (payload : Bytes) := (ChannelExpiry.makeChannelData_is_channel
    ⟨valid.1, UInt16.le_trans valid.2 (by decide)⟩ payload).1
  unfold indicated
  rw [relayRequest_channel valid small, relayRequest_channel valid (by simp)]
  simp only [channel]
  cases m.findByClient sender with
  | none => rfl
  | some a =>
    simp only [Option.bind_some]
    cases a.channels.lookup num with
    | none => rfl
    | some binding =>
      simp only [Option.bind_some]
      cases a.hasPermission env.now binding.peer.address with
      | false => rfl
      | true =>
        simp only [↓reduceIte]
        cases m.find m.byRelay binding.peer with
        | none => rfl
        | some entry =>
          simp only
          split
          · rfl
          · rfl

/-- The same run over TCP, whose frames may be longer than a datagram. -/
def overTcp (input : Event × Env) : Event × Env :=
  match input with
  | (.packet data sender _, env) => (.packet data sender .tcp, env)
  | (.peerData data peer relayAddr, env) => (.peerData data peer relayAddr, env)

/-- A state in which the first account's channel leads to a local client without one. -/
theorem channel_indicated : ∃ d, Reachable (turnServer Deployment.channelHost Deployment.config) d ∧
    indicated Deployment.channelHost (Deployment.atSecond 2) d.manager
      (makeChannelData 0x4001 []) Deployment.aliceAddr = some [] := by
  obtain ⟨ts, d, run, check⟩ := Run.of_exec (turnServer Deployment.channelHost Deployment.config)
    (Deployment.aliceBinds.map overTcp)
    (fun _ d => indicated Deployment.channelHost (Deployment.atSecond 2) d.manager
      (makeChannelData 0x4001 []) Deployment.aliceAddr = some []) (by decide +kernel)
  exact ⟨d, ⟨ts, run⟩, of_decide_eq_true check⟩

/-- A ChannelData message is handled without a challenge and without an exception. -/
theorem onPacket_channel {num : UInt16} (valid : 0x4000 ≤ num ∧ num ≤ 0x4FFF)
    (payload : Bytes) :
    d.onPacket host cfg env (makeChannelData num payload) sender via =
        .ok (d, d.handleChannelData host env (makeChannelData num payload) sender via) ∧
      challenged host cfg env d (makeChannelData num payload) sender = false := by
  have top : byteAt (makeChannelData num payload) 0 &&& 0xC0 = 0x40 :=
    channel_top ⟨valid.1, UInt16.le_trans valid.2 (by decide)⟩
  refine ⟨DispatcherSteps.onPacket_of_channel top, ?_⟩
  unfold challenged
  cases parsed : parse (makeChannelData num payload) with
  | ok msg => exact absurd parsed (parse_channel _ top msg)
  | error e => rfl

/-- Two bytes on the channel are handed over in an exact Data indication. -/
theorem lengths_exact_iff_greeting : ∃ d d' out,
    Reachable (turnServer Deployment.channelHost Deployment.config) d ∧
    d.onPacket Deployment.channelHost Deployment.config (Deployment.atSecond 2)
      Deployment.onChannel Deployment.aliceAddr .tcp = .ok (d', out) ∧
    ∀ made ∈ written Deployment.channelHost Deployment.config (Deployment.atSecond 2) d
      Deployment.onChannel Deployment.aliceAddr,
        made.Exact Deployment.channelHost Deployment.config := by
  obtain ⟨d, reached, handed⟩ := channel_indicated
  obtain ⟨taken, calm⟩ := @onPacket_channel Deployment.channelHost Deployment.config
    (Deployment.atSecond 2) d Deployment.aliceAddr .tcp 0x4001 (by decide) [104, 105]
  refine ⟨d, _, _, reached, taken, (lengths_exact_iff _ _ _ _ _ _ _ taken).2.mpr ⟨?_, ?_⟩⟩
  · intro payload given
    rw [indicated_channel (by decide) (by decide), handed] at given
    obtain rfl := Option.some.inj given
    decide
  · rw [calm]
    intro challenged
    cases challenged

/-- A ChannelData message of 65517 bytes, for a client without a channel of its own: the
indication takes 65536 bytes of attributes, which its length field counts as none. -/
theorem indication_wraps : ¬ ∀ host cfg d, Reachable (turnServer host cfg) d →
    ∀ env data sender via d' out, d.onPacket host cfg env data sender via = .ok (d', out) →
      ∀ made ∈ written host cfg env d data sender, made.Exact host cfg := by
  intro exact
  obtain ⟨d, reached, handed⟩ := channel_indicated
  have size : (List.replicate 65517 (0 : UInt8)).length = 65517 := List.length_replicate
  obtain ⟨taken, _⟩ := @onPacket_channel Deployment.channelHost Deployment.config
    (Deployment.atSecond 2) d Deployment.aliceAddr .tcp 0x4001 (by decide)
    (List.replicate 65517 0)
  have fits := (written_exact_iff taken).mp (exact _ _ d reached _ _ _ _ _ _ taken)
  have given : indicated Deployment.channelHost (Deployment.atSecond 2) d.manager
      (makeChannelData 0x4001 (List.replicate 65517 0)) Deployment.aliceAddr =
        some (List.replicate 65517 0) := by
    rw [indicated_channel (by decide) (by omega), handed]
    rfl
  have short := fits.1 _ given
  omega

end OutputLengths

end Zaza
