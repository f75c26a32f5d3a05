import Zaza.Challenges
import Zaza.ClientView
import Zaza.TurnCredentials

/-!
How a client gets an allocation.

The backend gives it a name and a password in the `iceServers` of a call; the server
gives it a nonce in the challenge that answers its first packet. A nonce stays where
it is for an hour, whatever else the server does in between (`nonce_kept`), and the
password the server computes from the name is the one the backend computed. So a
second packet made of the two is accepted, and what is left to go wrong is what
`handleAllocate` asks for.
-/
namespace Zaza.Handshake
open Zaza StunCodec AllocationManager TurnDispatcher DispatcherSteps RelaySteps AllocationSteps
open Replies OutputLengths Lifetimes Authority Challenges ClientView

/-- A packet that a client makes with a nonce and an entry of `iceServers`. -/
structure Signs (host : Host) (cfg : Config) (server : Json) (nonce data : Bytes)
    (msg : TurnMessage) : Prop where
  parsed : parse data = .ok msg
  request : msg.msgClass ≠ .indication
  realm : (msg.findAttr AttrType.realm).isSome
  challenge : ∃ attr, msg.findAttr AttrType.nonce = some attr ∧ attr.value = nonce
  signed : (msg.findAttr AttrType.messageIntegritySha256).isSome ∨
    (msg.findAttr AttrType.messageIntegrity).isSome
  integrity : ∃ username password, msg.findAttr AttrType.username = some username ∧
    server.stringMember "username" = some username.value ∧
    server.stringMember "credential" = some password ∧
    LongTermCred.integrityHolds host cfg.realm msg data username.value password = true

/-- A step creates an allocation for a client, on a port that was free, and answers with a
success response that the client's integrity check accepts and that names the relayed
address and the lifetime. -/
structure Allocates (host : Host) (cfg : Config) (e : Endpoint) (msg : TurnMessage)
    (server : Json) (t : ServerStep) (via : Transport) (port : UInt16) (resp : Bytes)
    (reply : TurnMessage) : Prop where
  output : t.output = [⟨⟨resp, e, .reply⟩, via⟩]
  parsed : parse resp = .ok reply
  success : reply.msgClass = .successResponse ∧ reply.method = .allocate ∧
    reply.transactionId = msg.transactionId
  verifies : ∃ username password, server.stringMember "username" = some username ∧
    server.stringMember "credential" = some password ∧
    LongTermCred.verifyMessageIntegrityMd5 host cfg.realm resp username password = true
  relayed : reply.findAttr AttrType.xorRelayedAddress = some ⟨AttrType.xorRelayedAddress,
    MessageBuilder.xorAddress ((host.makeAddressV4 cfg.relayAddress).getD 0) port⟩
  lifetime : lifetimeOf reply = some (grantedLifetime msg)
  free : t.before.manager.usedPorts.lookup port ≠ some true
  stored : t.after.manager.findByClient e = some (fresh cfg.manager t.before.manager e
    (usernameOf msg) cfg.realm port (t.input.2.now + seconds (grantedLifetime msg)))

variable {host : Host} {cfg : Config} {e : Endpoint} {t : ServerStep} {ts : List ServerStep}
  {d : TurnDispatcher} {msg : TurnMessage} {data nonce : Bytes} {via : Transport}

/-! ## The challenge -/

/-- A request without a name is answered with a new nonce. -/
theorem bare_is_challenged (taken : (turnServer host cfg).Takes t)
    (input : t.input.1 = .packet data e via) (parsed : parse data = .ok msg)
    (class_ne : msg.msgClass ≠ .indication) (bare : msg.findAttr AttrType.username = none) :
    ∃ nonce, nonce.length = 32 ∧
      t.after.nonces.lookup nonce = some (t.input.2.now + seconds NonceManager.ttl) ∧
      t.output = [⟨⟨(Call.challenge cfg msg 401 "Unauthorized" nonce).build, e, .reply⟩, via⟩] := by
  obtain ⟨before, ⟨event, env⟩, after, output⟩ := t
  obtain rfl : event = .packet data e via := input
  have result : before.onPacket host cfg env data e via = .ok (after, output) := taken
  have verdict (d : TurnDispatcher) : d.authResult host cfg env msg data e =
      .missingCredentials := by
    simp [authResult, LongTermCred.authenticate, class_ne, bare]
  rw [onPacket_of_parse parsed, handleStun] at result
  simp only [if_neg class_ne, verdict] at result
  obtain ⟨nonce, drawn, stored, sent⟩ := challenge_issues result
  refine ⟨nonce, StreamSafety.drawNonce_length drawn, ?_, sent⟩
  simp only [stored, AList.lookup_insert]

/-- A nonce that is in the store stays there. -/
theorem nonce_kept {before after : List ServerStep} {deadline : TimePoint}
    (run : Run (turnServer host cfg) (before ++ t :: after) d)
    (held : t.after.nonces.lookup nonce = some deadline) :
    d.nonces.lookup nonce = some deadline := by
  obtain ⟨early, taken⟩ := run.split
  refine run.related
    (fun d d' : TurnDispatcher =>
      d.nonces.lookup nonce = some deadline → d'.nonces.lookup nonce = some deadline)
    (fun _ held => held) (fun _ _ _ first second held => second (first held))
    (fun t taken held => ?_)
    (early.step taken) ⟨after, by simp⟩ held
  rcases step_nonces taken with same | ⟨other, _, unused, stored⟩
  · rwa [same]
  · have apart : nonce ≠ other := by
      rintro rfl
      rw [unused] at held
      cases held
    rw [stored, AList.lookup_insert_ne apart, held]

/-! ## The request -/

/-- The server computes the password the backend has issued. -/
theorem password_issued {backend : TurnConfig} (shared : backend.sharedSecret = cfg.sharedSecret)
    (issued : Int) (userId : Bytes) :
    HmacValidator.getPassword host cfg.sharedSecret (Routes.username backend issued userId) =
      Routes.password host backend (Routes.username backend issued userId) := by
  rw [HmacValidator.getPassword, Routes.username, TurnCredentials.find_username]
  simp only [HmacValidator.computeHmac, Routes.password, shared]

theorem signs_accepted {backend : TurnConfig} {issued : Int} {userId : Bytes} {env : Env}
    (shared : backend.sharedSecret = cfg.sharedSecret)
    (fits : -9223372036854775808 ≤ issued + backend.ttl ∧
      issued + backend.ttl ≤ 9223372036854775807)
    (text : Routes.password host backend (Routes.username backend issued userId) ≠ [])
    (signs : Signs host cfg (Routes.iceServer host backend issued userId) nonce data msg)
    (valid : NonceManager.isValid env d.nonces nonce = true)
    (current : env.wall ≤ issued + backend.ttl)
    (owned : msg.method ≠ .allocate → d.allocatedUsername msg e ≠ [] →
      Routes.username backend issued userId = d.allocatedUsername msg e) :
    usernameOf msg = Routes.username backend issued userId ∧
      d.authResult host cfg env msg data e = .ok := by
  obtain ⟨attr, challenge, rfl⟩ := signs.challenge
  obtain ⟨username, password, named, name, credential, integrity⟩ := signs.integrity
  obtain ⟨realm, hasRealm⟩ := Option.isSome_iff_exists.mp signs.realm
  have value : username.value = Routes.username backend issued userId :=
    (Option.some.inj name).symm
  obtain rfl : Routes.password host backend (Routes.username backend issued userId) = password :=
    Option.some.inj credential
  have hasMi : ((msg.findAttr AttrType.messageIntegritySha256).isSome ||
      (msg.findAttr AttrType.messageIntegrity).isSome) = true := by simpa using signs.signed
  refine ⟨by rw [usernameOf_eq named, value], ?_⟩
  have colon := TurnCredentials.find_username (issued + backend.ttl) userId
  have number : stoll ((Routes.username backend issued userId).take
      (toStringInt (issued + backend.ttl)).length) = some (issued + backend.ttl) := by
    rw [Routes.username, List.take_left, stoll_toStringInt fits]
  have same := @password_issued host cfg backend shared issued userId
  rw [authResult, LongTermCred.authenticate, if_neg signs.request]
  simp only [named, hasRealm, challenge, hasMi, ↓reduceIte]
  rw [value] at integrity ⊢
  unfold LongTermCred.authenticateWith
  rw [valid, show find (Routes.username backend issued userId) 58 = _ from colon]
  simp only [Bool.not_true, Bool.false_eq_true, ↓reduceIte, number, same, text, integrity,
    not_lt.mpr current]
  rw [if_neg]
  rintro ⟨other, nonempty, differs⟩
  exact differs (owned other nonempty)

/-! ## The allocation -/

/-- An Allocate that passes the check and finds what it asks for. -/
theorem allocate_granted (asked : request host cfg e t = some msg)
    (taken : (turnServer host cfg).Takes t) (isAllocate : msg.method = .allocate)
    (admits : Admits cfg.manager t.input.2 t.before.manager msg e)
    (quota : t.before.manager.userCount t.input.2.order (usernameOf msg) <
      cfg.manager.maxAllocPerUser) :
    ∃ port, t.before.manager.usedPorts.lookup port ≠ some true ∧
      requestCall host cfg t.input.2 t.before.manager msg e =
        Replies.allocated host cfg.manager msg e port (grantedLifetime msg) ∧
      t.after.manager.findByClient e = some (fresh cfg.manager t.before.manager e
        (usernameOf msg) cfg.realm port (t.input.2.now + seconds (grantedLifetime msg))) := by
  obtain ⟨absent, ⟨rt, transport, long, udp⟩, found⟩ := admits
  obtain full | ⟨port, free, unused, _⟩ :=
    tryPorts_spec cfg.manager t.input.2.draws 1000 0 t.before.manager.usedPorts
  · simp [allocatePort, full] at found
  have refused : ¬ (rt.value.length < 4 ∨ byteAt rt.value 0 ≠ 17) := by
    simp [udp, long]
  refine ⟨port, unused, ?_, ?_⟩
  · rw [requestCall, isAllocate]
    simp [allocateCall, absent, transport, refused, UInt32.not_le.mpr quota, allocatePort, free]
  · have after : t.after.manager = t.before.manager.create (fresh cfg.manager t.before.manager e
        (usernameOf msg) cfg.realm port (t.input.2.now + seconds (grantedLifetime msg)))
        (t.before.manager.usedPorts.insert port true) := by
      rw [request_manager asked taken, handleRequest, isAllocate]
      simp only [handleAllocate, absent, transport, refused, UInt32.not_le.mpr quota, allocatePort,
        free, Option.isSome_none, Bool.false_eq_true, ↓reduceIte]
      rfl
    rw [after]
    exact (find_create _ _).1

/-- The signed response to it, as the client reads and checks it. -/
theorem allocated_read (username password : Bytes) (port : UInt16) :
    ∃ resp reply, resp = signResponse host cfg (Replies.allocated host cfg.manager msg e port
        (grantedLifetime msg)).build username password ∧ parse resp = .ok reply ∧
      (reply.msgClass = .successResponse ∧ reply.method = .allocate ∧
        reply.transactionId = msg.transactionId) ∧
      LongTermCred.verifyMessageIntegrityMd5 host cfg.realm resp username password = true ∧
      reply.findAttr AttrType.xorRelayedAddress = some ⟨AttrType.xorRelayedAddress,
        MessageBuilder.xorAddress ((host.makeAddressV4 cfg.relayAddress).getD 0) port⟩ ∧
      lifetimeOf reply = some (grantedLifetime msg) := by
  generalize called : Replies.allocated host cfg.manager msg e port (grantedLifetime msg) = call
  have size : call.size = 32 := by
    rw [← called]
    exact allocated_size _ _ _
  have success : call.method = .allocate ∧ call.msgClass = .successResponse ∧
      call.tid = msg.transactionId := by
    rw [← called]
    exact ⟨rfl, rfl, rfl⟩
  have others : ∀ attr ∈ call.attrs, attr.type ≠ AttrType.messageIntegrity := by
    rw [← called]
    intro attr member
    simp only [Replies.allocated, List.mem_cons, List.not_mem_nil, or_false] at member
    rcases member with rfl | rfl | rfl
    · exact (by decide : AttrType.xorRelayedAddress ≠ AttrType.messageIntegrity)
    · exact (by decide : AttrType.xorMappedAddress ≠ AttrType.messageIntegrity)
    · exact (by decide : AttrType.lifetime ≠ AttrType.messageIntegrity)
  obtain ⟨behind, ⟨reply, parsed, method, class_eq, tid, attrs, _⟩, _⟩ :=
    @Made.exact_answer host cfg call username password (by omega) (.inl success.2.1)
  have found (type : AttrType) : reply.findAttr type = findAttr (call.attrs ++ behind) type := by
    rw [TurnMessage.findAttr, attrs]
  have verified := @Signing.verify_signed host cfg call.method call.tid call.attrs username
    password (show call.size + 24 ≤ 65535 by omega) others
  have response : Signing.response call.method call.tid call.attrs = addAttrs
      (MessageBuilder.new call.method call.msgClass call.tid) call.attrs := by
    rw [success.2.1, Signing.response]
  rw [response] at verified
  subst called
  exact ⟨_, reply, rfl, parsed, ⟨class_eq, method, tid⟩, verified, found _,
    lifetimeOf_bytes32 (found _)⟩

/-- The challenge to a packet, as the client reads it. -/
theorem challenge_read (length : nonce.length = 32) (realm : cfg.realm.length ≤ 65472) :
    ∃ reply, parse (Call.challenge cfg msg 401 "Unauthorized" nonce).build = .ok reply ∧
      reply.msgClass = .errorResponse ∧ reply.transactionId = msg.transactionId ∧
      reply.findAttr AttrType.realm = some ⟨AttrType.realm, cfg.realm⟩ ∧
      reply.findAttr AttrType.nonce = some ⟨AttrType.nonce, nonce⟩ := by
  have size : (Call.challenge cfg msg 401 "Unauthorized" nonce).size ≤ 65535 :=
    (challenge_fits (show challengeOf .missingCredentials = some (401, "Unauthorized") from rfl)
      length msg).mpr realm
  obtain ⟨reply, parsed, _, class_eq, tid, attrs, _⟩ := (Call.read_back_iff _).mpr size
  rw [List.append_nil] at attrs
  have found (type : AttrType) : reply.findAttr type =
      findAttr (Call.challenge cfg msg 401 "Unauthorized" nonce).attrs type := by
    rw [TurnMessage.findAttr, attrs]
  exact ⟨reply, parsed, class_eq, tid, found _, found _⟩

/-- **Two packets make an allocation.** In every run, a request without a name is answered
with a nonce that the client can read. Whatever happens in the hour after it, an Allocate
that carries this nonce, signed with the credentials that the backend has issued and that
have not run out, is accepted; and if its client has no allocation, it asks for UDP, its
user is below the quota and a free port is found, it is granted one. -/
theorem handshake_allocates (host : Host) (cfg : Config) (backend : TurnConfig)
    (shared : backend.sharedSecret = cfg.sharedSecret) (realm : cfg.realm.length ≤ 65472)
    (issued : Int) (userId : Bytes)
    (fits : -9223372036854775808 ≤ issued + backend.ttl ∧
      issued + backend.ttl ≤ 9223372036854775807)
    (text : Routes.password host backend (Routes.username backend issued userId) ≠ [])
    {before after : List ServerStep} {t₀ : ServerStep} {d : TurnDispatcher}
    (run : Run (turnServer host cfg) (before ++ t₀ :: after) d)
    {data₀ : Bytes} {e₀ : Endpoint} {via₀ : Transport} {msg₀ : TurnMessage}
    (first : t₀.input.1 = .packet data₀ e₀ via₀) (parsed : parse data₀ = .ok msg₀)
    (class_ne : msg₀.msgClass ≠ .indication) (bare : msg₀.findAttr AttrType.username = none) :
    ∃ resp reply nonce, t₀.output = [⟨⟨resp, e₀, .reply⟩, via₀⟩] ∧ parse resp = .ok reply ∧
      reply.msgClass = .errorResponse ∧ reply.transactionId = msg₀.transactionId ∧
      reply.findAttr AttrType.realm = some ⟨AttrType.realm, cfg.realm⟩ ∧
      reply.findAttr AttrType.nonce = some ⟨AttrType.nonce, nonce⟩ ∧
      ∀ (t : ServerStep) data e via msg, (turnServer host cfg).Takes t → t.before = d →
        t.input.1 = .packet data e via →
        Signs host cfg (Routes.iceServer host backend issued userId) nonce data msg →
        t.input.2.now < t₀.input.2.now + seconds NonceManager.ttl →
        t.input.2.wall ≤ issued + backend.ttl → msg.method = .allocate →
        request host cfg e t = some msg ∧
        (Admits cfg.manager t.input.2 d.manager msg e →
          d.manager.userCount t.input.2.order (Routes.username backend issued userId) <
            cfg.manager.maxAllocPerUser →
          ∃ port resp reply, Allocates host cfg e msg (Routes.iceServer host backend issued userId)
            t via port resp reply) := by
  obtain ⟨early, taken₀⟩ := run.split
  obtain ⟨nonce, length, held, answered⟩ :=
    bare_is_challenged taken₀ first parsed class_ne bare
  obtain ⟨reply, read, isError, tid, hasRealm, hasNonce⟩ :=
    @challenge_read cfg msg₀ nonce length realm
  refine ⟨_, reply, nonce, answered, read, isError, tid, hasRealm, hasNonce, ?_⟩
  rintro t data e via msg taken rfl input signs young current isAllocate
  have valid : NonceManager.isValid t.input.2 t.before.nonces nonce = true := by
    rw [NonceManager.isValid, nonce_kept run held]
    simpa using young
  obtain ⟨name, accepted⟩ := @signs_accepted host cfg e t.before msg data nonce backend issued
    userId t.input.2 shared fits text signs valid current (fun other => absurd isAllocate other)
  have asked : request host cfg e t = some msg :=
    request_eq_some.mpr ⟨data, via, input, signs.parsed, signs.request, accepted⟩
  refine ⟨asked, fun admits quota => ?_⟩
  rw [← name] at quota
  obtain ⟨port, free, call, stored⟩ := allocate_granted asked taken isAllocate admits quota
  obtain ⟨data', via', input', output⟩ := request_output asked taken
  obtain ⟨rfl, _, rfl⟩ := Event.packet.inj (input.symm.trans input')
  rw [call, name, password_issued shared issued userId] at output
  obtain ⟨resp, granted, rfl, read, success, verified, relayed, lifetime⟩ := @allocated_read host
    cfg e msg (Routes.username backend issued userId)
    (Routes.password host backend (Routes.username backend issued userId)) port
  exact ⟨port, _, granted, output, read, success, ⟨_, _, rfl, rfl, verified⟩, relayed, lifetime,
    free, stored⟩

/-- The backend that shares the deployment's secret. -/
def backend : TurnConfig := ⟨ascii "turn.example", 3478, 5349, ascii "secret", 3600⟩

/-- The first account, with credentials of an hour before they run out. -/
theorem handshake_allocates_alice :
    ∃ ts d, Run (turnServer Deployment.host Deployment.config) ts d ∧ ∃ t ∈ ts,
      ∃ msg port resp reply, Allocates Deployment.host Deployment.config Deployment.aliceAddr msg
        (Routes.iceServer Deployment.host backend 9999996399 (ascii "alice")) t .udp port resp
        reply := by
  let M := turnServer Deployment.host Deployment.config
  let server := Routes.iceServer Deployment.host backend 9999996399 (ascii "alice")
  let username := Routes.username backend 9999996399 (ascii "alice")
  let env := Deployment.surroundings 0
  let bare := (MessageBuilder.new .allocate .request (Vector.replicate 12 0)).build
  let second := Deployment.signed (Deployment.allocateBy Deployment.alice 1)
    Deployment.allocateAliceMac
  obtain ⟨msg₀, parsed₀, check₀⟩ := @exists_of_check _ _ (parse bare) (fun msg =>
    msg.msgClass ≠ .indication ∧ msg.findAttr AttrType.username = none) (by decide +kernel)
  obtain ⟨class₀, bare₀⟩ := of_decide_eq_true check₀
  obtain ⟨⟨d, output⟩, first, reached⟩ := @exists_of_check _ _
    (M.step M.init (.packet bare Deployment.aliceAddr .udp, env))
    (fun after =>
      (M.step after.1 (.packet second Deployment.aliceAddr .udp, env)).toOption.isSome ∧
      after.1.manager.byClient.lookup (endpointKey Deployment.aliceAddr) = none ∧
      (allocatePort Deployment.config.manager env.draws after.1.manager.usedPorts).1.isSome ∧
      after.1.manager.userCount env.order username < 10 ∧
      after.2.map (fun sent => (parse sent.data).toOption.bind fun reply =>
        reply.findAttr AttrType.nonce) = [some ⟨AttrType.nonce, Deployment.nonce⟩])
    (by decide +kernel)
  obtain ⟨steps, absent, port, quota, sent⟩ := of_decide_eq_true reached
  obtain ⟨msg, parsed, check⟩ := @exists_of_check _ _ (parse second) (fun msg =>
      msg.msgClass ≠ .indication ∧ (msg.findAttr AttrType.realm).isSome ∧
      msg.findAttr AttrType.nonce = some ⟨AttrType.nonce, Deployment.nonce⟩ ∧
      (msg.findAttr AttrType.messageIntegrity).isSome ∧
      msg.findAttr AttrType.username = some ⟨AttrType.username, username⟩ ∧
      LongTermCred.integrityHolds Deployment.host Deployment.config.realm msg second username
        (Routes.password Deployment.host backend username) = true ∧
      msg.method = .allocate ∧ msg.findAttr AttrType.requestedTransport =
        some ⟨AttrType.requestedTransport, [17, 0, 0, 0]⟩)
    (by decide +kernel)
  obtain ⟨class_ne, realm, challenge, signed, named, integrity, isAllocate, udp⟩ :=
    of_decide_eq_true check
  have run : Run M ([] ++ [⟨M.init, (.packet bare Deployment.aliceAddr .udp, env), d, output⟩]) d :=
    Run.start.step first
  obtain ⟨resp, reply, nonce, answered, read, _, _, _, carried, granted⟩ :=
    handshake_allocates Deployment.host Deployment.config backend rfl (by decide +kernel) 9999996399
      (ascii "alice") (by decide) (by decide +kernel) run rfl parsed₀ class₀ bare₀
  obtain rfl : nonce = Deployment.nonce := by
    have answered : output = [⟨⟨resp, Deployment.aliceAddr, .reply⟩, .udp⟩] := answered
    simpa [answered, read, Except.toOption, carried] using sent
  obtain ⟨⟨d', output'⟩, last⟩ : ∃ result,
      M.step d (.packet second Deployment.aliceAddr .udp, env) = .ok result := by
    cases stepped : M.step d (.packet second Deployment.aliceAddr .udp, env) with
    | error failed => simp [stepped, Except.toOption] at steps
    | ok result => exact ⟨result, rfl⟩
  obtain ⟨port, resp, reply, allocates⟩ := (granted
    ⟨d, (.packet second Deployment.aliceAddr .udp, env), d', output'⟩ second Deployment.aliceAddr
    .udp msg last rfl rfl
    ⟨parsed, class_ne, realm, ⟨_, challenge, rfl⟩, .inr signed, ⟨_, _, named, rfl, rfl, integrity⟩⟩
    (show env.now < env.now + seconds NonceManager.ttl by decide)
    (show env.wall ≤ 9999996399 + backend.ttl by decide) isAllocate).2
    ⟨absent, ⟨_, udp, by decide, by decide⟩, port⟩ quota
  exact ⟨_, d', run.step last, _, by simp, msg, port, resp, reply, allocates⟩

end Zaza.Handshake
