import Zaza.DispatcherSteps

/-!
How the server answers: what it sends back for a STUN message that is not an
indication.

There is always exactly one answer, unless `RAND_bytes` fails while a nonce is
drawn for a challenge (`onPacket_answers`, `onPacket_throws`). That holds for
responses too, so the server answers responses. A challenge and a success go by
the method of the message (`OwnName`); every other error is made by `makeError`
and goes by Allocate.
-/
namespace Zaza.Responses
open Zaza StunCodec AllocationManager AllocationSteps TurnDispatcher DispatcherSteps

variable {host : Host} {cfg : Config} {env : Env} {d : TurnDispatcher} {data : Bytes}
  {sender : Endpoint} {via : Transport} {msg : TurnMessage} {m : AllocationManager}
  {method : Method} {msgClass : MessageClass} {tid : TransactionId} {resp : Bytes}

/-! ## Headers -/

/-- A message with this header, whose length field is not too long. -/
def Headed (method : Method) (msgClass : MessageClass) (tid : TransactionId) (resp : Bytes) :
    Prop :=
  ∃ (length : UInt16) (rest : Bytes), length.toNat ≤ rest.length ∧
    resp = bytes16 (MessageBuilder.encodeType method msgClass) ++ (bytes16 length ++
      ([0x21, 0x12, 0xA4, 0x42] ++ (tid.toList ++ rest)))

private theorem toUInt16_le (n : Nat) : n.toUInt16.toNat ≤ n := by
  simp only [Nat.toUInt16, UInt16.toNat_ofNat']
  exact Nat.mod_le n _

/-- Whatever is built has the header the builder was made with. -/
theorem headed_build (b : MessageBuilder)
    (type : b.msgType = MessageBuilder.encodeType method msgClass) :
    Headed method msgClass b.transactionId b.build :=
  ⟨_, b.attrsBuf, toUInt16_le _, by rw [MessageBuilder.build, type]⟩

theorem headed_makeError (tid : TransactionId) (code : UInt16) (reason : String) :
    Headed .allocate .errorResponse tid (makeError tid code reason) :=
  headed_build _ rfl

theorem Headed.word16 (headed : Headed method msgClass tid resp) :
    word16 resp 0 = MessageBuilder.encodeType method msgClass := by
  obtain ⟨length, rest, _, rfl⟩ := headed
  exact be16_bytes16 _

theorem Headed.parse (headed : Headed method msgClass tid resp) :
    ∃ answer, parse resp = .ok answer ∧ answer.msgClass = msgClass ∧
      answer.transactionId = tid := by
  obtain ⟨length, rest, fits, shape⟩ := headed
  exact ⟨_, parse_header method msgClass length tid rest fits shape, rfl, rfl⟩

theorem Headed.methodBits (headed : Headed method msgClass tid resp) :
    methodBits (Zaza.word16 resp 0) = method.code := by
  rw [headed.word16, methodBits_encodeType]

theorem Headed.ne_nil (headed : Headed method msgClass tid resp) : resp ≠ [] := by
  obtain ⟨length, rest, _, rfl⟩ := headed
  simp [bytes16]

/-- The length can be rewritten, and bytes appended to make up for it. -/
theorem Headed.extend (headed : Headed method msgClass tid resp) (len : UInt16) (tail : Bytes)
    (fits : len.toNat ≤ resp.length - 20 + tail.length) :
    Headed method msgClass tid (setLength resp len ++ tail) := by
  obtain ⟨length, rest, _, rfl⟩ := headed
  have size : (bytes16 (MessageBuilder.encodeType method msgClass) ++ (bytes16 length ++
      ([0x21, 0x12, 0xA4, 0x42] ++ (tid.toList ++ rest)))).length = 20 + rest.length := by
    simp
    omega
  rw [size] at fits
  refine ⟨len, rest ++ tail, by rw [List.length_append]; omega, ?_⟩
  simp only [setLength_header, List.append_assoc]

/-- Signing keeps the header. -/
theorem Headed.signResponse (headed : Headed method msgClass tid resp)
    (username password : Bytes) :
    Headed method msgClass tid (signResponse host cfg resp username password) := by
  unfold TurnDispatcher.signResponse
  split
  · exact headed
  · split
    · exact headed
    · refine headed.extend _ _ ((toUInt16_le _).trans ?_)
      simp

/-! ## Handlers -/

/-- The peer addresses of a request that are long enough to be read. -/
def peerAttrs (attrs : List Attribute) : List Attribute :=
  attrs.filter fun attr => attr.type = AttrType.xorPeerAddress ∧ 8 ≤ attr.value.length

/-- What a Refresh, CreatePermission or ChannelBind must meet to be carried out. -/
def Accepts (host : Host) (env : Env) (m : AllocationManager) (msg : TurnMessage)
    (client : Endpoint) : Prop :=
  match msg.method with
  | .refresh => ∃ a, m.findByClient client = some a ∧ a.username = usernameOf msg
  | .createPermission => (m.findByClient client).isSome ∧ peerAttrs msg.attributes ≠ [] ∧
      ∀ attr ∈ peerAttrs msg.attributes,
        isDeniedAddress host (host.addressToString (peerIp attr.value)) = false
  | .channelBind => ∃ a chAttr peerAttr, m.findByClient client = some a ∧
      msg.findAttr AttrType.channelNumber = some chAttr ∧
      msg.findAttr AttrType.xorPeerAddress = some peerAttr ∧
      2 ≤ chAttr.value.length ∧ 8 ≤ peerAttr.value.length ∧
      0x4000 ≤ be16 (byteAt chAttr.value 0) (byteAt chAttr.value 1) ∧
      be16 (byteAt chAttr.value 0) (byteAt chAttr.value 1) ≤ 0x4FFF ∧
      isDeniedAddress host (peerEndpoint host peerAttr.value).address = false ∧
      channelConflict env.order a (be16 (byteAt chAttr.value 0) (byteAt chAttr.value 1))
        (peerEndpoint host peerAttr.value) = false
  | _ => False

/-- The answer of a handler to a message that is not Allocate: a success in the
message's method if it is accepted, else an error in the name of Allocate. -/
def Answered (host : Host) (env : Env) (m : AllocationManager) (msg : TurnMessage)
    (client : Endpoint) (resp : Bytes) : Prop :=
  Accepts host env m msg client ∧ Headed msg.method .successResponse msg.transactionId resp ∨
    ¬ Accepts host env m msg client ∧ Headed .allocate .errorResponse msg.transactionId resp

theorem handleRefresh_answer (isRefresh : msg.method = .refresh) :
    Answered host env m msg sender (m.handleRefresh env msg sender (usernameOf msg)).2 := by
  unfold handleRefresh Answered Accepts
  simp only [isRefresh, findByClient]
  cases m.find m.byClient sender with
  | none => exact .inr ⟨by simp, headed_makeError _ _ _⟩
  | some entry =>
    obtain ⟨p, alloc⟩ := entry
    by_cases named : alloc.username = usernameOf msg
    · refine .inl ⟨⟨alloc, rfl, named⟩, ?_⟩
      simp only [named, ne_eq, not_true_eq_false, ↓reduceIte]
      exact headed_build _ rfl
    · refine .inr ⟨by simpa using named, ?_⟩
      simp only [named, ne_eq, not_false_eq_true, ↓reduceIte]
      exact headed_makeError _ _ _

/-- How the loop of CreatePermission ends. -/
theorem permitPeers_ends (host : Host) (now : TimePoint) (attrs : List Attribute)
    (a : Allocation) (foundPeer : Bool) :
    (permitPeers host now attrs a foundPeer).2 =
      if (peerAttrs attrs).any fun attr =>
          isDeniedAddress host (host.addressToString (peerIp attr.value)) then none
      else some (foundPeer || !(peerAttrs attrs).isEmpty) := by
  induction attrs generalizing a foundPeer with
  | nil => simp [permitPeers, peerAttrs]
  | cons attr attrs ih =>
    by_cases counts : attr.type = AttrType.xorPeerAddress ∧ 8 ≤ attr.value.length
    · have kept : peerAttrs (attr :: attrs) = attr :: peerAttrs attrs := by
        simp [peerAttrs, counts]
      have long : ¬ attr.value.length < 8 := by omega
      cases denied : isDeniedAddress host (host.addressToString (peerIp attr.value)) with
      | true => simp [permitPeers, counts.1, long, denied, kept]
      | false => simp [permitPeers, counts.1, long, denied, kept, ih]
    · have dropped : peerAttrs (attr :: attrs) = peerAttrs attrs := by
        simp [peerAttrs, counts]
      have skipped : permitPeers host now (attr :: attrs) a foundPeer =
          permitPeers host now attrs a foundPeer := by
        simp only [permitPeers]
        split
        · rfl
        · rename_i isPeer
          rw [if_pos (by grind)]
      rw [skipped, dropped, ih]

theorem handleCreatePermission_answer (isCreate : msg.method = .createPermission) :
    Answered host env m msg sender (m.handleCreatePermission host env msg sender).2 := by
  unfold handleCreatePermission Answered Accepts
  simp only [isCreate, findByClient]
  cases m.find m.byClient sender with
  | none => exact .inr ⟨by simp, headed_makeError _ _ _⟩
  | some entry =>
    obtain ⟨p, alloc⟩ := entry
    have ends := permitPeers_ends host env.now msg.attributes alloc false
    simp only
    split <;> rename_i ended <;> rw [ended] at ends <;> simp only at ends
    · -- A denied address.
      refine .inr ⟨?_, headed_makeError _ _ _⟩
      rintro ⟨_, _, clean⟩
      have none : (peerAttrs msg.attributes).any (fun attr =>
          isDeniedAddress host (host.addressToString (peerIp attr.value))) = false := by
        simpa using clean
      simp [none] at ends
    · -- No address.
      refine .inr ⟨?_, headed_makeError _ _ _⟩
      rintro ⟨_, some, _⟩
      split at ends <;> simp_all
    · refine .inl ⟨?_, headed_build _ rfl⟩
      split at ends <;> simp_all

theorem handleChannelBind_answer (isBind : msg.method = .channelBind) :
    Answered host env m msg sender (m.handleChannelBind host env msg sender).2 := by
  unfold handleChannelBind Answered Accepts
  simp only [isBind, findByClient]
  cases m.find m.byClient sender with
  | none => exact .inr ⟨by simp, headed_makeError _ _ _⟩
  | some entry =>
    obtain ⟨p, alloc⟩ := entry
    cases numbered : msg.findAttr AttrType.channelNumber with
    | none => exact .inr ⟨by simp, headed_makeError _ _ _⟩
    | some chAttr =>
      cases addressed : msg.findAttr AttrType.xorPeerAddress with
      | none => exact .inr ⟨by simp, headed_makeError _ _ _⟩
      | some peerAttr =>
        simp only [Option.map_some, Option.some.injEq]
        split
        · rename_i short
          refine .inr ⟨?_, headed_makeError _ _ _⟩
          rintro ⟨_, _, _, rfl, rfl, rfl, number, address, _⟩
          omega
        · rename_i long
          simp only [not_or, Nat.not_lt] at long
          split
          · rename_i outside
            refine .inr ⟨?_, headed_makeError _ _ _⟩
            rintro ⟨_, _, _, rfl, rfl, rfl, _, _, low, high, _⟩
            exact outside.elim (UInt16.not_lt.mpr low) (UInt16.not_lt.mpr high)
          · rename_i inside
            simp only [not_or, UInt16.not_lt] at inside
            split
            · rename_i denied
              refine .inr ⟨?_, headed_makeError _ _ _⟩
              rintro ⟨_, _, _, rfl, rfl, rfl, _, _, _, _, allowed, _⟩
              simp [denied] at allowed
            · rename_i allowed
              split
              · rename_i conflict
                refine .inr ⟨?_, headed_makeError _ _ _⟩
                rintro ⟨_, _, _, rfl, rfl, rfl, _, _, _, _, _, free⟩
                simp [conflict] at free
              · rename_i free
                exact .inl ⟨⟨alloc, chAttr, peerAttr, rfl, rfl, rfl, long.1, long.2, inside.1,
                  inside.2, by simpa using allowed, by simpa using free⟩, headed_build _ rfl⟩

/-- What `handleRequest` answers. -/
theorem handleRequest_answer (host : Host) (cfg : Config) (env : Env) (m : AllocationManager)
    (sender : Endpoint) (notAllocate : msg.method ≠ .allocate) :
    Answered host env m msg sender (handleRequest host cfg env m msg sender).2 := by
  unfold handleRequest
  split
  · rename_i isAllocate
    exact absurd isAllocate notAllocate
  · rename_i isRefresh
    exact handleRefresh_answer isRefresh
  · rename_i isCreate
    exact handleCreatePermission_answer isCreate
  · rename_i isBind
    exact handleChannelBind_answer isBind
  · refine .inr ⟨?_, headed_makeError _ _ _⟩
    unfold Accepts
    split <;> simp_all

/-- An Allocate is answered in its own name, whatever becomes of it. -/
theorem handleAllocate_answer (host : Host) (env : Env) (m : AllocationManager) (msg : TurnMessage)
    (sender : Endpoint) (mcfg : ManagerConfig) (user realm : Bytes) :
    ∃ msgClass, (msgClass = .successResponse ∨ msgClass = .errorResponse) ∧
      Headed .allocate msgClass msg.transactionId
        (m.handleAllocate host mcfg env msg sender user realm).2 := by
  have failed : ∀ code reason, ∃ msgClass,
      (msgClass = MessageClass.successResponse ∨ msgClass = .errorResponse) ∧
      Headed .allocate msgClass msg.transactionId (makeError msg.transactionId code reason) :=
    fun code reason => ⟨_, .inr rfl, headed_makeError _ code reason⟩
  unfold handleAllocate
  split
  · exact failed _ _
  · split
    · exact failed _ _
    · split
      · exact failed _ _
      · split
        · exact failed _ _
        · split
          · exact failed _ _
          · exact ⟨_, .inl rfl, headed_build _ rfl⟩

/-! ## The dispatcher -/

/-- The verdicts that are answered with a fresh nonce. -/
def isChallenged : AuthResult → Bool
  | .missingCredentials | .staleNonce | .badIntegrity | .credentialsExpired => true
  | .ok | .wrongCredentials => false

/-- `RAND_bytes` comes up with a nonce that is not in use before it fails. -/
def NonceAvailable (env : Env) (store : NonceStore) : Prop :=
  ∃ buf ∈ env.randBytes, store.lookup (hex buf.toList) = none

theorem drawNonce_available {store : NonceStore} {bufs : List (Vector UInt8 16)}
    (available : ∃ buf ∈ bufs, store.lookup (hex buf.toList) = none) :
    ∃ nonce, drawNonce store bufs = .ok nonce := by
  induction bufs with
  | nil => simp at available
  | cons buf bufs ih =>
    rw [drawNonce]
    split
    · rename_i used
      apply ih
      obtain ⟨other, member, unused⟩ := available
      rcases List.mem_cons.mp member with rfl | later
      · simp [unused] at used
      · exact ⟨other, later, unused⟩
    · exact ⟨_, rfl⟩

theorem drawNonce_exhausted {store : NonceStore} {bufs : List (Vector UInt8 16)}
    (exhausted : ¬ ∃ buf ∈ bufs, store.lookup (hex buf.toList) = none) :
    ∃ e, drawNonce store bufs = .error e := by
  induction bufs with
  | nil => exact ⟨_, rfl⟩
  | cons buf bufs ih =>
    have used : (store.lookup (hex buf.toList)).isSome := by
      by_contra unused
      exact exhausted ⟨buf, List.mem_cons_self, by simpa using unused⟩
    rw [drawNonce, if_pos used]
    apply ih
    rintro ⟨other, later, unused⟩
    exact exhausted ⟨other, List.mem_cons_of_mem _ later, unused⟩

private theorem challenge_answers (cfg : Config) (d : TurnDispatcher) (msg : TurnMessage)
    (sender : Endpoint) (via : Transport) (available : NonceAvailable env d.nonces)
    (code : UInt16) (reason : String) :
    ∃ d' resp, d.challenge cfg env msg sender via code reason =
        .ok (d', [⟨⟨resp, sender, .reply⟩, via⟩]) ∧
      Headed msg.method .errorResponse msg.transactionId resp := by
  obtain ⟨nonce, drawn⟩ := drawNonce_available available
  rw [challenge, NonceManager.generate, drawn]
  exact ⟨_, _, rfl, headed_build _ rfl⟩

private theorem challenge_throws (exhausted : ¬ NonceAvailable env d.nonces) (code : UInt16)
    (reason : String) :
    ∃ e, d.challenge cfg env msg sender via code reason = .error e := by
  obtain ⟨e, failed⟩ := drawNonce_exhausted exhausted
  exact ⟨e, by rw [challenge, NonceManager.generate, failed]⟩

/-- Without a fresh nonce a challenge ends in an exception. -/
theorem onPacket_throws (via : Transport) (parsed : parse data = .ok msg)
    (class_ne : msg.msgClass ≠ .indication)
    (challenged : isChallenged (d.authResult host cfg env msg data sender) = true)
    (exhausted : ¬ NonceAvailable env d.nonces) :
    ∃ e, d.onPacket host cfg env data sender via = .error e := by
  rw [onPacket_of_parse parsed, handleStun]
  simp only [if_neg class_ne]
  generalize verdict : ({ d with currentTransport := some via } : TurnDispatcher).authResult host
    cfg env msg data sender = result
  have same : d.authResult host cfg env msg data sender = result := verdict
  rw [same] at challenged
  have throws : ∀ code reason, ∃ e, ({ d with currentTransport := some via } :
      TurnDispatcher).challenge cfg env msg sender via code reason = .error e :=
    challenge_throws exhausted
  cases result with
  | ok => simp [isChallenged] at challenged
  | wrongCredentials => simp [isChallenged] at challenged
  | missingCredentials => exact throws _ _
  | staleNonce => exact throws _ _
  | badIntegrity => exact throws _ _
  | credentialsExpired => exact throws _ _

/-- The message is answered in its own method: with a challenge, or because it
is carried out. -/
def OwnName (host : Host) (cfg : Config) (env : Env) (d : TurnDispatcher) (msg : TurnMessage)
    (data : Bytes) (sender : Endpoint) : Prop :=
  isChallenged (d.authResult host cfg env msg data sender) = true ∨
    d.authResult host cfg env msg data sender = .ok ∧ Accepts host env d.manager msg sender

/-- In all other cases there is exactly one answer, to the sender. -/
theorem onPacket_answers (via : Transport) (parsed : parse data = .ok msg)
    (class_ne : msg.msgClass ≠ .indication)
    (available : isChallenged (d.authResult host cfg env msg data sender) = true →
      NonceAvailable env d.nonces) :
    ∃ d' resp method msgClass, d.onPacket host cfg env data sender via =
        .ok (d', [⟨⟨resp, sender, .reply⟩, via⟩]) ∧
      (msgClass = .successResponse ∨ msgClass = .errorResponse) ∧
      Headed method msgClass msg.transactionId resp ∧
      (OwnName host cfg env d msg data sender ∧ method = msg.method ∨
        ¬ OwnName host cfg env d msg data sender ∧ method = .allocate) := by
  unfold OwnName
  rw [onPacket_of_parse parsed, handleStun]
  simp only [if_neg class_ne]
  generalize verdict : ({ d with currentTransport := some via } : TurnDispatcher).authResult host
    cfg env msg data sender = result
  have same : d.authResult host cfg env msg data sender = result := verdict
  rw [same] at available ⊢
  -- The four challenges differ in code and reason only.
  have challenged : isChallenged result = true → ∀ code reason, ∃ d' resp method msgClass,
      ({ d with currentTransport := some via } : TurnDispatcher).challenge cfg env msg sender via
          code reason = .ok (d', [⟨⟨resp, sender, .reply⟩, via⟩]) ∧
        (msgClass = .successResponse ∨ msgClass = .errorResponse) ∧
        Headed method msgClass msg.transactionId resp ∧
        ((isChallenged result = true ∨ result = .ok ∧ Accepts host env d.manager msg sender) ∧
            method = msg.method ∨
          ¬ (isChallenged result = true ∨ result = .ok ∧ Accepts host env d.manager msg sender) ∧
            method = .allocate) := by
    intro challenged code reason
    obtain ⟨d', resp, sends, headed⟩ := challenge_answers cfg
      { d with currentTransport := some via } msg sender via (available challenged) code reason
    exact ⟨d', resp, msg.method, .errorResponse, sends, .inr rfl, headed,
      .inl ⟨.inl challenged, rfl⟩⟩
  cases result with
  | missingCredentials => exact challenged rfl _ _
  | staleNonce => exact challenged rfl _ _
  | badIntegrity => exact challenged rfl _ _
  | credentialsExpired => exact challenged rfl _ _
  | wrongCredentials =>
    exact ⟨_, _, .allocate, .errorResponse, rfl, .inr rfl, headed_makeError _ _ _,
      .inr ⟨by simp [isChallenged], rfl⟩⟩
  | ok =>
    have answer : ∃ method msgClass, (msgClass = .successResponse ∨ msgClass = .errorResponse) ∧
        Headed method msgClass msg.transactionId
          (handleRequest host cfg env d.manager msg sender).2 ∧
        (Accepts host env d.manager msg sender ∧ method = msg.method ∨
          ¬ Accepts host env d.manager msg sender ∧ method = .allocate) := by
      by_cases isAllocate : msg.method = .allocate
      · obtain ⟨msgClass, kind, headed⟩ := handleAllocate_answer host env d.manager msg
          sender cfg.manager (usernameOf msg) cfg.realm
        refine ⟨.allocate, msgClass, kind, ?_, .inr ⟨by simp [Accepts, isAllocate], rfl⟩⟩
        rw [handleRequest, isAllocate]
        exact headed
      · rcases handleRequest_answer host cfg env d.manager sender isAllocate with
          ⟨accepts, headed⟩ | ⟨refuses, headed⟩
        · exact ⟨_, _, .inl rfl, headed, .inl ⟨accepts, rfl⟩⟩
        · exact ⟨_, _, .inr rfl, headed, .inr ⟨refuses, rfl⟩⟩
    obtain ⟨method, msgClass, kind, headed, named⟩ := answer
    rw [if_pos headed.ne_nil]
    exact ⟨_, _, method, msgClass, rfl, kind, headed.signResponse _ _,
      by simpa [isChallenged] using named⟩

/-! ## Responses -/

/-- Nothing is sent and neither the tables nor the nonces change. An exception
counts as nothing sent. -/
def Ignored (d : TurnDispatcher) (outcome : Except Exn (TurnDispatcher × List Sent)) : Prop :=
  ∀ d' out, outcome = .ok (d', out) → out = [] ∧ d'.manager = d.manager ∧ d'.nonces = d.nonces

/-- **When a response is ignored.** A success or error response is answered like
a request. Nothing is sent only when it is to be challenged and `RAND_bytes`
fails, which throws. -/
theorem response_ignored_iff (host : Host) (cfg : Config) (env : Env) (d : TurnDispatcher)
    (sender : Endpoint) (via : Transport) (parsed : parse data = .ok msg)
    (isResponse : msg.msgClass = .successResponse ∨ msg.msgClass = .errorResponse) :
    Ignored d (d.onPacket host cfg env data sender via) ↔
      isChallenged (d.authResult host cfg env msg data sender) = true ∧
        ¬ NonceAvailable env d.nonces := by
  have class_ne : msg.msgClass ≠ .indication := by
    rcases isResponse with success | error
    · simp [success]
    · simp [error]
  constructor
  · intro ignored
    by_contra answered
    obtain ⟨d', resp, _, _, sends, _⟩ := onPacket_answers via parsed class_ne
      (fun challenged => by_contra fun exhausted => answered ⟨challenged, exhausted⟩)
    have empty := (ignored d' _ sends).1
    simp at empty
  · rintro ⟨challenged, exhausted⟩ d' out sends
    obtain ⟨e, throws⟩ := onPacket_throws via parsed class_ne challenged exhausted
    simp [throws] at sends

/-- An Allocate error response without attributes, and its parse. -/
def bareResponse : Bytes :=
  (MessageBuilder.new .allocate .errorResponse (Vector.replicate 12 1)).build

theorem parse_bareResponse :
    parse bareResponse = .ok ⟨.errorResponse, .allocate, 0, Vector.replicate 12 1, []⟩ := by
  decide +kernel

theorem response_ignored_iff_bare :
    Ignored TurnDispatcher.init (TurnDispatcher.init.onPacket Deployment.host Deployment.config
        (Deployment.surroundings 0) bareResponse Deployment.aliceAddr .udp) ↔
      isChallenged (TurnDispatcher.init.authResult Deployment.host Deployment.config
          (Deployment.surroundings 0) ⟨.errorResponse, .allocate, 0, Vector.replicate 12 1, []⟩
          bareResponse Deployment.aliceAddr) = true ∧
        ¬ NonceAvailable (Deployment.surroundings 0) TurnDispatcher.init.nonces :=
  response_ignored_iff _ _ _ _ _ _ parse_bareResponse (.inr rfl)

/-- The bare response is answered. -/
theorem response_answered : ¬ ∀ host cfg env d data sender via msg, parse data = .ok msg →
    msg.msgClass = .successResponse ∨ msg.msgClass = .errorResponse →
    Ignored d (TurnDispatcher.onPacket host cfg env d data sender via) := by
  intro all
  have ignored := all Deployment.host Deployment.config (Deployment.surroundings 0)
    TurnDispatcher.init bareResponse Deployment.aliceAddr .udp _ parse_bareResponse (.inr rfl)
  have answers : ((TurnDispatcher.init.onPacket Deployment.host Deployment.config
      (Deployment.surroundings 0) bareResponse Deployment.aliceAddr .udp).toOption.any
        fun result => result.2 ≠ []) = true := by decide +kernel
  cases outcome : TurnDispatcher.init.onPacket Deployment.host Deployment.config
      (Deployment.surroundings 0) bareResponse Deployment.aliceAddr .udp with
  | error e => simp [outcome, Except.toOption] at answers
  | ok result =>
    have empty := (ignored result.1 result.2 outcome).1
    simp [outcome, Except.toOption, empty] at answers

/-! ## Requests -/

/-- The method bits that survive decoding and encoding again. -/
def knownBits : List UInt16 := [0x003, 0x004, 0x006, 0x007, 0x008, 0x009, 0xFFF]

theorem code_decodeMethod (msgType : UInt16) :
    (decodeMethod msgType).code = methodBits msgType ↔ methodBits msgType ∈ knownBits := by
  unfold decodeMethod
  split <;> rename_i bits <;> simp_all [Method.code, knownBits, eq_comm]

/-- A method the decoder knows has its own bits. -/
theorem code_of_known (known : decodeMethod msgType ≠ .unknown) :
    (decodeMethod msgType).code = methodBits msgType := by
  unfold decodeMethod at known ⊢
  split <;> simp_all [Method.code]

/-- There is exactly one packet, to the sender, and it is a response with this
transaction id and the method bits of this message type. -/
def Correlates (sender : Endpoint) (tid : TransactionId) (msgType : UInt16)
    (outcome : Except Exn (TurnDispatcher × List Sent)) : Prop :=
  ∃ d' sent, outcome = .ok (d', [sent]) ∧ sent.dest = sender ∧
    ∃ answer, parse sent.data = .ok answer ∧
      (answer.msgClass = .successResponse ∨ answer.msgClass = .errorResponse) ∧
      answer.transactionId = tid ∧ methodBits (word16 sent.data 0) = methodBits msgType

/-- **When a response correlates with its request.** A request is answered in
its own method exactly when a nonce can be drawn if one is needed and, unless
the request is Allocate, it is challenged and its method bits survive decoding,
or it is authenticated and its handler carries it out. -/
theorem request_answered_iff (host : Host) (cfg : Config) (env : Env) (d : TurnDispatcher)
    (sender : Endpoint) (via : Transport) (parsed : parse data = .ok msg)
    (isRequest : msg.msgClass = .request) :
    Correlates sender msg.transactionId (word16 data 0)
        (d.onPacket host cfg env data sender via) ↔
      (isChallenged (d.authResult host cfg env msg data sender) = true →
        NonceAvailable env d.nonces) ∧
      (methodBits (word16 data 0) = 0x003 ∨
        isChallenged (d.authResult host cfg env msg data sender) = true ∧
          methodBits (word16 data 0) ∈ knownBits ∨
        d.authResult host cfg env msg data sender = .ok ∧
          Accepts host env d.manager msg sender) := by
  have class_ne : msg.msgClass ≠ .indication := by simp [isRequest]
  have named : msg.method = decodeMethod (word16 data 0) := by rw [(parse_ok parsed).2]
  constructor
  · rintro ⟨d', sent, sends, _, _, _, _, _, bits⟩
    have available : isChallenged (d.authResult host cfg env msg data sender) = true →
        NonceAvailable env d.nonces := by
      intro challenged
      by_contra exhausted
      obtain ⟨e, throws⟩ := onPacket_throws via parsed class_ne challenged exhausted
      simp [throws] at sends
    refine ⟨available, ?_⟩
    obtain ⟨_, resp, method, _, sends', _, headed, name⟩ :=
      onPacket_answers via parsed class_ne available
    obtain ⟨rfl, rfl⟩ : _ ∧ sent = ⟨⟨resp, sender, .reply⟩, via⟩ := by
      simpa using (Except.ok.inj (sends.symm.trans sends'))
    have code : method.code = methodBits (word16 data 0) := headed.methodBits.symm.trans bits
    rcases name with ⟨challenged | accepted, rfl⟩ | ⟨_, rfl⟩
    · exact .inr (.inl ⟨challenged, (code_decodeMethod _).mp (by rw [← named, code])⟩)
    · exact .inr (.inr accepted)
    · exact .inl code.symm
  · rintro ⟨available, condition⟩
    obtain ⟨d', resp, method, msgClass, sends, kind, headed, name⟩ :=
      onPacket_answers via parsed class_ne available
    obtain ⟨answer, parses, rfl, sameTid⟩ := headed.parse
    refine ⟨d', _, sends, rfl, answer, parses, kind, sameTid, ?_⟩
    rw [headed.methodBits]
    rcases name with ⟨_, rfl⟩ | ⟨foreign, rfl⟩
    · rw [named]
      rcases condition with allocate | ⟨_, known⟩ | ⟨_, accepts⟩
      · exact (code_decodeMethod _).mpr (by simp [allocate, knownBits])
      · exact (code_decodeMethod _).mpr known
      · apply code_of_known
        rw [← named]
        intro unknown
        simp [Accepts, unknown] at accepts
    · rcases condition with allocate | ⟨challenged, _⟩ | accepted
      · exact allocate.symm
      · exact absurd (.inl challenged) foreign
      · exact absurd (.inr accepted) foreign

/-- A Binding request without attributes, and its parse. -/
def bindingRequest : Bytes :=
  [0x00, 0x01, 0x00, 0x00, 0x21, 0x12, 0xA4, 0x42] ++ List.replicate 12 1

theorem parse_bindingRequest :
    parse bindingRequest = .ok ⟨.request, .unknown, 0, Vector.replicate 12 1, []⟩ := by
  decide +kernel

theorem request_answered_iff_binding :
    Correlates Deployment.aliceAddr (Vector.replicate 12 1) (word16 bindingRequest 0)
        (TurnDispatcher.init.onPacket Deployment.host Deployment.config
          (Deployment.surroundings 0) bindingRequest Deployment.aliceAddr .udp) ↔
      (isChallenged (TurnDispatcher.init.authResult Deployment.host Deployment.config
          (Deployment.surroundings 0) ⟨.request, .unknown, 0, Vector.replicate 12 1, []⟩
          bindingRequest Deployment.aliceAddr) = true →
        NonceAvailable (Deployment.surroundings 0) TurnDispatcher.init.nonces) ∧
      (methodBits (word16 bindingRequest 0) = 0x003 ∨
        isChallenged (TurnDispatcher.init.authResult Deployment.host Deployment.config
            (Deployment.surroundings 0) ⟨.request, .unknown, 0, Vector.replicate 12 1, []⟩
            bindingRequest Deployment.aliceAddr) = true ∧
          methodBits (word16 bindingRequest 0) ∈ knownBits ∨
        TurnDispatcher.init.authResult Deployment.host Deployment.config
            (Deployment.surroundings 0) ⟨.request, .unknown, 0, Vector.replicate 12 1, []⟩
            bindingRequest Deployment.aliceAddr = .ok ∧
          Accepts Deployment.host (Deployment.surroundings 0) TurnDispatcher.init.manager
            ⟨.request, .unknown, 0, Vector.replicate 12 1, []⟩ Deployment.aliceAddr) :=
  request_answered_iff _ _ _ _ _ _ parse_bindingRequest rfl

/-- The Binding request is answered in another method. -/
theorem request_answered_elsewhere : ¬ ∀ host cfg env d data sender via msg,
    parse data = .ok msg → msg.msgClass = .request →
    Correlates sender msg.transactionId (word16 data 0)
      (TurnDispatcher.onPacket host cfg env d data sender via) := by
  intro all
  obtain ⟨d', sent, sends, _, _, _, _, _, bits⟩ := all Deployment.host Deployment.config
    (Deployment.surroundings 0) TurnDispatcher.init bindingRequest Deployment.aliceAddr .udp _
    parse_bindingRequest rfl
  have answers : ((TurnDispatcher.init.onPacket Deployment.host Deployment.config
      (Deployment.surroundings 0) bindingRequest Deployment.aliceAddr .udp).toOption.any
        fun result => result.2.any fun sent => methodBits (word16 sent.data 0) =
          methodBits (word16 bindingRequest 0)) = false := by decide +kernel
  simp [sends, Except.toOption, bits] at answers

end Zaza.Responses
