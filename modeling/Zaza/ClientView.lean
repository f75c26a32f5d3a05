import Zaza.Authority
import Zaza.OutputLengths

/-!
What a client knows about its allocation.

A client sees the replies it is sent and when. From the success responses to its
Allocate and Refresh requests alone, and the LIFETIME in them, it can tell whether
the server holds an allocation for it and when that expires (`expiry_is_told`):
no other step creates, moves or drops it, and every step that does tells.
-/
namespace Zaza.ClientView
open Zaza StunCodec AllocationManager AllocationSteps TurnDispatcher DispatcherSteps Replies
open FailedRequests Lifetimes RelaySteps Responses Authority

/-- The LIFETIME in a success response to an Allocate or a Refresh. -/
def lifetimeTold (data : Bytes) : Option UInt32 :=
  match parse data with
  | .ok reply =>
    if reply.msgClass = .successResponse ∧ (reply.method = .allocate ∨ reply.method = .refresh) then
      lifetimeOf reply
    else none
  | .error _ => none

/-- The step handles a message of the client that is no indication. -/
def asks (e : Endpoint) : Event → Bool
  | .packet data sender _ =>
    match parse data with
    | .ok msg => sender = e ∧ msg.msgClass ≠ .indication
    | .error _ => false
  | .peerData .. => false

/-- What a step tells a client about the lifetime of its allocation, in answer to a message
of the client. -/
def told (e : Endpoint) (t : ServerStep) : Option UInt32 :=
  if asks e t.input.1 then
    t.output.findSome? fun sent => if sent.dest = e then lifetimeTold sent.data else none
  else none

/-- What a client makes of it: a new deadline, or none after a lifetime of zero. -/
def view (e : Endpoint) (t : ServerStep) : Option (Lease.Event Unit TimePoint) :=
  (told e t).map fun lifetime =>
    if lifetime = 0 then .revoke () else .grant () (t.input.2.now + seconds lifetime)

/-- When the allocation of a client expires. -/
def expiry (e : Endpoint) (d : TurnDispatcher) : Option TimePoint :=
  (d.manager.findByClient e).map Allocation.expiresAt

variable {host : Host} {cfg : Config} {e : Endpoint} {t : ServerStep} {ts : List ServerStep}
  {d : TurnDispatcher} {msg : TurnMessage}

/-! ## Replies -/

/-- A message that is no success tells nothing. -/
theorem lifetimeTold_error {resp : Bytes} (headed : Headed method .errorResponse tid resp) :
    lifetimeTold resp = none := by
  obtain ⟨answer, parsed, isError, _⟩ := headed.parse
  simp [lifetimeTold, parsed, isError]

/-- What a response tells, by its attributes. -/
def callTells (c : Call) : Option UInt32 :=
  if c.msgClass = .successResponse ∧ (c.method = .allocate ∨ c.method = .refresh) then
    lifetimeOf ⟨c.msgClass, c.method, 0, c.tid, c.attrs⟩
  else none

theorem lifetimeTold_signed {c : Call} (username password : Bytes) (short : Short c) :
    lifetimeTold (signResponse host cfg c.build username password) = callTells c := by
  obtain ⟨size, response⟩ := short
  obtain ⟨behind, ⟨reply, parsed, method, class_eq, _, attrs, _⟩, signature⟩ :=
    @Made.exact_answer host cfg c username password (by omega) response
  simp only [lifetimeTold, callTells, parsed, method, class_eq]
  split
  · rename_i success
    obtain ⟨integrity, type, _, rfl⟩ := (if_pos success.1).mp signature
    have other : integrity.type ≠ AttrType.lifetime := by
      rw [type]
      decide
    have found : reply.findAttr AttrType.lifetime = findAttr c.attrs AttrType.lifetime := by
      rw [TurnMessage.findAttr, attrs, findAttr, findAttr, List.find?_append]
      simp [other]
    rw [lifetimeOf, lifetimeOf, found]
    rfl
  · rfl

/-- A challenge is an error. -/
theorem challenge_headed {via : Transport} {before after : TurnDispatcher} {env : Env}
    {sender : Endpoint} {code : UInt16} {reason : String} {output : List Sent} {sent : Sent}
    (taken : before.challenge cfg env msg sender via code reason = .ok (after, output))
    (member : sent ∈ output) :
    ∃ method tid, Headed method .errorResponse tid sent.data := by
  unfold challenge at taken
  split at taken
  · cases taken
  · obtain ⟨_, rfl⟩ := Prod.mk.inj (Except.ok.inj taken)
    obtain rfl := List.mem_singleton.mp member
    exact ⟨_, _, headed_build _ rfl⟩

theorem handleStun_reply_cases {before after : TurnDispatcher} {env : Env} {data : Bytes}
    {sender : Endpoint} {via : Transport} {output : List Sent} {sent : Sent}
    (parsed : parse data = .ok msg) (class_ne : msg.msgClass ≠ .indication)
    (taken : before.handleStun host cfg env msg data sender via = .ok (after, output))
    (member : sent ∈ output) : (∃ method tid, Headed method .errorResponse tid sent.data) ∨
      (request host cfg sent.dest
        ⟨before, (.packet data sender via, env), after, output⟩).isSome := by
  simp only [handleStun, if_neg class_ne] at taken
  cases verdict : ({ before with currentTransport := some via } : TurnDispatcher).authResult host
      cfg env msg data sender <;> simp only [verdict] at taken
  case missingCredentials | staleNonce | badIntegrity | credentialsExpired =>
    exact .inl (challenge_headed taken member)
  case wrongCredentials =>
    obtain ⟨_, rfl⟩ := Prod.mk.inj (Except.ok.inj taken)
    obtain rfl := List.mem_singleton.mp member
    exact .inl ⟨_, _, headed_makeError _ _ _⟩
  case ok =>
    have dest : sent.dest = sender := by
      split at taken
      · obtain ⟨_, rfl⟩ := Prod.mk.inj (Except.ok.inj taken)
        obtain rfl := List.mem_singleton.mp member
        rfl
      · obtain ⟨_, rfl⟩ := Prod.mk.inj (Except.ok.inj taken)
        simp at member
    refine .inr (Option.isSome_iff_exists.mpr ⟨msg, request_eq_some.mpr ⟨data, via, ?_, parsed,
      class_ne, ?_⟩⟩)
    · rw [dest]
    · rw [dest]
      exact verdict

/-- What a client's message is answered with is an error, or the client's request passed the
credential check. -/
theorem answer_cases (taken : (turnServer host cfg).Takes t) (asked : asks e t.input.1 = true)
    {sent : Sent} (member : sent ∈ t.output) :
    (∃ method tid, Headed method .errorResponse tid sent.data) ∨
      (request host cfg sent.dest t).isSome := by
  obtain ⟨before, ⟨event, env⟩, after, output⟩ := t
  cases event with
  | peerData data peer relayAddr => cases asked
  | packet data sender via =>
    have result : before.onPacket host cfg env data sender via = .ok (after, output) := taken
    cases parsed : parse data with
    | error _ => simp [asks, parsed] at asked
    | ok msg =>
      have class_ne : msg.msgClass ≠ .indication := by
        simp only [asks, parsed, decide_eq_true_eq] at asked
        exact asked.2
      rw [onPacket_of_parse parsed] at result
      exact handleStun_reply_cases parsed class_ne result member

/-- A request is a message of its client. -/
theorem asks_of_request (asked : request host cfg e t = some msg) :
    asks e t.input.1 = true := by
  obtain ⟨data, via, input, parsed, class_ne, _⟩ := request_eq_some.mp asked
  simp [asks, input, parsed, class_ne]

/-- The answer to a request that passed the check. -/
theorem request_output (asked : request host cfg e t = some msg)
    (taken : (turnServer host cfg).Takes t) :
    ∃ data via, t.input.1 = .packet data e via ∧ t.output =
      [⟨⟨signResponse host cfg (requestCall host cfg t.input.2 t.before.manager msg e).build
        (usernameOf msg) (HmacValidator.getPassword host cfg.sharedSecret (usernameOf msg)), e,
        .reply⟩, via⟩] := by
  obtain ⟨data, via, input, parsed, class_ne, accepted⟩ := request_eq_some.mp asked
  obtain ⟨before, ⟨event, env⟩, after, output⟩ := t
  obtain rfl : event = .packet data e via := input
  have result : before.onPacket host cfg env data e via = .ok (after, output) := taken
  rw [onPacket_of_parse parsed, handleStun] at result
  simp only [if_neg class_ne] at result
  have accepted' : TurnDispatcher.authResult host cfg env
      { before with currentTransport := some via } msg data e = .ok := accepted
  have some : (requestCall host cfg env before.manager msg e).build ≠ [] := by
    simp [Call.build, MessageBuilder.build]
  rw [accepted'] at result
  simp only [handleRequest_call, if_pos some] at result
  obtain ⟨_, rfl⟩ := Prod.mk.inj (Except.ok.inj result)
  exact ⟨data, via, rfl, rfl⟩

theorem told_of_request (asked : request host cfg e t = some msg)
    (taken : (turnServer host cfg).Takes t) :
    told e t = callTells (requestCall host cfg t.input.2 t.before.manager msg e) := by
  obtain ⟨data, via, _, output⟩ := request_output asked taken
  simp [told, asks_of_request asked, output, lifetimeTold_signed _ _ short_requestCall]

theorem told_of_none (asked : request host cfg e t = none)
    (taken : (turnServer host cfg).Takes t) : told e t = none := by
  unfold told
  split
  · rename_i message
    refine List.findSome?_eq_none_iff.mpr fun sent member => ?_
    split
    · rename_i mine
      rcases answer_cases taken message member with ⟨method, tid, headed⟩ | passed
      · exact lifetimeTold_error headed
      · simp [mine, asked] at passed
    · rfl
  · rfl

/-! ## Handlers -/

/-- What the table does with what is told. -/
def advance (now : TimePoint) (lifetime : Option UInt32) (stored : Option TimePoint) :
    Option TimePoint :=
  match lifetime with
  | none => stored
  | some lifetime => if lifetime = 0 then none else some (now + seconds lifetime)

theorem next_view (stored : Option TimePoint) :
    Lease.next (view e) () stored t = advance t.input.2.now (told e t) stored := by
  unfold Lease.next view advance
  cases told e t with
  | none => rfl
  | some lifetime => by_cases zero : lifetime = 0 <;> simp [zero]

section
variable {env : Env} {m : AllocationManager}

theorem callTells_allocated {mcfg : ManagerConfig} (port : UInt16) (lifetime : UInt32) :
    callTells (allocated host mcfg msg e port lifetime) = some lifetime := by
  rw [callTells, if_pos ⟨rfl, .inl rfl⟩]
  exact lifetimeOf_bytes32 rfl

theorem callTells_refreshed (lifetime : UInt32) :
    callTells (refreshed msg lifetime) = some lifetime := by
  rw [callTells, if_pos ⟨rfl, .inr rfl⟩]
  exact lifetimeOf_bytes32 rfl

theorem grantedLifetime_ne_zero (msg : TurnMessage) : grantedLifetime msg ≠ 0 := by
  unfold grantedLifetime
  split
  · decide
  · assumption

/-- A refused request tells nothing. -/
theorem callTells_refused {c : Call} (short : Short c) (refused : c.msgClass ≠ .successResponse) :
    callTells c = none ∧ responseClass c.build = .errorResponse := by
  refine ⟨if_neg fun success => refused success.1, ?_⟩
  rw [responseClass_call]
  exact short.2.resolve_left refused

theorem allocate_expiry (mcfg : ManagerConfig) (username realm : Bytes) :
    ((m.handleAllocate host mcfg env msg e username realm).1.findByClient e).map
        Allocation.expiresAt =
      advance env.now (callTells (allocateCall host mcfg env m msg e username))
        ((m.findByClient e).map Allocation.expiresAt) := by
  by_cases success : (allocateCall host mcfg env m msg e username).msgClass = .successResponse
  · obtain ⟨_, port, call, after⟩ := handleAllocate_success realm success
    have new := (@find_create m (fresh mcfg m e username realm port
      (env.now + seconds (grantedLifetime msg))) (m.usedPorts.insert port true)).1
    rw [fresh_clientAddr] at new
    rw [after, new, call, callTells_allocated, advance, if_neg (grantedLifetime_ne_zero msg)]
    rfl
  · obtain ⟨silent, refused⟩ := callTells_refused (short_allocateCall mcfg username) success
    rw [← @handleAllocate_call host env m msg e mcfg username realm] at refused
    rw [(handleAllocate_settled host mcfg env m msg e username realm).unchanged refused, silent]
    rfl

theorem refresh_expiry (username : Bytes) :
    ((m.handleRefresh env msg e username).1.findByClient e).map Allocation.expiresAt =
      advance env.now (callTells (refreshCall m msg e username))
        ((m.findByClient e).map Allocation.expiresAt) := by
  by_cases success : (refreshCall m msg e username).msgClass = .successResponse
  · obtain ⟨call, p, a, found, after⟩ := handleRefresh_success env success
    rw [after, call, callTells_refreshed, advance]
    split
    · rw [(find_released e a).1]
      rfl
    · rw [findByClient_store _ found]
      rfl
  · obtain ⟨silent, refused⟩ := callTells_refused (short_refreshCall username) success
    rw [← @handleRefresh_call env m msg e username] at refused
    rw [(handleRefresh_settled env m msg e username).unchanged refused, silent]
    rfl

theorem permitAll_expiresAt (attrs : List Attribute) (a : Allocation) :
    (permitAll host env attrs a).expiresAt = a.expiresAt := by
  induction attrs generalizing a with
  | nil => rfl
  | cons attr attrs ih => exact ih (a.permit env.now (peerAddress host attr))

/-- A write that leaves the expiry alone. -/
theorem expiresAt_store {p : Ptr} {a a' : Allocation} (found : m.find m.byClient e = some (p, a))
    (same : a'.expiresAt = a.expiresAt) :
    ((m.store p a').findByClient e).map Allocation.expiresAt =
      (m.findByClient e).map Allocation.expiresAt := by
  have known : m.findByClient e = some a := findByClient_eq_some.mpr ⟨p, found⟩
  rw [findByClient_store _ found, known, Option.map_some, Option.map_some, same]

theorem createPermission_expiry :
    ((m.handleCreatePermission host env msg e).1.findByClient e).map Allocation.expiresAt =
      advance env.now (callTells (createPermissionCall host env m msg e))
        ((m.findByClient e).map Allocation.expiresAt) := by
  unfold handleCreatePermission createPermissionCall
  cases found : m.find m.byClient e with
  | none => rfl
  | some entry =>
    obtain ⟨p, a⟩ := entry
    have permits := permitPeers_permits host env msg.attributes a false
    simp only
    generalize permitPeers host env.now msg.attributes a false = result at permits
    obtain ⟨a', ended⟩ := result
    simp only at permits
    have same : a'.expiresAt = a.expiresAt := by rw [permits, permitAll_expiresAt]
    rcases ended with _ | _ | _ <;> exact expiresAt_store found same

theorem channelBind_expiry :
    ((m.handleChannelBind host env msg e).1.findByClient e).map Allocation.expiresAt =
      advance env.now (callTells (channelBindCall host env m msg e))
        ((m.findByClient e).map Allocation.expiresAt) := by
  unfold handleChannelBind channelBindCall
  cases found : m.find m.byClient e with
  | none => rfl
  | some entry =>
    obtain ⟨p, a⟩ := entry
    simp only
    cases msg.findAttr AttrType.channelNumber with
    | none => rfl
    | some chAttr =>
      cases msg.findAttr AttrType.xorPeerAddress with
      | none => rfl
      | some peerAttr =>
        simp only
        split
        · rfl
        split
        · rfl
        split
        · rfl
        split
        · rfl
        · exact expiresAt_store found rfl

end

/-! ## Every run -/

theorem expiry_step (inv : ServerInv cfg t.before) (taken : (turnServer host cfg).Takes t) :
    expiry e t.after = Lease.next (view e) () (expiry e t.before) t := by
  rw [next_view]
  unfold expiry
  cases asked : request host cfg e t with
  | none =>
    rw [told_of_none asked taken, findByClient_of_none inv asked taken]
    rfl
  | some msg =>
    rw [told_of_request asked taken, request_manager asked taken]
    unfold handleRequest requestCall
    cases msg.method with
    | allocate => exact allocate_expiry cfg.manager _ _
    | refresh => exact refresh_expiry _
    | createPermission => exact createPermission_expiry
    | channelBind => exact channelBind_expiry
    | send => rfl
    | data => rfl
    | unknown => rfl

/-- **What a client is told is all there is to know about its allocation.** In every run,
the server holds an allocation for a client exactly if the last success response to an
Allocate or Refresh of the client carried a lifetime other than zero, and it expires
that lifetime after the response. -/
theorem expiry_is_told (host : Host) (cfg : Config) (run : Run (turnServer host cfg) ts d)
    (e : Endpoint) : expiry e d = Lease.deadline (view e) () ts :=
  Lease.deadline_of_run (expiry e) rfl
    (fun _ reached taken => expiry_step (serverInv_of_reachable reached) taken) run

/-- The first account was told ten minutes at 1 s, the server holds its allocation until
then, and nobody else's. -/
theorem expiry_is_told_alice :
    ∃ ts d, Run (turnServer Deployment.host Deployment.config) ts d ∧
      Lease.deadline (view Deployment.aliceAddr) () ts = some 601000000000 ∧
      Lease.deadline (view ⟨ascii "198.51.100.3", 4000⟩) () ts = none := by
  obtain ⟨ts, d, run, check⟩ := Run.of_exec (turnServer Deployment.host Deployment.config)
    (Deployment.bothAllocate .udp) (fun _ d => expiry Deployment.aliceAddr d = some 601000000000 ∧
      expiry ⟨ascii "198.51.100.3", 4000⟩ d = none) (by decide +kernel)
  obtain ⟨mine, theirs⟩ := of_decide_eq_true check
  refine ⟨ts, d, run, ?_, ?_⟩
  · rw [← expiry_is_told Deployment.host Deployment.config run, mine]
  · rw [← expiry_is_told Deployment.host Deployment.config run, theirs]

end Zaza.ClientView
