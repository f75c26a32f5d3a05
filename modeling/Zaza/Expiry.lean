import Zaza.RelaySafety

/-!
What becomes of an allocation when its time is up: nothing. Every handler finds
an allocation through the two tables, and only a Refresh with lifetime zero
takes it out of them; `isExpired` is asked by nobody.

`ActsDead` is what the lifetime is for: the server behaves as if the expired
allocation were not there. It fails for every live allocation of every reachable
state, and each handler's answer says how.
-/
namespace Zaza.Expiry
open Zaza AllocationManager AllocationSteps AllocationInvariant TurnDispatcher DispatcherSteps
open RelaySteps

/-- The answer to a client that has no allocation. -/
def mismatch (msg : TurnMessage) : Bytes := makeError msg.transactionId 437 "Allocation Mismatch"

/-- The server treats the allocation `a`, at `p`, as if it did not exist. -/
structure ActsDead (host : Host) (cfg : Config) (env : Env) (d : TurnDispatcher) (p : Ptr)
    (a : Allocation) : Prop where
  refresh : ∀ msg username, (d.manager.handleRefresh env msg a.clientAddr username).2 = mismatch msg
  createPermission : ∀ msg,
    (d.manager.handleCreatePermission host env msg a.clientAddr).2 = mismatch msg
  channelBind : ∀ msg, (d.manager.handleChannelBind host env msg a.clientAddr).2 = mismatch msg
  send : ∀ msg, d.manager.handleSend host cfg.manager env msg a.clientAddr = []
  channelData : ∀ data via, d.handleChannelData host env data a.clientAddr via = []
  undelivered : ∀ event d' out, (turnServer host cfg).step d (event, env) = .ok (d', out) →
    ∀ sent ∈ out, ∀ source, sent.purpose.delivers ≠ some (source, p)
  quota : (d.manager.userCount env.order a.username).toNat =
    ((userAllocations d.manager a.username).filter fun b => !b.isExpired env.now).length
  allocate : ∀ msg username realm,
    (d.manager.handleAllocate host cfg.manager env msg a.clientAddr username realm).2 ≠ mismatch msg
  port : ∃ draws, (allocatePort cfg.manager draws d.manager.usedPorts).1 = some a.relayedAddr.port

variable {host : Host} {cfg : Config} {env : Env} {d : TurnDispatcher} {p : Ptr} {a : Allocation}
  {msg : TurnMessage}

/-! ## Answers -/

/-- The attributes of a message. -/
theorem drop_build (b : MessageBuilder) : b.build.drop 20 = b.attrsBuf := by
  have size : (bytes16 b.msgType ++ (bytes16 b.attrsBuf.length.toUInt16 ++
      ([0x21, 0x12, 0xA4, 0x42] ++ b.transactionId.toList))).length = 20 := by simp
  have cut : b.build = (bytes16 b.msgType ++ (bytes16 b.attrsBuf.length.toUInt16 ++
      ([0x21, 0x12, 0xA4, 0x42] ++ b.transactionId.toList))) ++ b.attrsBuf := by
    simp [MessageBuilder.build]
  rw [cut, ← size, List.drop_left]

/-- A success response is no error. -/
theorem success_ne_mismatch {b : MessageBuilder}
    (type : b.msgType = MessageBuilder.encodeType method .successResponse) :
    b.build ≠ mismatch msg := by
  intro same
  have types : bytes16 (MessageBuilder.encodeType method .successResponse) =
      bytes16 (MessageBuilder.encodeType .allocate .errorResponse) := by
    have heads := congrArg (List.take 2) same
    rw [← type]
    exact heads
  cases method <;> exact absurd types (by decide)

/-- Errors with other codes are other errors. -/
theorem error_ne_mismatch (tid : TransactionId) {code : UInt16} {reason : String}
    (differs : (makeError (Vector.replicate 12 0) code reason).drop 20 ≠
      (makeError (Vector.replicate 12 0) 437 "Allocation Mismatch").drop 20) :
    makeError tid code reason ≠ mismatch msg := by
  intro same
  apply differs
  have attrs := congrArg (List.drop 20) same
  rw [mismatch, makeError, makeError, drop_build, drop_build] at attrs
  rw [makeError, makeError, drop_build, drop_build]
  exact attrs

/-- A client with an allocation never hears that it has none. -/
theorem refresh_ne_mismatch (found : d.manager.find d.manager.byClient client = some (p, a))
    (username : Bytes) : (d.manager.handleRefresh env msg client username).2 ≠ mismatch msg := by
  simp only [handleRefresh, found]
  split
  · exact error_ne_mismatch _ (by decide)
  · exact success_ne_mismatch rfl

theorem createPermission_ne_mismatch
    (found : d.manager.find d.manager.byClient client = some (p, a)) :
    (d.manager.handleCreatePermission host env msg client).2 ≠ mismatch msg := by
  simp only [handleCreatePermission, found]
  split
  · exact error_ne_mismatch _ (by decide)
  · exact error_ne_mismatch _ (by decide)
  · exact success_ne_mismatch rfl

theorem channelBind_ne_mismatch
    (found : d.manager.find d.manager.byClient client = some (p, a)) :
    (d.manager.handleChannelBind host env msg client).2 ≠ mismatch msg := by
  simp only [handleChannelBind, found]
  split
  · split
    · exact error_ne_mismatch _ (by decide)
    · split
      · exact error_ne_mismatch _ (by decide)
      · split
        · exact error_ne_mismatch _ (by decide)
        · split
          · exact error_ne_mismatch _ (by decide)
          · exact success_ne_mismatch rfl
  · exact error_ne_mismatch _ (by decide)

/-- Nor can it make another. -/
theorem allocate_mismatch (found : d.manager.find d.manager.byClient client = some (p, a))
    (mcfg : ManagerConfig) (username realm : Bytes) :
    d.manager.handleAllocate host mcfg env msg client username realm =
      (d.manager, mismatch msg) := by
  simp [handleAllocate, (find_eq_some.mp found).1, mismatch]

/-! ## Quota and ports -/

theorem count_includes (inv : Inv cfg.manager d.manager) (lives : Live d.manager p a)
    (expired : a.isExpired env.now = true) :
    ((userAllocations d.manager a.username).filter fun b => !b.isExpired env.now).length <
      (d.manager.userCount env.order a.username).toNat := by
  have small : (userAllocations d.manager a.username).length < 4294967296 :=
    Nat.lt_of_le_of_lt (inv.quota a.username) cfg.manager.maxAllocPerUser.toNat_lt
  rw [userCount_eq env.order small, List.length_filter_lt_length_iff_exists]
  refine ⟨a, ?_, by simp [expired]⟩
  rw [userAllocations, List.mem_filter]
  exact ⟨mem_live.mpr ⟨p, lives⟩, by simp⟩

theorem port_kept (inv : Inv cfg.manager d.manager) (lives : Live d.manager p a)
    (draws : Nat → Nat) :
    (allocatePort cfg.manager draws d.manager.usedPorts).1 ≠ some a.relayedAddr.port := by
  intro given
  have marked : d.manager.usedPorts.lookup a.relayedAddr.port = some true :=
    (inv.ports _ _).mpr ⟨rfl, (inv.marked_port _).mpr ⟨p, a, lives, rfl⟩⟩
  rcases tryPorts_spec cfg.manager draws 1000 0 d.manager.usedPorts with
    full | ⟨port, free, unused, _⟩
  · simp [allocatePort, full] at given
  · rw [allocatePort, free] at given
    obtain rfl := Option.some.inj given
    exact unused marked

/-! ## Payload -/

/-- A permitted Send indication is passed on. -/
theorem send_passes (request : sendRequest host env d.manager msg client =
      some (b, peer, payload)) : d.manager.handleSend host cfg.manager env msg client ≠ [] := by
  rw [handleSend_eq]
  simp only [request]
  cases d.manager.find d.manager.byRelay peer <;> simp [Config.manager]

/-- One for the relayed address of a live allocation is handed to its client. -/
theorem send_delivers (inv : Inv cfg.manager d.manager) (lives : Live d.manager p a)
    (request : sendRequest host env d.manager msg sender = some (b, a.relayedAddr, payload)) :
    ∃ datagram ∈ d.manager.handleSend host cfg.manager env msg sender,
      datagram.dest = a.clientAddr ∧
        datagram.purpose = .toLocal sender a.relayedAddr b.relayedAddr p := by
  rw [handleSend_eq]
  simp only [request, inv.live_relay lives, Config.manager, ↓reduceIte, List.mem_singleton,
    exists_eq_left, and_self]

/-- **No expired allocation is dead.** In every reachable state and for every live
allocation whose time is up, `ActsDead` fails: its client's requests are never
answered with 437, except for Allocate, which always is; the allocation counts
against its user's quota and keeps its port; and what its client is permitted to
send, and what others are permitted to send to its relayed address, is passed on. -/
theorem expired_never_dead (host : Host) (cfg : Config) (env : Env)
    (reached : Reachable (turnServer host cfg) d) (lives : Live d.manager p a)
    (expired : a.isExpired env.now = true) :
    ¬ ActsDead host cfg env d p a ∧
      (∀ msg username,
        (d.manager.handleRefresh env msg a.clientAddr username).2 ≠ mismatch msg) ∧
      (∀ msg, (d.manager.handleCreatePermission host env msg a.clientAddr).2 ≠ mismatch msg) ∧
      (∀ msg, (d.manager.handleChannelBind host env msg a.clientAddr).2 ≠ mismatch msg) ∧
      (∀ msg username realm, d.manager.handleAllocate host cfg.manager env msg a.clientAddr
        username realm = (d.manager, mismatch msg)) ∧
      ((userAllocations d.manager a.username).filter fun b => !b.isExpired env.now).length <
        (d.manager.userCount env.order a.username).toNat ∧
      (∀ draws,
        (allocatePort cfg.manager draws d.manager.usedPorts).1 ≠ some a.relayedAddr.port) ∧
      (∀ msg peer payload,
        sendRequest host env d.manager msg a.clientAddr = some (a, peer, payload) →
        d.manager.handleSend host cfg.manager env msg a.clientAddr ≠ []) ∧
      ∀ sender msg b payload,
        sendRequest host env d.manager msg sender = some (b, a.relayedAddr, payload) →
        ∃ datagram ∈ d.manager.handleSend host cfg.manager env msg sender,
          datagram.dest = a.clientAddr ∧
            datagram.purpose = .toLocal sender a.relayedAddr b.relayedAddr p := by
  have inv := (serverInv_of_reachable reached).tables
  have found := inv.live_client lives
  refine ⟨fun dead => ?_, fun _ => refresh_ne_mismatch found,
    fun _ => createPermission_ne_mismatch found, fun _ => channelBind_ne_mismatch found,
    fun _ => allocate_mismatch found _, count_includes inv lives expired, port_kept inv lives,
    fun _ _ _ => send_passes, fun _ _ _ _ => send_delivers inv lives⟩
  exact absurd dead.quota (Nat.ne_of_gt (count_includes inv lives expired))

/-- Ten minutes and a second after it was made. -/
def later : Env := { Deployment.surroundings 0 with now := 602000000000 }

/-- In the deployment, both accounts have let their allocations expire. -/
theorem expired_run : ∃ d p a, Reachable (turnServer Deployment.host Deployment.config) d ∧
    Live d.manager p a ∧ a.isExpired later.now = true := by
  obtain ⟨ts, d, run, check⟩ := Run.of_exec (turnServer Deployment.host Deployment.config)
    (Deployment.bothAllocate .udp)
    (fun _ d => (live d.manager).any (·.isExpired later.now)) (by decide +kernel)
  obtain ⟨a, member, expired⟩ := List.any_eq_true.mp check
  obtain ⟨p, lives⟩ := mem_live.mp member
  exact ⟨d, p, a, ⟨ts, run⟩, lives, expired⟩

/-- The same of one of them. -/
theorem expired_never_dead_later :
    ∃ d p a, Reachable (turnServer Deployment.host Deployment.config) d ∧ Live d.manager p a ∧
      a.isExpired later.now = true ∧
      ¬ ActsDead Deployment.host Deployment.config later d p a := by
  obtain ⟨d, p, a, reached, lives, expired⟩ := expired_run
  exact ⟨d, p, a, reached, lives, expired,
    (expired_never_dead Deployment.host Deployment.config later reached lives expired).1⟩

/-- Its client refreshes it as if nothing had happened. -/
theorem expired_refreshed : ¬ ∀ host cfg env d p a, Reachable (turnServer host cfg) d →
    Live d.manager p a → a.isExpired env.now = true → ActsDead host cfg env d p a := by
  intro all
  obtain ⟨d, p, a, reached, lives, expired⟩ := expired_run
  have inv := (serverInv_of_reachable reached).tables
  have dead := all _ _ later d p a reached lives expired
  exact refresh_ne_mismatch (inv.live_client lives) a.username
    (dead.refresh ⟨.request, .refresh, 0, Vector.replicate 12 5, []⟩ a.username)

end Zaza.Expiry
