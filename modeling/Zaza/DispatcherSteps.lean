import Zaza.AllocationInvariant
import Zaza.Dispatcher
import Zaza.StunCodec

/-!
What one step of the server can do to the allocation tables, said once: they
change only through the handler of a request that passed the credential check
(`step_manager`). Every invariant of the server is proved against this lemma.
-/
namespace Zaza.DispatcherSteps
open Zaza AllocationManager AllocationSteps AllocationInvariant TurnDispatcher

variable {host : Host} {cfg : Config} {env : Env} {d d' : TurnDispatcher} {data : Bytes}
  {sender : Endpoint} {via : Transport} {msg : TurnMessage} {out : List Sent}

/-! ## Credentials -/

/-- Everything a request is accepted on. -/
theorem authenticateWith_ok (verdict : LongTermCred.authenticateWith host realm secret env issued
      msg raw allocated username nonce = .ok) :
    NonceManager.isValid env issued nonce = true ∧ 58 ∈ username ∧
      LongTermCred.integrityHolds host realm msg raw username
        (HmacValidator.getPassword host secret username) = true ∧
      (msg.method ≠ .allocate → allocated ≠ [] → username = allocated) := by
  unfold LongTermCred.authenticateWith at verdict
  split at verdict
  · simp at verdict
  · rename_i valid
    split at verdict
    · simp at verdict
    · rename_i pos colon
      split at verdict
      · simp at verdict
      · split at verdict
        · simp at verdict
        · simp only at verdict
          split at verdict
          · simp at verdict
          · split at verdict
            · simp at verdict
            · rename_i intact
              split at verdict
              · simp at verdict
              · rename_i same
                refine ⟨by simpa using valid, ?_, by simpa using intact, ?_⟩
                · obtain ⟨bound, hit, _⟩ := List.findIdx?_eq_some_iff_getElem.mp colon
                  rw [← eq_of_beq hit]
                  exact List.getElem_mem bound
                · intro notAllocate nonempty
                  by_contra different
                  exact same ⟨notAllocate, nonempty, different⟩

/-- An accepted request has a USERNAME with a colon in it, it is the name its
sender's allocation was made under, and the integrity check passed. -/
theorem authenticate_ok (class_ne : msg.msgClass ≠ .indication)
    (verdict : LongTermCred.authenticate host realm secret env issued msg raw allocated = .ok) :
    ∃ username, msg.findAttr AttrType.username = some username ∧ 58 ∈ username.value ∧
      LongTermCred.integrityHolds host realm msg raw username.value
        (HmacValidator.getPassword host secret username.value) = true ∧
      (msg.method ≠ .allocate → allocated ≠ [] → username.value = allocated) := by
  unfold LongTermCred.authenticate at verdict
  rw [if_neg class_ne] at verdict
  split at verdict
  · rename_i username _ nonce named _ _
    simp only at verdict
    split at verdict
    · exact ⟨username, named, (authenticateWith_ok verdict).2⟩
    · simp at verdict
  · simp at verdict

theorem usernameOf_eq (found : msg.findAttr AttrType.username = some username) :
    usernameOf msg = username.value := by
  simp [usernameOf, found]

/-- Overwriting the length field of a message. -/
theorem setLength_header (type old len : UInt16) (behind : Bytes) :
    setLength (bytes16 type ++ (bytes16 old ++ behind)) len =
      bytes16 type ++ (bytes16 len ++ behind) := rfl

/-! ## The tables -/

theorem handleRequest_change (msg : TurnMessage) (m : AllocationManager) :
    Change host cfg.manager env sender (usernameOf msg) m
      (handleRequest host cfg env m msg sender).1 := by
  unfold handleRequest
  split
  · exact handleAllocate_change _ _
  · exact handleRefresh_change _ _
  · exact handleCreatePermission_change _
  · exact handleChannelBind_change _
  · exact .same

private theorem challenge_manager
    (taken : challenge cfg env d msg sender via code reason = .ok (d', out)) :
    d'.manager = d.manager := by
  unfold challenge at taken
  split at taken
  · simp at taken
  · obtain ⟨rfl, _⟩ := Prod.mk.inj (Except.ok.inj taken)
    rfl

/-- The top bits of a message are clear. -/
theorem parse_top (parsed : parse data = .ok msg) : byteAt data 0 &&& 0xC0 = 0x00 := by
  have long := (StunCodec.parse_ok parsed).1
  by_contra other
  simp [parse, Nat.not_lt.mpr long, other] at parsed

theorem isChannelData_iff (data : Bytes) :
    isChannelData data = true ↔ byteAt data 0 &&& 0xC0 = 0x40 := by
  unfold isChannelData
  split
  · rename_i empty
    have top : byteAt data 0 &&& 0xC0 ≠ 0x40 := by
      simp [byteAt, List.length_eq_zero_iff.mp (Nat.lt_one_iff.mp empty)]
    simp [top]
  · exact decide_eq_true_iff

/-- What `parse` accepts, `onPacket` passes to `handleStun`. -/
theorem onPacket_of_parse (parsed : parse data = .ok msg) :
    d.onPacket host cfg env data sender via = d.handleStun host cfg env msg data sender via := by
  have long := (StunCodec.parse_ok parsed).1
  have top := parse_top parsed
  rw [onPacket, if_neg (by omega), if_neg (by rw [top]; decide), if_pos top, parsed]

/-- ChannelData leaves the state alone. -/
theorem onPacket_of_channel (top : byteAt data 0 &&& 0xC0 = 0x40) :
    d.onPacket host cfg env data sender via =
      .ok (d, d.handleChannelData host env data sender via) := by
  have nonempty : data.length ≠ 0 := by
    intro empty
    simp [byteAt, List.length_eq_zero_iff.mp empty] at top
  rw [onPacket, if_neg nonempty, if_pos top]

/-- What `parse` rejects changes nothing. -/
theorem onPacket_of_error (failed : parse data = .error e)
    (taken : d.onPacket host cfg env data sender via = .ok (d', out)) : d' = d := by
  unfold onPacket at taken
  rw [failed] at taken
  split at taken
  · exact (Prod.mk.inj (Except.ok.inj taken)).1.symm
  · split at taken
    · exact (Prod.mk.inj (Except.ok.inj taken)).1.symm
    · split at taken <;> exact (Prod.mk.inj (Except.ok.inj taken)).1.symm

/-- A packet leaves the tables alone, or is an accepted request and the tables
are those its handler returns. -/
theorem onPacket_manager (taken : d.onPacket host cfg env data sender via = .ok (d', out)) :
    d'.manager = d.manager ∨ ∃ msg, parse data = .ok msg ∧ msg.msgClass ≠ .indication ∧
      d.authResult host cfg env msg data sender = .ok ∧
      d'.manager = (handleRequest host cfg env d.manager msg sender).1 := by
  cases parsed : parse data with
  | error e => exact .inl (congrArg TurnDispatcher.manager (onPacket_of_error parsed taken))
  | ok msg =>
    rw [onPacket_of_parse parsed, handleStun] at taken
    simp only at taken
    split at taken
    · split at taken <;> obtain ⟨rfl, _⟩ := Prod.mk.inj (Except.ok.inj taken) <;> exact .inl rfl
    · rename_i class_ne
      split at taken
      · exact .inl ((challenge_manager taken).trans rfl)
      · exact .inl ((challenge_manager taken).trans rfl)
      · exact .inl ((challenge_manager taken).trans rfl)
      · exact .inl ((challenge_manager taken).trans rfl)
      · obtain ⟨rfl, _⟩ := Prod.mk.inj (Except.ok.inj taken)
        exact .inl rfl
      · rename_i accepted
        refine .inr ⟨msg, rfl, class_ne, accepted, ?_⟩
        split at taken <;> obtain ⟨rfl, _⟩ := Prod.mk.inj (Except.ok.inj taken) <;> rfl

/-- A step of the server leaves the tables alone or is an accepted request. -/
theorem step_manager {t : Transition TurnDispatcher (Event × Env) (List Sent)}
    (taken : (turnServer host cfg).Takes t) :
    t.after.manager = t.before.manager ∨ ∃ data sender via msg,
      t.input.1 = .packet data sender via ∧ parse data = .ok msg ∧ msg.msgClass ≠ .indication ∧
      t.before.authResult host cfg t.input.2 msg data sender = .ok ∧
      t.after.manager = (handleRequest host cfg t.input.2 t.before.manager msg sender).1 ∧
      Change host cfg.manager t.input.2 sender (usernameOf msg) t.before.manager
        t.after.manager := by
  obtain ⟨before, ⟨event, env⟩, after, output⟩ := t
  cases event with
  | packet data sender via =>
    rcases onPacket_manager taken with same | ⟨msg, parsed, class_ne, accepted, result⟩
    · exact .inl same
    · refine .inr ⟨data, sender, via, msg, rfl, parsed, class_ne, accepted, result, ?_⟩
      rw [result]
      exact handleRequest_change msg before.manager
  | peerData data peer relayAddr =>
    have same : before = after := (Prod.mk.inj (Except.ok.inj taken)).1
    exact .inl (congrArg TurnDispatcher.manager same.symm)

/-- What holds of a new allocation and what every write to one keeps holds of every live
allocation in every reachable state. -/
theorem live_of_reachable {Good : Allocation → Prop}
    (new : ∀ m client username realm port expiresAt,
      Good (fresh cfg.manager m client username realm port expiresAt))
    (kept : ∀ env a a', Touch host env a a' → Good a → Good a')
    (reached : Reachable (turnServer host cfg) d) : ∀ p a, Live d.manager p a → Good a := by
  obtain ⟨ts, run⟩ := reached
  refine run.invariant (fun d => ∀ p a, Live d.manager p a → Good a) ?_ ?_
  · rintro p a ⟨held, _⟩
    simp [turnServer, TurnDispatcher.init, AllocationManager.empty] at held
  · intro t before taken
    rcases step_manager taken with same | ⟨data, sender, via, msg, _, _, _, _, _, change⟩
    · rwa [same]
    · exact forall_live change (new _ _ _) (kept t.input.2) before

/-- The server's invariant: the manager's own, and no allocation without a name. -/
structure ServerInv (cfg : Config) (d : TurnDispatcher) : Prop where
  tables : Inv cfg.manager d.manager
  named : ∀ p a, Live d.manager p a → a.username ≠ []

theorem ServerInv.init (cfg : Config) : ServerInv cfg TurnDispatcher.init where
  tables := Inv.empty cfg.manager
  named := by
    rintro p a ⟨held, _⟩
    simp [TurnDispatcher.init, AllocationManager.empty] at held

/-- The name an accepted request goes by is not empty. -/
theorem usernameOf_ne_nil (class_ne : msg.msgClass ≠ .indication)
    (accepted : d.authResult host cfg env msg data sender = .ok) : usernameOf msg ≠ [] := by
  obtain ⟨username, found, colon, _⟩ := authenticate_ok class_ne accepted
  rw [usernameOf_eq found]
  exact List.ne_nil_of_mem colon

theorem ServerInv.preserved {t : Transition TurnDispatcher (Event × Env) (List Sent)}
    (inv : ServerInv cfg t.before) (taken : (turnServer host cfg).Takes t) :
    ServerInv cfg t.after := by
  rcases step_manager taken with
    same | ⟨data, sender, via, msg, _, _, class_ne, accepted, _, change⟩
  · exact ⟨same ▸ inv.tables, same ▸ inv.named⟩
  · refine ⟨inv.tables.preserved change, forall_live change (fun _ _ _ => ?_) ?_ inv.named⟩
    · exact usernameOf_ne_nil class_ne accepted
    · intro a a' write
      cases write <;> exact id

/-- Every reachable server state has it. -/
theorem serverInv_of_reachable (reached : Reachable (turnServer host cfg) d) : ServerInv cfg d := by
  obtain ⟨ts, run⟩ := reached
  exact run.invariant (ServerInv cfg) (ServerInv.init cfg)
    fun t before taken => before.preserved taken

end Zaza.DispatcherSteps

/-! A small deployment: two accounts on one server, for the modules that follow to
run. -/
namespace Zaza.Deployment
open Zaza StunCodec

def config : Config :=
  ⟨ascii "turn.example", ascii "secret", ascii "192.0.2.1", 50000, 50001⟩

/-- A user, with what the shared secret makes of the name. -/
structure Account where
  username : Bytes
  mac : Vector UInt8 20
  password : Bytes
  key : Vector UInt8 16

def alice : Account where
  username := ascii "9999999999:alice"
  mac := #v[13, 189, 121, 227, 109, 72, 101, 3, 149, 182, 86, 202, 24, 170, 181, 125, 186, 237,
    98, 216]
  password := ascii "Db15421IZQOVtlbKGKq1fbrtYtg="
  key := #v[215, 158, 213, 13, 16, 38, 69, 15, 217, 170, 153, 178, 224, 123, 50, 166]

def bob : Account where
  username := ascii "9999999999:bob"
  mac := #v[76, 150, 15, 146, 201, 169, 132, 118, 141, 121, 31, 125, 203, 35, 149, 57, 162, 97,
    4, 212]
  password := ascii "TJYPksmphHaNeR99yyOVOaJhBNQ="
  key := #v[153, 251, 123, 31, 156, 47, 87, 183, 43, 55, 209, 173, 34, 68, 183, 224]

def aliceAddr : Endpoint := ⟨ascii "198.51.100.1", 4000⟩

def bobAddr : Endpoint := ⟨ascii "198.51.100.2", 4000⟩

/-- 192.0.2.1. -/
def relayIp : UInt32 := 0xC0000201

/-- A message up to its MESSAGE-INTEGRITY attribute, which the length counts. -/
def unsigned (method : Method) (msgClass : MessageClass) (tid : UInt8) (attrs : List Attribute) :
    Bytes :=
  let b := (addAttrs (MessageBuilder.new method msgClass (Vector.replicate 12 tid)) attrs).build
  setLength b (b.length + 4).toUInt16

/-- The nonce of sixteen zero bytes. -/
def nonce : Bytes := List.replicate 32 48

def credentials (account : Account) : List Attribute :=
  [⟨AttrType.username, account.username⟩, ⟨AttrType.realm, config.realm⟩, ⟨AttrType.nonce, nonce⟩]

def allocateBy (account : Account) (tid : UInt8) : Bytes :=
  unsigned .allocate .request tid
    (credentials account ++ [⟨AttrType.requestedTransport, [17, 0, 0, 0]⟩])

/-- The success response to it. -/
def allocated (tid : UInt8) (port : UInt16) (clientIp lifetime : UInt32) : Bytes :=
  unsigned .allocate .successResponse tid
    [⟨AttrType.xorRelayedAddress, MessageBuilder.xorAddress relayIp port⟩,
      ⟨AttrType.xorMappedAddress, MessageBuilder.xorAddress clientIp 4000⟩,
      ⟨AttrType.lifetime, bytes32 lifetime⟩]

/-- A CreatePermission for the server's own relay address. -/
def permitRelay : Bytes :=
  unsigned .createPermission .request 3
    (credentials alice ++ [⟨AttrType.xorPeerAddress, MessageBuilder.xorAddress relayIp 0⟩])

def allocateAliceMac : Vector UInt8 20 :=
  #v[115, 187, 122, 212, 150, 119, 224, 73, 113, 175, 47, 77, 251, 2, 198, 255, 244, 247, 233, 168]

def allocateBobMac : Vector UInt8 20 :=
  #v[120, 112, 26, 40, 118, 33, 161, 235, 50, 133, 175, 228, 29, 140, 92, 192, 113, 166, 54, 253]

def permitRelayMac : Vector UInt8 20 :=
  #v[5, 89, 113, 47, 22, 194, 103, 166, 174, 35, 222, 60, 202, 160, 124, 251, 126, 70, 13, 141]

/-- A host that knows the digests of the packets above. -/
def host : Host := Host.posix
  [((config.sharedSecret, alice.username), alice.mac),
    ((config.sharedSecret, bob.username), bob.mac),
    ((alice.key.toList, allocateBy alice 1), allocateAliceMac),
    ((alice.key.toList, allocated 1 50000 0xC6336401 600),
      #v[94, 187, 218, 186, 26, 133, 65, 222, 206, 216, 79, 188, 123, 59, 247, 132, 55, 109, 83,
        188]),
    ((alice.key.toList, allocated 1 50000 0xC6336401 60),
      #v[121, 85, 11, 72, 136, 138, 252, 103, 74, 44, 71, 157, 4, 72, 216, 183, 58, 43, 113, 217]),
    ((bob.key.toList, allocateBy bob 2), allocateBobMac),
    ((bob.key.toList, allocated 2 50001 0xC6336402 600),
      #v[134, 247, 94, 0, 159, 236, 40, 22, 248, 189, 227, 216, 16, 197, 235, 149, 221, 6, 168,
        32]),
    ((alice.key.toList, permitRelay), permitRelayMac),
    ((alice.key.toList, unsigned .createPermission .successResponse 3 []),
      #v[132, 76, 115, 183, 28, 136, 221, 8, 15, 74, 214, 241, 207, 224, 62, 177, 32, 194, 77,
        134])]
  [(longTermText alice.username config.realm alice.password, alice.key),
    (longTermText bob.username config.realm bob.password, bob.key)]
  [(alice.mac.toList, alice.password), (bob.mac.toList, bob.password)]

/-- The first second of the server's life, with one port to draw. -/
def surroundings (draw : Nat) : Env :=
  ⟨1000000000, 1700000000, fun _ => draw, [Vector.replicate 16 0], .listed⟩

def signed (covered : Bytes) (mac : Vector UInt8 20) : Bytes :=
  covered ++ encodeAttr ⟨AttrType.messageIntegrity, mac.toList⟩

/-- A first Allocate without credentials, which is answered with the nonce;
then both accounts allocate, the second over `bobVia`, and the first one permits
the relay address. -/
def bothAllocate (bobVia : Transport) : List (Event × Env) :=
  [(.packet (MessageBuilder.new .allocate .request (Vector.replicate 12 0)).build aliceAddr .udp,
      surroundings 0),
    (.packet (signed (allocateBy alice 1) allocateAliceMac) aliceAddr .udp, surroundings 0),
    (.packet (signed (allocateBy bob 2) allocateBobMac) bobAddr bobVia, surroundings 1),
    (.packet (signed permitRelay permitRelayMac) aliceAddr .udp, surroundings 0)]

/-- The first account's Send indication to the relayed address of the second. -/
def sendToBob (payload : Bytes) : Bytes :=
  (addAttrs (MessageBuilder.new .send .indication (Vector.replicate 12 4))
    [⟨AttrType.xorPeerAddress, MessageBuilder.xorAddress relayIp 50001⟩,
      ⟨AttrType.data, payload⟩]).build

/-- Both accounts allocate, and the first one sends to the second. -/
def aliceSends (bobVia : Transport) : List (Event × Env) :=
  bothAllocate bobVia ++ [(.packet (sendToBob [104, 105]) aliceAddr .udp, surroundings 0)]

end Zaza.Deployment
