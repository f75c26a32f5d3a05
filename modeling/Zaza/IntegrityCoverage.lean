import Zaza.Responses

/-!
What the message integrity covers.

Two scanners walk the same bytes: `parse` collects every attribute, the
integrity checks stop at their own and hash what stands in front of it. So the
attributes behind it are not protected, and the handlers read them all the
same. Two requests that agree on everything the check covers agree on their
protected attributes (`shared_front`), and are handled alike as long as neither
makes the server read an unprotected one (`ReadsProtected`).
-/
namespace Zaza.IntegrityCoverage
open Zaza StunCodec AllocationManager AllocationSteps TurnDispatcher DispatcherSteps Responses
open LongTermCred

variable {host : Host} {cfg : Config} {env : Env} {d : TurnDispatcher} {sender : Endpoint}
  {via : Transport} {raw raw' : Bytes} {msg msg' : TurnMessage} {m : AllocationManager}
  {type type' : AttrType}

/-- The integrity attribute that `authenticate` checks. -/
def checkedType (msg : TurnMessage) : AttrType :=
  if (msg.findAttr AttrType.messageIntegritySha256).isSome then AttrType.messageIntegritySha256
  else AttrType.messageIntegrity

/-- Where the value of the integrity attribute ends, as the check finds it. -/
def integrityEnd (raw : Bytes) (type : AttrType) : Option Nat :=
  (integrityOffset raw type).map fun pos => pos + 4 + (word16 raw (pos + 2)).toNat

/-- Two requests that are the same up to the end of their integrity attribute,
their length fields aside. -/
structure CoveredAlike (raw raw' : Bytes) (msg msg' : TurnMessage) : Prop where
  parsed : parse raw = .ok msg
  parsed' : parse raw' = .ok msg'
  request : msg.msgClass = .request
  request' : msg'.msgClass = .request
  same : ∃ n, integrityEnd raw (checkedType msg) = some n ∧
    integrityEnd raw' (checkedType msg') = some n ∧
    (setLength raw 0).take n = (setLength raw' 0).take n

/-! ## The two scanners -/

/-- A header that is found lies between the start and the end of the scan. -/
theorem scanFor_bounds (found : scanFor raw type stop fuel offset = some pos) :
    offset ≤ pos ∧ pos + 4 ≤ stop := by
  induction fuel generalizing offset with
  | zero => simp [scanFor] at found
  | succ fuel ih =>
    rw [scanFor] at found
    split at found
    · rename_i inside
      split at found
      · obtain rfl := Option.some.inj found
        exact ⟨Nat.le_refl _, inside.1⟩
      · have later := ih found
        omega
    · simp at found

/-- What `parse` has collected, the scan finds, and its value is in the buffer. -/
theorem scanFor_of_findAttr (enough : stop ≤ offset + fuel)
    (collected : findAttr (attributesFrom raw stop offset) type = some attr) :
    ∃ pos, scanFor raw type stop fuel offset = some pos ∧
      pos + 4 + (word16 raw (pos + 2)).toNat ≤ raw.length := by
  induction fuel generalizing offset with
  | zero =>
    rw [attributes_done (by omega)] at collected
    simp [findAttr] at collected
  | succ fuel ih =>
    rw [attributes_unfold] at collected
    split at collected
    · rename_i inside
      split at collected
      · simp [findAttr] at collected
      · rename_i fits
        rw [scanFor, if_pos ⟨inside, by omega⟩]
        by_cases here : word16 raw offset = type
        · exact ⟨offset, by rw [if_pos here], by omega⟩
        · rw [if_neg here]
          refine ih (by omega) ?_
          simpa [findAttr, here] using collected
    · simp [findAttr] at collected

/-- One iteration of `parse` that collects an attribute. -/
private theorem attributes_step (inside : offset + 4 ≤ stop)
    (fits : offset + 4 + (word16 raw (offset + 2)).toNat ≤ raw.length) :
    attributesFrom raw stop offset =
      ⟨word16 raw offset, slice raw (offset + 4) (word16 raw (offset + 2)).toNat⟩ ::
        attributesFrom raw stop (offset + 4 + (word16 raw (offset + 2)).toNat +
          padding (word16 raw (offset + 2)).toNat) := by
  rw [attributes_unfold, if_pos inside, if_neg (by omega)]

/-- The header at a place the buffers share. -/
theorem header_shared (bytes : ∀ i, 4 ≤ i → i < n → byteAt raw i = byteAt raw' i)
    (start : 4 ≤ offset) (inside : offset + 4 ≤ n) :
    word16 raw' offset = word16 raw offset ∧
      word16 raw' (offset + 2) = word16 raw (offset + 2) := by
  constructor
  · rw [word16, word16, bytes offset start (by omega), bytes (offset + 1) (by omega) (by omega)]
  · rw [word16, word16, bytes (offset + 2) (by omega) (by omega),
      bytes (offset + 2 + 1) (by omega) (by omega)]

/-- An attribute that lies where the buffers agree is collected from both. -/
theorem attributes_shared (stop stop' : Nat)
    (bytes : ∀ i, 4 ≤ i → i < n → byteAt raw i = byteAt raw' i)
    (slices : ∀ i len, 4 ≤ i → i + len ≤ n → slice raw i len = slice raw' i len)
    (room : n ≤ raw.length) (room' : n ≤ raw'.length) (start : 4 ≤ offset)
    (inside : offset + 4 ≤ stop) (inside' : offset + 4 ≤ stop')
    (fits : offset + 4 + (word16 raw (offset + 2)).toNat ≤ n) : ∃ attr next,
      attr.type = word16 raw offset ∧
      attributesFrom raw stop offset = attr :: attributesFrom raw stop next ∧
      attributesFrom raw' stop' offset = attr :: attributesFrom raw' stop' next ∧
      next = offset + 4 + (word16 raw (offset + 2)).toNat +
        padding (word16 raw (offset + 2)).toNat := by
  obtain ⟨header, len⟩ := header_shared bytes start (by omega)
  refine ⟨⟨word16 raw offset, slice raw (offset + 4) (word16 raw (offset + 2)).toNat⟩, _, rfl,
    attributes_step inside (by omega), ?_, rfl⟩
  rw [attributes_step inside' (by rw [len]; omega), header, len, slices _ _ (by omega) fits]

/-- Both scanners see the same headers in front of the integrity attribute and
the same attribute there, whatever comes behind. -/
theorem shared_front
    (bytes : ∀ i, 4 ≤ i → i < n → byteAt raw i = byteAt raw' i)
    (slices : ∀ i len, 4 ≤ i → i + len ≤ n → slice raw i len = slice raw' i len)
    (room : n ≤ raw.length) (room' : n ≤ raw'.length) (start : 4 ≤ offset)
    (found : scanFor raw type stop fuel offset = some pos)
    (found' : scanFor raw' type' stop' fuel' offset = some pos')
    (ending : pos + 4 + (word16 raw (pos + 2)).toNat = n)
    (ending' : pos' + 4 + (word16 raw' (pos' + 2)).toNat = n) :
    type = type' ∧ ∃ front attr rest rest', attr.type = type ∧
      (∀ other ∈ front, other.type ≠ type) ∧
      attributesFrom raw stop offset = front ++ attr :: rest ∧
      attributesFrom raw' stop' offset = front ++ attr :: rest' := by
  induction fuel generalizing offset fuel' with
  | zero => simp [scanFor] at found
  | succ fuel ih =>
    cases fuel' with
    | zero => simp [scanFor] at found'
    | succ fuel' =>
      have bounds := scanFor_bounds found
      have bounds' := scanFor_bounds found'
      obtain ⟨header, len⟩ := header_shared bytes start (by omega)
      have collect := attributes_shared stop stop' bytes slices room room' start
        (by omega) (by omega)
      rw [scanFor, if_pos ⟨by omega, by omega⟩] at found found'
      rw [header, len] at found'
      -- The two scans stop at the same header: the one that goes on is past `n`.
      by_cases here : word16 raw offset = type
      · rw [if_pos here] at found
        obtain rfl := Option.some.inj found
        have here' : word16 raw offset = type' := by
          by_contra elsewhere
          rw [if_neg elsewhere] at found'
          have later := scanFor_bounds found'
          omega
        obtain ⟨attr, next, isType, collected, collected', _⟩ := collect (by omega)
        exact ⟨here.symm.trans here', [], attr, _, _, isType.trans here, by simp, collected,
          collected'⟩
      · rw [if_neg here] at found
        have later := scanFor_bounds found
        have elsewhere : word16 raw offset ≠ type' := by
          intro here'
          rw [if_pos here'] at found'
          obtain rfl := Option.some.inj found'
          rw [len] at ending'
          omega
        rw [if_neg elsewhere] at found'
        obtain ⟨first, next, isType, collected, collected', rfl⟩ := collect (by omega)
        obtain ⟨sameType, front, attr, rest, rest', isChecked, others, split, split'⟩ :=
          ih (by omega) found found'
        refine ⟨sameType, first :: front, attr, rest, rest', isChecked, ?_, ?_, ?_⟩
        · intro other member
          rcases List.mem_cons.mp member with rfl | inside
          · rwa [isType]
          · exact others other inside
        · rw [collected, split, List.cons_append]
        · rw [collected', split', List.cons_append]

/-! ## Protected attributes -/

/-- The attributes in front of the integrity attribute. -/
def protectedAttrs (msg : TurnMessage) : List Attribute :=
  msg.attributes.takeWhile (·.type ≠ checkedType msg)

/-- The integrity attribute and what stands behind it. -/
def unprotectedAttrs (msg : TurnMessage) : List Attribute :=
  msg.attributes.dropWhile (·.type ≠ checkedType msg)

/-- The server takes its attribute of this type, or the lack of one, from the
protected part. -/
def Protected (msg : TurnMessage) (type : AttrType) : Prop :=
  msg.findAttr type = findAttr (protectedAttrs msg) type

instance (msg : TurnMessage) (type : AttrType) : Decidable (Protected msg type) :=
  inferInstanceAs (Decidable (msg.findAttr type = findAttr (protectedAttrs msg) type))

theorem byteAt_setLength (raw : Bytes) (len : UInt16) (other : i ≠ 2 ∧ i ≠ 3) :
    byteAt (setLength raw len) i = byteAt raw i := by
  simp only [byteAt, setLength, List.getD_eq_getElem?_getD]
  rw [List.getElem?_set_ne (Ne.symm other.2), List.getElem?_set_ne (Ne.symm other.1)]

theorem slice_setLength (raw : Bytes) (len : UInt16) (behind : 4 ≤ i) :
    slice (setLength raw len) i size = slice raw i size := by
  rw [slice, slice, setLength, List.drop_set_of_lt (by omega), List.drop_set_of_lt (by omega)]

/-- An accepted request carries the integrity attribute that was checked. -/
theorem checked_of_ok (class_ne : msg.msgClass ≠ .indication)
    (accepted : authenticate host realm secret env issued msg raw allocated = .ok) :
    ∃ attr, msg.findAttr (checkedType msg) = some attr := by
  unfold authenticate at accepted
  rw [if_neg class_ne] at accepted
  simp only at accepted
  split at accepted
  · split at accepted
    · rename_i present
      unfold checkedType
      split
      · rename_i sha256
        exact Option.isSome_iff_exists.mp sha256
      · rename_i other
        simp only [other, Bool.false_or] at present
        exact Option.isSome_iff_exists.mp (by simpa using present)
    · simp at accepted
  · simp at accepted

/-- Its value is in the buffer, because `parse` has collected it. -/
theorem checked_fits (parsed : parse raw = .ok msg) (class_ne : msg.msgClass ≠ .indication)
    (accepted : d.authResult host cfg env msg raw sender = .ok)
    (ending : integrityEnd raw (checkedType msg) = some n) : n ≤ raw.length := by
  obtain ⟨attr, present⟩ := checked_of_ok class_ne accepted
  rw [TurnMessage.findAttr, congrArg TurnMessage.attributes (parse_ok parsed).2] at present
  obtain ⟨pos, found, inside⟩ := scanFor_of_findAttr (Nat.le_add_left _ 20) present
  obtain ⟨pos', found', rfl⟩ := Option.map_eq_some_iff.mp ending
  obtain rfl := Option.some.inj (found'.symm.trans found)
  exact inside

/-- The request as far as it is protected. -/
def core (msg : TurnMessage) : TurnMessage where
  msgClass := .request
  method := msg.method
  length := 0
  transactionId := msg.transactionId
  attributes := protectedAttrs msg

/-- Requests that are covered alike have the same protected part. -/
theorem CoveredAlike.core_eq (alike : CoveredAlike raw raw' msg msg')
    (accepted : d.authResult host cfg env msg raw sender = .ok)
    (accepted' : d.authResult host cfg env msg' raw' sender = .ok) : core msg = core msg' := by
  obtain ⟨n, ending, ending', same⟩ := alike.same
  obtain ⟨pos, found, ends⟩ := Option.map_eq_some_iff.mp ending
  obtain ⟨pos', found', ends'⟩ := Option.map_eq_some_iff.mp ending'
  obtain ⟨_, shape⟩ := parse_ok alike.parsed
  obtain ⟨_, shape'⟩ := parse_ok alike.parsed'
  have bytes : ∀ i, i ≠ 2 ∧ i ≠ 3 → i < n → byteAt raw i = byteAt raw' i := by
    intro i other below
    rw [← byteAt_setLength raw 0 other, ← byteAt_setLength raw' 0 other]
    exact byteAt_of_take same below
  have slices : ∀ i len, 4 ≤ i → i + len ≤ n → slice raw i len = slice raw' i len := by
    intro i len behind inside
    rw [← slice_setLength raw 0 behind, ← slice_setLength raw' 0 behind]
    exact slice_of_take same inside
  have room := checked_fits alike.parsed (by simp [alike.request]) accepted ending
  have room' := checked_fits alike.parsed' (by simp [alike.request']) accepted' ending'
  have least := scanFor_bounds found
  obtain ⟨sameType, front, attr, rest, rest', isType, others, split, split'⟩ :=
    shared_front (fun i behind => bytes i (by omega)) slices room room' (by omega) found found'
      ends ends'
  have cut : ∀ {attrs rest : List Attribute}, attrs = front ++ attr :: rest →
      attrs.takeWhile (·.type ≠ checkedType msg) = front := by
    rintro _ rest rfl
    rw [List.takeWhile_append_of_pos (by simpa using others), List.takeWhile_cons_of_neg
      (by simp [isType]), List.append_nil]
  have protectedFront : protectedAttrs msg = front :=
    cut (by rw [congrArg TurnMessage.attributes shape, split])
  have protectedFront' : protectedAttrs msg' = front := by
    rw [protectedAttrs, ← sameType]
    exact cut (by rw [congrArg TurnMessage.attributes shape', split'])
  have method : msg.method = msg'.method := by
    rw [shape, shape']
    simp only [word16, bytes 0 (by omega) (by omega), bytes (0 + 1) (by omega) (by omega)]
  have tid : msg.transactionId = msg'.transactionId := by
    rw [shape, shape']
    exact congrArg Vector.ofFn (funext fun i => bytes (8 + i) (by omega) (by omega))
  simp only [core, method, tid, protectedFront, protectedFront']

/-! ## Reading only what is protected -/

/-- The handling of the message takes nothing from behind the integrity
attribute: what stands there is not looked at, or the request has failed before.
-/
def ReadsProtected (host : Host) (cfg : Config) (env : Env) (m : AllocationManager)
    (msg : TurnMessage) (client : Endpoint) : Prop :=
  Protected msg AttrType.username ∧
  match msg.method with
  | .allocate => (m.byClient.lookup (endpointKey client)).isSome ∨
      Protected msg AttrType.requestedTransport ∧
        ((∀ rt, msg.findAttr AttrType.requestedTransport = some rt →
            rt.value.length < 4 ∨ byteAt rt.value 0 ≠ 17) ∨
          m.userCount env.order (usernameOf msg) ≥ cfg.manager.maxAllocPerUser ∨
          (allocatePort cfg.manager env.draws m.usedPorts).1 = none ∨
          Protected msg AttrType.lifetime)
  | .refresh => (∀ a, m.findByClient client = some a → a.username ≠ usernameOf msg) ∨
      Protected msg AttrType.lifetime
  | .createPermission => m.findByClient client = none ∨
      peerAttrs (unprotectedAttrs msg) = [] ∨
      ∃ attr ∈ peerAttrs (protectedAttrs msg),
        isDeniedAddress host (host.addressToString (peerIp attr.value)) = true
  | .channelBind => m.findByClient client = none ∨
      Protected msg AttrType.channelNumber ∧ Protected msg AttrType.xorPeerAddress
  | _ => True

private theorem requestedLifetime_core (protect : Protected msg AttrType.lifetime) :
    requestedLifetime msg = requestedLifetime (core msg) := by
  unfold requestedLifetime
  rw [protect]
  rfl

theorem handleAllocate_core (mcfg : ManagerConfig) (user realm : Bytes)
    (reads : (m.byClient.lookup (endpointKey sender)).isSome ∨
      Protected msg AttrType.requestedTransport ∧
        ((∀ rt, msg.findAttr AttrType.requestedTransport = some rt →
            rt.value.length < 4 ∨ byteAt rt.value 0 ≠ 17) ∨
          m.userCount env.order user ≥ mcfg.maxAllocPerUser ∨
          (allocatePort mcfg env.draws m.usedPorts).1 = none ∨ Protected msg AttrType.lifetime)) :
    m.handleAllocate host mcfg env msg sender user realm =
      m.handleAllocate host mcfg env (core msg) sender user realm := by
  unfold handleAllocate
  by_cases existing : (m.byClient.lookup (endpointKey sender)).isSome
  · simp [existing, core]
  · obtain ⟨transport, reads⟩ := reads.resolve_left existing
    have transport : (core msg).findAttr AttrType.requestedTransport =
      msg.findAttr AttrType.requestedTransport := transport.symm
    simp only [existing, Bool.false_eq_true, ↓reduceIte, transport]
    cases given : msg.findAttr AttrType.requestedTransport with
    | none => rfl
    | some rt =>
      simp only
      by_cases refused : rt.value.length < 4 ∨ byteAt rt.value 0 ≠ 17
      · rw [if_pos refused, if_pos refused]
        rfl
      · rw [if_neg refused, if_neg refused]
        by_cases full : m.userCount env.order user ≥ mcfg.maxAllocPerUser
        · rw [if_pos full, if_pos full]
          rfl
        · rw [if_neg full, if_neg full]
          cases search : allocatePort mcfg env.draws m.usedPorts with
          | mk port usedPorts =>
            cases port with
            | none => rfl
            | some port =>
              have lifetime : Protected msg AttrType.lifetime := by
                rcases reads with bad | quota | exhausted | lifetime
                · exact absurd (bad rt given) refused
                · exact absurd quota full
                · simp [search] at exhausted
                · exact lifetime
              simp only [requestedLifetime_core lifetime]
              rfl

theorem handleRefresh_core (user : Bytes)
    (reads : (∀ a, m.findByClient sender = some a → a.username ≠ user) ∨
      Protected msg AttrType.lifetime) :
    m.handleRefresh env msg sender user = m.handleRefresh env (core msg) sender user := by
  unfold handleRefresh
  cases found : m.find m.byClient sender with
  | none => rfl
  | some entry =>
    obtain ⟨p, alloc⟩ := entry
    simp only
    by_cases named : alloc.username = user
    · have lifetime := reads.resolve_left fun other =>
        other alloc (findByClient_eq_some.mpr ⟨p, found⟩) named
      simp only [requestedLifetime_core lifetime]
      rfl
    · rw [if_pos named, if_pos named]
      rfl

private theorem permitPeers_append (front behind : List Attribute) (a : Allocation)
    (foundPeer : Bool) :
    permitPeers host now (front ++ behind) a foundPeer =
      match permitPeers host now front a foundPeer with
      | (a', none) => (a', none)
      | (a', some foundPeer') => permitPeers host now behind a' foundPeer' := by
  induction front generalizing a foundPeer with
  | nil => rfl
  | cons attr front ih =>
    simp only [List.cons_append, permitPeers, ih]
    split
    · rfl
    · split
      · rfl
      · split <;> rfl

private theorem permitPeers_skip (attrs : List Attribute) (none : peerAttrs attrs = [])
    (a : Allocation) (foundPeer : Bool) :
    permitPeers host now attrs a foundPeer = (a, some foundPeer) := by
  induction attrs with
  | nil => rfl
  | cons attr attrs ih =>
    have skip : ¬ (attr.type = AttrType.xorPeerAddress ∧ 8 ≤ attr.value.length) := by
      intro counts
      simp [peerAttrs, counts] at none
    have rest : peerAttrs attrs = [] := by simpa [peerAttrs, skip] using none
    simp only [permitPeers]
    split
    · exact ih rest
    · rw [if_pos (by grind)]
      exact ih rest

theorem handleCreatePermission_core
    (reads : m.findByClient sender = none ∨ peerAttrs (unprotectedAttrs msg) = [] ∨
      ∃ attr ∈ peerAttrs (protectedAttrs msg),
        isDeniedAddress host (host.addressToString (peerIp attr.value)) = true) :
    m.handleCreatePermission host env msg sender =
      m.handleCreatePermission host env (core msg) sender := by
  unfold handleCreatePermission
  cases found : m.find m.byClient sender with
  | none => rfl
  | some entry =>
    obtain ⟨p, alloc⟩ := entry
    have loop : permitPeers host env.now msg.attributes alloc false =
        permitPeers host env.now (core msg).attributes alloc false := by
      have halves : msg.attributes = protectedAttrs msg ++ unprotectedAttrs msg :=
        List.takeWhile_append_dropWhile.symm
      have ends := permitPeers_ends host env.now (protectedAttrs msg) alloc false
      rw [halves, permitPeers_append]
      show _ = permitPeers host env.now (protectedAttrs msg) alloc false
      generalize permitPeers host env.now (protectedAttrs msg) alloc false = result at ends ⊢
      obtain ⟨a', flag⟩ := result
      cases flag with
      | none => rfl
      | some flag =>
        rcases reads with absent | clean | ⟨attr, member, denied⟩
        · simp [findByClient, found] at absent
        · exact permitPeers_skip _ clean a' flag
        · have early : (peerAttrs (protectedAttrs msg)).any (fun attr =>
              isDeniedAddress host (host.addressToString (peerIp attr.value))) = true :=
            List.any_eq_true.mpr ⟨attr, member, denied⟩
          simp [early] at ends
    simp only [loop]
    rfl

theorem handleChannelBind_core
    (reads : m.findByClient sender = none ∨
      Protected msg AttrType.channelNumber ∧ Protected msg AttrType.xorPeerAddress) :
    m.handleChannelBind host env msg sender = m.handleChannelBind host env (core msg) sender := by
  unfold handleChannelBind
  cases found : m.find m.byClient sender with
  | none => rfl
  | some entry =>
    rcases reads with absent | ⟨number, address⟩
    · simp [findByClient, found] at absent
    · rw [number, address]
      rfl

/-- A request that reads only what is protected is handled as its protected part. -/
theorem handleRequest_core (reads : ReadsProtected host cfg env m msg sender) :
    handleRequest host cfg env m msg sender = handleRequest host cfg env m (core msg) sender ∧
      usernameOf msg = usernameOf (core msg) := by
  obtain ⟨username, reads⟩ := reads
  have named : usernameOf msg = usernameOf (core msg) := by
    unfold usernameOf
    rw [username]
    rfl
  refine ⟨?_, named⟩
  unfold handleRequest
  rw [← named]
  have method : (core msg).method = msg.method := rfl
  rw [method]
  cases kind : msg.method <;> simp only [kind] at reads ⊢
  · exact handleAllocate_core _ _ _ reads
  · exact handleRefresh_core _ reads
  · rfl
  · rfl
  · exact handleCreatePermission_core reads
  · exact handleChannelBind_core reads
  · rfl

/-- The outcome of an accepted request, by its handler. -/
private theorem onPacket_accepted (parsed : parse raw = .ok msg) (request : msg.msgClass = .request)
    (accepted : d.authResult host cfg env msg raw sender = .ok) :
    d.onPacket host cfg env raw sender via =
      let answer := handleRequest host cfg env d.manager msg sender
      .ok (⟨d.nonces, answer.1, some via⟩, if answer.2 ≠ [] then
        [⟨⟨signResponse host cfg answer.2 (usernameOf msg)
          (HmacValidator.getPassword host cfg.sharedSecret (usernameOf msg)), sender, .reply⟩, via⟩]
        else []) := by
  have verdict : ({ d with currentTransport := some via } : TurnDispatcher).authResult host cfg env
    msg raw sender = .ok := accepted
  rw [onPacket_of_parse parsed, handleStun]
  simp only [request, reduceCtorEq, ↓reduceIte, verdict]
  split <;> rfl

/-- The same new tables and the same packets. -/
def SameEffect (outcome outcome' : Except Exn (TurnDispatcher × List Sent)) : Prop :=
  outcome.map (fun result => (result.1.manager, result.2)) =
    outcome'.map (fun result => (result.1.manager, result.2))

/-- **What the integrity check covers decides.** Two accepted requests that are
the same up to the end of their integrity attribute have the same effect, when
neither makes the server read an attribute from behind it. -/
theorem covered_alike (host : Host) (cfg : Config) (env : Env) (d : TurnDispatcher)
    (sender : Endpoint) (via : Transport) (alike : CoveredAlike raw raw' msg msg')
    (accepted : d.authResult host cfg env msg raw sender = .ok)
    (accepted' : d.authResult host cfg env msg' raw' sender = .ok)
    (reads : ReadsProtected host cfg env d.manager msg sender)
    (reads' : ReadsProtected host cfg env d.manager msg' sender) :
    SameEffect (d.onPacket host cfg env raw sender via)
      (d.onPacket host cfg env raw' sender via) := by
  have same := alike.core_eq accepted accepted'
  obtain ⟨handled, named⟩ := handleRequest_core reads
  obtain ⟨handled', named'⟩ := handleRequest_core reads'
  rw [onPacket_accepted alike.parsed alike.request accepted,
    onPacket_accepted alike.parsed' alike.request' accepted', handled, handled', named, named',
    same]
  rfl

/-! ## A request with something behind -/

/-- An accepted Allocate with attributes behind its integrity attribute. -/
def allocateWith (behind : List Attribute) : Bytes :=
  let b := Deployment.signed (Deployment.allocateBy Deployment.alice 1)
    Deployment.allocateAliceMac ++ behind.flatMap encodeAttr
  setLength b (b.length - 20).toUInt16

/-- What `parse` makes of it. -/
def allocateMessage (length : UInt16) (behind : List Attribute) : TurnMessage :=
  ⟨.request, .allocate, length, Vector.replicate 12 1,
    Deployment.credentials Deployment.alice ++
      ⟨AttrType.requestedTransport, [17, 0, 0, 0]⟩ ::
        ⟨AttrType.messageIntegrity, Deployment.allocateAliceMac.toList⟩ :: behind⟩

/-- The server after it has issued the nonce. -/
def issued : TurnDispatcher :=
  ⟨(∅ : NonceStore).insert Deployment.nonce (3601 * 1000000000), AllocationManager.empty, none⟩

theorem covered_alike_software :
    SameEffect (issued.onPacket Deployment.host Deployment.config (Deployment.surroundings 0)
        (allocateWith []) Deployment.aliceAddr .udp)
      (issued.onPacket Deployment.host Deployment.config (Deployment.surroundings 0)
        (allocateWith [⟨0x8022, [122]⟩]) Deployment.aliceAddr .udp) := by
  have alike : CoveredAlike (allocateWith []) (allocateWith [⟨0x8022, [122]⟩])
      (allocateMessage 104 []) (allocateMessage 112 [⟨0x8022, [122]⟩]) :=
    ⟨by decide +kernel, by decide +kernel, rfl, rfl, (allocateWith []).length, by decide +kernel,
      by decide +kernel, by decide +kernel⟩
  have reads : ReadsProtected Deployment.host Deployment.config (Deployment.surroundings 0)
      issued.manager (allocateMessage 104 []) Deployment.aliceAddr :=
    ⟨by decide +kernel, .inr ⟨by decide +kernel, .inr (.inr (.inr (by decide +kernel)))⟩⟩
  have reads' : ReadsProtected Deployment.host Deployment.config (Deployment.surroundings 0)
      issued.manager (allocateMessage 112 [⟨0x8022, [122]⟩]) Deployment.aliceAddr :=
    ⟨by decide +kernel, .inr ⟨by decide +kernel, .inr (.inr (.inr (by decide +kernel)))⟩⟩
  exact covered_alike _ _ _ _ _ _ alike (by decide +kernel) (by decide +kernel) reads reads'

/-- A LIFETIME of one minute behind the integrity attribute is granted. -/
theorem uncovered_lifetime : ¬ ∀ host cfg env d sender via raw raw' msg msg',
    CoveredAlike raw raw' msg msg' →
    TurnDispatcher.authResult host cfg env d msg raw sender = .ok →
    TurnDispatcher.authResult host cfg env d msg' raw' sender = .ok →
    SameEffect (TurnDispatcher.onPacket host cfg env d raw sender via)
      (TurnDispatcher.onPacket host cfg env d raw' sender via) := by
  intro all
  have alike : CoveredAlike (allocateWith []) (allocateWith [⟨AttrType.lifetime, bytes32 60⟩])
      (allocateMessage 104 []) (allocateMessage 112 [⟨AttrType.lifetime, bytes32 60⟩]) :=
    ⟨by decide +kernel, by decide +kernel, rfl, rfl, (allocateWith []).length, by decide +kernel,
      by decide +kernel, by decide +kernel⟩
  have same := all Deployment.host Deployment.config (Deployment.surroundings 0) issued
    Deployment.aliceAddr .udp _ _ _ _ alike (by decide +kernel) (by decide +kernel)
  have answers := congrArg (fun outcome => outcome.toOption.map Prod.snd) same
  exact absurd answers (by decide +kernel)

end Zaza.IntegrityCoverage
