import Zaza.IntegrityCoverage
import Zaza.Trailing

/-!
The three walks over the attributes of a message.

`parse` collects attributes up to the declared end of the message and gives up at a value
the buffer does not hold; the two integrity checks look for their own attribute, up to the
same end, and step over values without asking. On a message that `parse` accepts they all
walk over the same headers (`Trailing.headers`): `parse` reads those in front of the first
value that is not there, and a check stops at the first header of its type. So a check
that stops somewhere `parse` did not get to is one that no request asks for, and otherwise
what it hashes is what was read (`Encodes`).
-/
namespace Zaza.Scanners
open Zaza StunCodec Trailing LongTermCred DispatcherSteps IntegrityCoverage

variable {host : Host} {env : Env} {store : NonceStore} {raw data bytes : Bytes}
  {msg : TurnMessage} {type : AttrType}

/-! ## Bytes of a message -/

/-- The bytes are the attributes, one after the other: type, length, value, and padding of
any content up to a multiple of four. -/
inductive Encodes : List Attribute → Bytes → Prop where
  | nil : Encodes [] []
  | cons {attr : Attribute} {attrs : List Attribute} {pad bytes : Bytes} :
      attr.value.length < 65536 → pad.length = padding attr.value.length → Encodes attrs bytes →
      Encodes (attr :: attrs) (bytes16 attr.type ++ (bytes16 attr.value.length.toUInt16 ++
        (attr.value ++ (pad ++ bytes))))

/-- Two bytes of the buffer are the sixteen bits read there. -/
theorem slice_word16 (inside : offset + 2 ≤ data.length) :
    slice data offset 2 = bytes16 (word16 data offset) := by
  rw [word16, bytes16_be16, byteAt, byteAt, List.getD_eq_getElem _ _ (by omega),
    List.getD_eq_getElem _ _ (by omega), slice, List.drop_eq_getElem_cons (by omega),
    List.drop_eq_getElem_cons (by omega)]
  rfl

/-- The bytes from one header to a place behind its padded value. -/
theorem slice_attribute (inside : valueEnd data offset + padding (valueLen data offset) + rest ≤
      data.length) :
    slice data offset (4 + (valueLen data offset + (padding (valueLen data offset) + rest))) =
      bytes16 (word16 data offset) ++ (bytes16 (word16 data (offset + 2)) ++
        (slice data (offset + 4) (valueLen data offset) ++
          (slice data (valueEnd data offset) (padding (valueLen data offset)) ++
            slice data (valueEnd data offset + padding (valueLen data offset)) rest))) := by
  rw [valueEnd] at inside ⊢
  rw [show 4 = 2 + 2 from rfl, slice_split, slice_split, slice_split, slice_split,
    slice_word16 (by omega), slice_word16 (by omega), List.append_assoc]

/-- An attribute in front of others. -/
theorem Encodes.behind {attrs : List Attribute} (encodes : Encodes attrs
      (slice data (valueEnd data offset + padding (valueLen data offset)) rest))
    (inside : valueEnd data offset + padding (valueLen data offset) + rest ≤ data.length) :
    Encodes (attributeAt data offset :: attrs) (slice data offset
      (4 + (valueLen data offset + (padding (valueLen data offset) + rest)))) := by
  have size : (attributeAt data offset).value.length = valueLen data offset := by
    apply slice_length
    rw [valueEnd] at inside
    omega
  have cast : (valueLen data offset).toUInt16 = word16 data (offset + 2) := by
    simp [valueLen]
  have small : (attributeAt data offset).value.length < 65536 := by
    rw [size]
    exact (word16 data (offset + 2)).toNat_lt
  have pad : (slice data (valueEnd data offset) (padding (valueLen data offset))).length =
      padding (attributeAt data offset).value.length := by
    rw [size]
    exact slice_length (by omega)
  have encoded := Encodes.cons small pad encodes
  rw [size, cast] at encoded
  rw [slice_attribute inside]
  exact encoded

/-- What stands between two headers is the attributes in between. -/
theorem encodes_between (whole : stop ≤ data.length)
    (split : headersFrom data stop fuel offset = before ++ pos :: after) : offset ≤ pos ∧
      Encodes (before.map (attributeAt data)) (slice data offset (pos - offset)) := by
  induction before generalizing offset fuel with
  | nil =>
    cases fuel with
    | zero => simp [headersFrom] at split
    | succ fuel =>
      simp only [headersFrom] at split
      split at split
      · obtain ⟨rfl, -⟩ := List.cons.inj split
        simp only [Nat.sub_self, slice, List.take_zero, List.map_nil]
        exact ⟨Nat.le_refl _, .nil⟩
      · simp at split
  | cons first before ih =>
    cases fuel with
    | zero => simp [headersFrom] at split
    | succ fuel =>
      simp only [headersFrom] at split
      split at split
      · obtain ⟨rfl, behind⟩ := List.cons.inj split
        obtain ⟨later, encodes⟩ := ih behind
        have inside : pos + 4 ≤ stop := by
          apply headersFrom_bounds
          rw [behind]
          exact List.mem_append_right _ (List.mem_cons_self ..)
        have length : pos - offset = 4 + (valueLen data offset + (padding (valueLen data offset) +
            (pos - (valueEnd data offset + padding (valueLen data offset))))) := by
          rw [valueEnd] at later ⊢
          omega
        refine ⟨by rw [valueEnd] at later; omega, ?_⟩
        rw [length]
        exact encodes.behind (by omega)
      · simp at split

/-! ## The walk of the checks -/

/-- Where the whole message is in the buffer, the scan goes over its headers. -/
theorem scanFor_eq (whole : stop ≤ raw.length) (fuel offset : Nat) :
    scanFor raw type stop fuel offset =
      (headersFrom raw stop fuel offset).find? fun pos => word16 raw pos = type := by
  induction fuel generalizing offset with
  | zero => rfl
  | succ fuel ih =>
    simp only [scanFor, headersFrom]
    by_cases more : offset + 4 ≤ stop
    · rw [if_pos ⟨more, by omega⟩, if_pos more]
      by_cases here : word16 raw offset = type
      · rw [if_pos here, List.find?_cons_of_pos (by simpa using here)]
      · rw [if_neg here, List.find?_cons_of_neg (by simpa using here), ← ih]
        rfl
    · rw [if_neg (fun both => more both.1), if_neg more]
      rfl

theorem integrityOffset_eq (parsed : parse raw = .ok msg) :
    integrityOffset raw type = (headers raw).find? fun pos => word16 raw pos = type :=
  scanFor_eq (parse_size parsed) _ 20

/-! ## The same message -/

/-- The header of the first attribute of a type that `parse` has read. In front of it stand
the attributes in front of that one in the list, and nothing else. -/
def FirstAt (raw : Bytes) (msg : TurnMessage) (type : AttrType) (pos : Nat) : Prop :=
  ∃ front attr rest, msg.attributes = front ++ attr :: rest ∧ attr.type = type ∧
    (∀ other ∈ front, other.type ≠ type) ∧ (Trailing.readAt raw)[front.length]? = some pos ∧
    attr = attributeAt raw pos ∧ valueEnd raw pos ≤ raw.length ∧
    Encodes front ((raw.take pos).drop 20)

/-- The scan stops at the first attribute of its type, if `parse` has read one. -/
theorem stops_at_first (parsed : parse raw = .ok msg) (present : msg.findAttr type = some attr) :
    ∃ pos, integrityOffset raw type = some pos ∧ FirstAt raw msg type pos := by
  obtain ⟨isType, front, rest, split, others⟩ := List.find?_eq_some_iff_append.mp present
  simp only [decide_eq_true_eq] at isType
  have unlike : ∀ other ∈ front, other.type ≠ type := by simpa using others
  have read := split
  rw [attributes_eq parsed] at read
  obtain ⟨before, behind, readAt_split, rfl, tail⟩ := List.map_eq_append_iff.mp read
  obtain ⟨pos, after, rfl, rfl, -⟩ := List.map_eq_cons_iff.mp tail
  have held : valueEnd raw pos ≤ raw.length := by
    have member : pos ∈ Trailing.readAt raw := by simp [readAt_split]
    simpa using List.mem_takeWhile_imp member
  -- What `parse` reads is a front of the headers, so the scan meets the same ones first.
  have walk : headers raw = before ++ pos :: (after ++ (headers raw).dropWhile
      fun offset => valueEnd raw offset ≤ raw.length) := by
    rw [← List.cons_append, ← List.append_assoc, ← readAt_split, Trailing.readAt,
      List.takeWhile_append_dropWhile]
  have skipped : before.find? (fun pos => word16 raw pos = type) = none := by
    apply List.find?_eq_none.mpr
    intro o member
    simpa [attributeAt] using unlike _ (List.mem_map_of_mem member)
  obtain ⟨-, encodes⟩ := encodes_between (parse_size parsed) walk
  refine ⟨pos, ?_, before.map (attributeAt raw), attributeAt raw pos, rest, split, isType, unlike,
    by simp [readAt_split], rfl, held, ?_⟩
  · rw [integrityOffset_eq parsed, walk, List.find?_append, skipped,
      List.find?_cons_of_pos (by simpa [attributeAt] using isType)]
    rfl
  · rw [List.drop_take]
    exact encodes

/-- A header that the scan finds and `parse` has not read: no attribute of its type was read. -/
theorem absent_of_unread (parsed : parse raw = .ok msg)
    (found : integrityOffset raw type = some pos) (unread : pos ∉ Trailing.readAt raw) :
    msg.findAttr type = none := by
  cases present : msg.findAttr type with
  | none => rfl
  | some attr =>
    obtain ⟨pos', found', front, _, _, _, _, _, place, _⟩ := stops_at_first parsed present
    obtain rfl := Option.some.inj (found.symm.trans found')
    exact absurd (List.mem_of_getElem? place) unread

/-! ## What the digest covers -/

/-- The digest behind a header is the HMAC-SHA256 of everything in front of the header, with
the length that ends with the digest, and of the header and thirty-two zeros. -/
def Sha256At (host : Host) (realm raw username password : Bytes) (pos : Nat) : Prop :=
  pos + 4 + 32 ≤ raw.length ∧ slice raw (pos + 4) 32 =
    (host.hmacSha256 (longTermKey host username realm password)
      (setLength (raw.take pos) (pos + 4 + 32 - 20).toUInt16 ++
        (slice raw pos 4 ++ List.replicate 32 0))).toList

/-- The digest behind a header is the HMAC-SHA1 of everything in front of the header, with
the length that ends with the digest. -/
def Sha1At (host : Host) (realm raw username password : Bytes) (pos : Nat) : Prop :=
  pos + 4 + 20 ≤ raw.length ∧ slice raw (pos + 4) 20 =
    (host.hmacSha1 (longTermKeyMd5 host username realm password)
      (setLength (raw.take pos) (pos + 4 + 20 - 20).toUInt16)).toList

theorem setLength_append (front behind : Bytes) (len : UInt16) (long : 4 ≤ front.length) :
    setLength (front ++ behind) len = setLength front len ++ behind := by
  rw [setLength, setLength, List.set_append_left _ _ (by omega),
    List.set_append_left _ _ (by simp; omega)]

/-- A check that succeeds has found its digest. -/
theorem checkIntegrity_true {covered : Nat → Bytes} {mac : Bytes → Bytes}
    (checked : checkIntegrity raw type size covered mac = true)
    (found : integrityOffset raw type = some pos) : pos + 4 + size ≤ raw.length ∧
      slice raw (pos + 4) size = mac (setLength (covered pos) (pos - 20 + 4 + size).toUInt16) := by
  unfold checkIntegrity at checked
  split at checked
  · simp at checked
  · simp only [found] at checked
    split at checked
    · simp at checked
    · exact ⟨by omega, (of_decide_eq_true checked).symm⟩

theorem sha256At_of_verified
    (found : integrityOffset raw AttrType.messageIntegritySha256 = some pos)
    (verified : verifyMessageIntegrity host realm raw username password = true) :
    Sha256At host realm raw username password pos := by
  have start := (scanFor_bounds found).1
  obtain ⟨room, digest⟩ := checkIntegrity_true verified found
  refine ⟨room, ?_⟩
  have size : (raw.take pos).length = pos := by
    rw [List.length_take]
    omega
  rw [digest, List.take_add, List.append_assoc, setLength_append _ _ _ (by omega),
    show pos - 20 + 4 + 32 = pos + 4 + 32 - 20 by omega]
  rfl

theorem sha1At_of_verified (found : integrityOffset raw AttrType.messageIntegrity = some pos)
    (verified : verifyMessageIntegrityMd5 host realm raw username password = true) :
    Sha1At host realm raw username password pos := by
  have start := (scanFor_bounds found).1
  obtain ⟨room, digest⟩ := checkIntegrity_true verified found
  refine ⟨room, ?_⟩
  rw [digest, show pos - 20 + 4 + 20 = pos + 4 + 20 - 20 by omega]

/-- The check of a request, given what either verification would say. -/
def integrityWith (sha256 sha1 : Bool) (msg : TurnMessage) : Bool :=
  if (msg.findAttr AttrType.messageIntegritySha256).isSome then sha256
  else if (msg.findAttr AttrType.messageIntegrity).isSome then sha1
  else true

/-- A verification is not asked for unless `parse` has read the header it stops at. -/
theorem unread_not_asked (parsed : parse raw = .ok msg) (realm username password : Bytes) :
    (∀ pos, integrityOffset raw AttrType.messageIntegritySha256 = some pos →
      pos ∉ Trailing.readAt raw → ∀ verdict,
      integrityHolds host realm msg raw username password =
        integrityWith verdict (verifyMessageIntegrityMd5 host realm raw username password) msg) ∧
    (∀ pos, integrityOffset raw AttrType.messageIntegrity = some pos →
      pos ∉ Trailing.readAt raw → ∀ verdict,
      integrityHolds host realm msg raw username password =
        integrityWith (verifyMessageIntegrity host realm raw username password) verdict msg) := by
  constructor
  · intro pos found unread verdict
    simp [integrityHolds, integrityWith, absent_of_unread parsed found unread]
  · intro pos found unread verdict
    simp [integrityHolds, integrityWith, absent_of_unread parsed found unread]

/-- What an accepted request was accepted on. -/
theorem digest_of_accepted (parsed : parse raw = .ok msg) (class_ne : msg.msgClass ≠ .indication)
    (accepted : authenticate host realm secret env store msg raw allocated = .ok) :
    ∃ username pos, msg.findAttr AttrType.username = some username ∧
      ((integrityOffset raw AttrType.messageIntegritySha256 = some pos ∧
          FirstAt raw msg AttrType.messageIntegritySha256 pos ∧
          Sha256At host realm raw username.value
            (HmacValidator.getPassword host secret username.value) pos) ∨
        (integrityOffset raw AttrType.messageIntegrity = some pos ∧
          FirstAt raw msg AttrType.messageIntegrity pos ∧
          Sha1At host realm raw username.value
            (HmacValidator.getPassword host secret username.value) pos)) := by
  obtain ⟨username, named, -, intact, -⟩ := authenticate_ok class_ne accepted
  obtain ⟨attr, present⟩ := checked_of_ok class_ne accepted
  obtain ⟨pos, found, first⟩ := stops_at_first parsed present
  refine ⟨username, pos, named, ?_⟩
  unfold integrityHolds at intact
  unfold checkedType at found first present
  split at intact
  · rename_i sha256
    rw [if_pos sha256] at found first
    exact .inl ⟨found, first, sha256At_of_verified found intact⟩
  · rename_i other
    rw [if_neg other] at found first present
    rw [if_pos (by simp [present])] at intact
    exact .inr ⟨found, first, sha1At_of_verified found intact⟩

/-- **The three scanners see the same message.** In a buffer that `parse` accepts, a scan for a
type that was read stops at its first attribute, with exactly the attributes before it in front; a
scan that stops at a header `parse` has not read is one whose verdict nobody asks for; and a
request is accepted on the digest behind the first integrity attribute, of what stands in front
of it. -/
theorem scanners_agree (parsed : parse raw = .ok msg) :
    (∀ type, (∃ attr ∈ msg.attributes, attr.type = type) →
      ∃ pos, integrityOffset raw type = some pos ∧ FirstAt raw msg type pos) ∧
    (∀ (host : Host) (realm username password : Bytes),
      (∀ pos, integrityOffset raw AttrType.messageIntegritySha256 = some pos →
        pos ∉ Trailing.readAt raw → ∀ verdict,
        integrityHolds host realm msg raw username password =
          integrityWith verdict (verifyMessageIntegrityMd5 host realm raw username password) msg) ∧
      (∀ pos, integrityOffset raw AttrType.messageIntegrity = some pos →
        pos ∉ Trailing.readAt raw → ∀ verdict,
        integrityHolds host realm msg raw username password =
          integrityWith (verifyMessageIntegrity host realm raw username password) verdict msg)) ∧
    (∀ (host : Host) (realm secret : Bytes) (env : Env) (store : NonceStore) (allocated : Bytes),
      msg.msgClass ≠ .indication →
      authenticate host realm secret env store msg raw allocated = .ok →
      ∃ username pos, msg.findAttr AttrType.username = some username ∧
        ((integrityOffset raw AttrType.messageIntegritySha256 = some pos ∧
            FirstAt raw msg AttrType.messageIntegritySha256 pos ∧
            Sha256At host realm raw username.value
              (HmacValidator.getPassword host secret username.value) pos) ∨
          (integrityOffset raw AttrType.messageIntegrity = some pos ∧
            FirstAt raw msg AttrType.messageIntegrity pos ∧
            Sha1At host realm raw username.value
              (HmacValidator.getPassword host secret username.value) pos))) := by
  refine ⟨?_, fun host realm username password => unread_not_asked parsed realm username password,
    fun host realm secret env store allocated class_ne accepted =>
      digest_of_accepted parsed class_ne accepted⟩
  rintro type ⟨attr, member, isType⟩
  have present : (msg.findAttr type).isSome := List.find?_isSome.mpr ⟨attr, member, by simpa⟩
  obtain ⟨first, found⟩ := Option.isSome_iff_exists.mp present
  exact stops_at_first parsed found

/-- The one nonce that was issued. -/
def issuedNonces : NonceStore := AList.insert Deployment.nonce 2000000000 ∅

/-- An Allocate signed with MESSAGE-INTEGRITY. -/
def signedAllocate : Bytes :=
  Deployment.signed (Deployment.allocateBy Deployment.alice 1) Deployment.allocateAliceMac

theorem scanners_agree_allocate : ∃ msg username pos, parse signedAllocate = .ok msg ∧
    authenticate Deployment.host Deployment.config.realm Deployment.config.sharedSecret
      (Deployment.surroundings 0) issuedNonces msg signedAllocate [] = .ok ∧
    integrityOffset signedAllocate AttrType.messageIntegrity = some pos ∧
    Sha1At Deployment.host Deployment.config.realm signedAllocate username
      (HmacValidator.getPassword Deployment.host Deployment.config.sharedSecret username) pos := by
  have accepts : (parse signedAllocate).toOption.any (fun msg =>
      decide (msg.msgClass ≠ .indication) &&
        decide (msg.findAttr AttrType.messageIntegritySha256 = none) &&
        decide (authenticate Deployment.host Deployment.config.realm
          Deployment.config.sharedSecret (Deployment.surroundings 0)
          issuedNonces msg signedAllocate [] = .ok)) = true := by
    decide +kernel
  cases parsed : parse signedAllocate with
  | error e => simp [parsed, Except.toOption] at accepts
  | ok msg =>
    simp only [parsed, Except.toOption, Option.any_some, Bool.and_eq_true, decide_eq_true_eq]
      at accepts
    obtain ⟨⟨class_ne, plain⟩, accepted⟩ := accepts
    obtain ⟨-, -, digest⟩ := scanners_agree parsed
    obtain ⟨username, pos, -, signed⟩ := digest _ _ _ _ _ _ class_ne accepted
    rcases signed with ⟨-, ⟨front, attr, rest, split, isType, _⟩, _⟩ | ⟨found, -, signed⟩
    · have present : (msg.findAttr AttrType.messageIntegritySha256).isSome :=
        List.find?_isSome.mpr ⟨attr, by simp [split], by simpa using isType⟩
      simp [plain] at present
    · exact ⟨msg, username.value, pos, rfl, accepted, found, signed⟩

end Zaza.Scanners
