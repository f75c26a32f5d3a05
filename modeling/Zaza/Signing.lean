import Zaza.DispatcherSteps

/-!
A signed response is one that its receiver accepts.

`signResponse` appends MESSAGE-INTEGRITY at the end of the buffer and hashes
everything before it under the length the message then has. The verifier does not
know where the end was: it walks the attributes up to the first MESSAGE-INTEGRITY
and puts in the length that ends there. Both arrive at the same bytes because a
builder's attributes lie one behind the other (`scanFor_encoded`), and because a
length that is overwritten twice is the last one.
-/
namespace Zaza.Signing
open Zaza StunCodec TurnDispatcher LongTermCred

variable {host : Host} {cfg : Config}

/-- A success response as `MessageBuilder` makes it. -/
def response (method : Method) (tid : TransactionId) (attrs : List Attribute) : MessageBuilder :=
  addAttrs (MessageBuilder.new method .successResponse tid) attrs

/-- The scan for an integrity attribute steps over a list of encoded attributes of
other types, one iteration each. -/
theorem scanFor_encoded {type : AttrType} (stop : Nat) (attrs : List Attribute)
    (front rest : Bytes) (fuel : Nat) (small : ∀ attr ∈ attrs, attr.value.length < 65536)
    (others : ∀ attr ∈ attrs, attr.type ≠ type) (inside : front.length + encodedSize attrs ≤ stop) :
    scanFor (front ++ (attrs.flatMap encodeAttr ++ rest)) type stop (fuel + attrs.length)
        front.length =
      scanFor (front ++ (attrs.flatMap encodeAttr ++ rest)) type stop fuel
        (front.length + encodedSize attrs) := by
  induction attrs generalizing front with
  | nil => simp [encodedSize]
  | cons attr attrs ih =>
    have sizes : encodedSize (attr :: attrs) = attrSize attr + encodedSize attrs := by
      simp [encodedSize]
    obtain ⟨type', len, room⟩ := header_encoded attr front (attrs.flatMap encodeAttr ++ rest)
      (small attr List.mem_cons_self)
    have grown := ih (front ++ encodeAttr attr)
      (fun attr member => small attr (List.mem_cons_of_mem _ member))
      (fun attr member => others attr (List.mem_cons_of_mem _ member))
      (by simp only [List.length_append, encodeAttr_length]; omega)
    have header : 4 ≤ attrSize attr := by simp [attrSize]
    have position : front.length + 4 + attr.value.length + padding attr.value.length =
        (front ++ encodeAttr attr).length := by
      rw [List.length_append, encodeAttr_length, attrSize]
      omega
    simp only [List.append_assoc] at grown
    rw [List.flatMap_cons, List.append_assoc, List.length_cons, ← Nat.add_assoc, scanFor,
      if_pos ⟨by omega, by omega⟩, type', if_neg (others attr List.mem_cons_self)]
    simp only [len, position]
    rw [grown, List.length_append, encodeAttr_length, sizes, Nat.add_assoc]

/-! ## The signer -/

section Signed
variable (method : Method) (tid : TransactionId) {attrs : List Attribute}
  (username password : Bytes)

/-- What the digest covers: the response, with the length it has once it is signed. -/
def covered (method : Method) (tid : TransactionId) (attrs : List Attribute) : Bytes :=
  bytes16 (MessageBuilder.encodeType method .successResponse) ++
    (bytes16 (encodedSize attrs + 24).toUInt16 ++ ([0x21, 0x12, 0xA4, 0x42] ++
      (tid.toList ++ attrs.flatMap encodeAttr)))

/-- The MESSAGE-INTEGRITY attribute of the signed response. -/
def integrityOf (host : Host) (cfg : Config) (method : Method) (tid : TransactionId)
    (attrs : List Attribute) (username password : Bytes) : Attribute :=
  ⟨AttrType.messageIntegrity, (host.hmacSha1 (longTermKeyMd5 host username cfg.realm password)
    (covered method tid attrs)).toList⟩

theorem covered_length : (covered method tid attrs).length = 20 + encodedSize attrs := by
  simp only [covered, List.length_append, encodeAttrs_length, bytes16_length,
    Vector.length_toList, List.length_cons, List.length_nil]
  omega

theorem encodeAttr_integrityOf : encodeAttr (integrityOf host cfg method tid attrs username
    password) = [0x00, 0x08, 0x00, 0x14] ++ (integrityOf host cfg method tid attrs username
      password).value := by
  have size : (integrityOf host cfg method tid attrs username password).value.length = 20 := by
    simp [integrityOf]
  have number : bytes16 (20 : Nat).toUInt16 = [0x00, 0x14] := by decide
  have type : (integrityOf host cfg method tid attrs username password).type =
    AttrType.messageIntegrity := rfl
  have word : bytes16 AttrType.messageIntegrity = [0x00, 0x08] := by decide
  rw [encodeAttr, size, number, type, word]
  simp [padding]

variable (fits : encodedSize attrs + 24 ≤ 65535)
include fits

/-- The signer appends one attribute to the message, which then counts it. -/
theorem signResponse_eq : signResponse host cfg (response method tid attrs).build username
    password = covered method tid attrs ++
      encodeAttr (integrityOf host cfg method tid attrs username password) := by
  have built := build_addAttrs method .successResponse tid (show encodedSize attrs ≤ 65535 by omega)
  have size := encodeMessage_length method .successResponse tid attrs
  have type : word16 (encodeMessage method .successResponse tid attrs) 0 =
      MessageBuilder.encodeType method .successResponse := be16_bytes16 _
  have lengths : 20 + encodedSize attrs - 20 + 4 + 20 = encodedSize attrs + 24 := by omega
  have rewritten : setLength (encodeMessage method .successResponse tid attrs)
      (encodedSize attrs + 24).toUInt16 = covered method tid attrs := by
    rw [encodeMessage, DispatcherSteps.setLength_header, covered]
  rw [response, built, signResponse, if_neg (by omega), type, class_encodeType, if_neg (by simp)]
  simp only [size, lengths, rewritten]
  rw [encodeAttr_integrityOf]
  rfl

/-- A signed response is the message with the attribute behind the others. -/
theorem signResponse_encoded : signResponse host cfg (response method tid attrs).build username
    password = encodeMessage method .successResponse tid
      (attrs ++ [integrityOf host cfg method tid attrs username password]) := by
  have size : attrSize (integrityOf host cfg method tid attrs username password) = 24 := by
    simp [attrSize, integrityOf, padding]
  have sum : encodedSize (attrs ++ [integrityOf host cfg method tid attrs username password]) =
      encodedSize attrs + 24 := by
    simp [encodedSize, size]
  rw [signResponse_eq method tid username password fits, covered, encodeMessage, sum,
    List.flatMap_append]
  simp

/-! ## The verifier -/

variable (others : ∀ attr ∈ attrs, attr.type ≠ AttrType.messageIntegrity)
include others

/-- The walk ends on the attribute that was appended. -/
theorem integrityOffset_signed : integrityOffset (signResponse host cfg
    (response method tid attrs).build username password) AttrType.messageIntegrity =
      some (20 + encodedSize attrs) := by
  have small := value_lt_of_fits (show encodedSize attrs ≤ 65535 by omega)
  have field : word16 (signResponse host cfg (response method tid attrs).build username
      password) 2 = (encodedSize attrs + 24).toUInt16 := by
    rw [signResponse_eq method tid username password fits]
    exact be16_bytes16 _
  have stop : (encodedSize attrs + 24).toUInt16.toNat = encodedSize attrs + 24 :=
    toUInt16_toNat (by omega)
  have count : attrs.length ≤ encodedSize attrs := by
    have each : ∀ n ∈ attrs.map attrSize, 1 ≤ n := by
      intro n member
      obtain ⟨attr, _, rfl⟩ := List.mem_map.mp member
      rw [attrSize]
      omega
    have total := List.length_le_sum_of_one_le (attrs.map attrSize) each
    simpa [encodedSize] using total
  rw [integrityOffset, field, stop, signResponse_eq method tid username password fits]
  have isType : (integrityOf host cfg method tid attrs username password).type =
    AttrType.messageIntegrity := rfl
  have short : (integrityOf host cfg method tid attrs username password).value.length < 65536 := by
    simp [integrityOf]
  generalize integrityOf host cfg method tid attrs username password = integrity at isType short
  obtain ⟨type, _, room⟩ := header_encoded integrity (covered method tid attrs) [] short
  rw [covered_length, List.append_nil, isType] at type
  rw [covered_length, List.append_nil, attrSize] at room
  have header : (bytes16 (MessageBuilder.encodeType method .successResponse) ++
      (bytes16 (encodedSize attrs + 24).toUInt16 ++
        ([0x21, 0x12, 0xA4, 0x42] ++ tid.toList))).length = 20 := by simp
  have walk := scanFor_encoded (20 + (encodedSize attrs + 24)) attrs
    (bytes16 (MessageBuilder.encodeType method .successResponse) ++
      (bytes16 (encodedSize attrs + 24).toUInt16 ++ ([0x21, 0x12, 0xA4, 0x42] ++ tid.toList)))
    (encodeAttr integrity) (43 + (encodedSize attrs - attrs.length) + 1) small others
    (by rw [header]; omega)
  have fuel : 43 + (encodedSize attrs - attrs.length) + 1 + attrs.length =
      20 + (encodedSize attrs + 24) := by omega
  rw [header, fuel] at walk
  simp only [List.append_assoc] at walk
  rw [covered] at room type ⊢
  simp only [List.append_assoc] at room type ⊢
  rw [walk, scanFor, if_pos ⟨by omega, by omega⟩, if_pos type]

/-- The verifier recomputes the digest the signer wrote. -/
theorem verify_signed : verifyMessageIntegrityMd5 host cfg.realm (signResponse host cfg
    (response method tid attrs).build username password) username password = true := by
  have located := @integrityOffset_signed host cfg method tid attrs username password fits others
  have lengths : 20 + encodedSize attrs - 20 + 4 + 20 = encodedSize attrs + 24 := by omega
  have size : (integrityOf host cfg method tid attrs username password).value.length = 20 := by
    simp [integrityOf]
  rw [signResponse_eq method tid username password fits, encodeAttr_integrityOf] at located ⊢
  have front : (covered method tid attrs ++ ([0x00, 0x08, 0x00, 0x14] ++ (integrityOf host cfg
      method tid attrs username password).value)).take (20 + encodedSize attrs) =
        covered method tid attrs := by
    rw [← covered_length method tid, List.take_left]
  have again : setLength (covered method tid attrs) (encodedSize attrs + 24).toUInt16 =
      covered method tid attrs := by
    rw [covered, DispatcherSteps.setLength_header]
  have value : slice (covered method tid attrs ++ ([0x00, 0x08, 0x00, 0x14] ++ (integrityOf host
      cfg method tid attrs username password).value)) (20 + encodedSize attrs + 4) 20 =
        (integrityOf host cfg method tid attrs username password).value := by
    have middle := slice_append (covered method tid attrs ++ [0x00, 0x08, 0x00, 0x14])
      (integrityOf host cfg method tid attrs username password).value []
    rw [size] at middle
    simpa [covered_length] using middle
  rw [verifyMessageIntegrityMd5, checkIntegrity, located,
    if_neg (by simp [covered_length]; omega)]
  simp only
  rw [if_neg (by simp [covered_length, size]), front, lengths, again, value]
  simp [integrityOf]

end Signed

/-- An error response is returned as it is. -/
theorem signResponse_error (method : Method) (tid : TransactionId) (attrs : List Attribute)
    (username password : Bytes) :
    signResponse host cfg
        (addAttrs (MessageBuilder.new method .errorResponse tid) attrs).build username password =
      (addAttrs (MessageBuilder.new method .errorResponse tid) attrs).build := by
  have type : (addAttrs (MessageBuilder.new method .errorResponse tid) attrs).msgType =
      MessageBuilder.encodeType method .errorResponse := by
    rw [addAttrs_cut, addAttrs_small _ _ fun attr member => ?_]
    · rfl
    · obtain ⟨original, _, rfl⟩ := List.mem_map.mp member
      exact cutAttr_small original
  have first : word16 (addAttrs (MessageBuilder.new method .errorResponse tid) attrs).build 0 =
      MessageBuilder.encodeType method .errorResponse := by
    rw [← type]
    exact be16_bytes16 _
  rw [signResponse, first, class_encodeType]
  split
  · rfl
  · rfl

/-- **Signed responses verify.** A success response of the builder without a
MESSAGE-INTEGRITY attribute, whose attribute bytes leave room for one, is signed into
the same message with that attribute behind the others, counted by the length field;
and the integrity check accepts it for the same user, realm and password. Error
responses and buffers without a header are returned as they are. -/
theorem signed_response_verifies (host : Host) (cfg : Config) (method : Method)
    (tid : TransactionId) (attrs : List Attribute) (username password : Bytes)
    (others : ∀ attr ∈ attrs, attr.type ≠ AttrType.messageIntegrity)
    (fits : (response method tid attrs).attrsBuf.length + 24 ≤ 65535) :
    (∃ msg integrity signed,
      signResponse host cfg (response method tid attrs).build username password = signed ∧
      parse (response method tid attrs).build = .ok msg ∧
      msg.method = method ∧ msg.msgClass = .successResponse ∧ msg.transactionId = tid ∧
      ((∀ attr ∈ attrs, attr.value.length ≤ 65535) → msg.attributes = attrs) ∧
      integrity.type = AttrType.messageIntegrity ∧ integrity.value.length = 20 ∧
      (∃ length : UInt16, length.toNat = signed.length - 20 ∧
        parse signed = .ok ⟨.successResponse, method, length, tid,
          msg.attributes ++ [integrity]⟩) ∧
      verifyMessageIntegrityMd5 host cfg.realm signed username password = true) ∧
    (∀ method tid attrs, signResponse host cfg
        (addAttrs (MessageBuilder.new method .errorResponse tid) attrs).build username password =
      (addAttrs (MessageBuilder.new method .errorResponse tid) attrs).build) ∧
    ∀ resp : Bytes, resp.length < 20 → signResponse host cfg resp username password = resp := by
  refine ⟨?_, fun method tid attrs => signResponse_error method tid attrs username password,
    fun resp short => by rw [signResponse, if_pos short]⟩
  -- What is written is the list with its values cut to sixteen bits of length.
  have small : ∀ attr ∈ attrs.map cutAttr, attr.value.length < 65536 := by
    intro attr member
    obtain ⟨original, _, rfl⟩ := List.mem_map.mp member
    exact cutAttr_small original
  have written : response method tid attrs = response method tid (attrs.map cutAttr) :=
    addAttrs_cut _ attrs
  have othersCut : ∀ attr ∈ attrs.map cutAttr, attr.type ≠ AttrType.messageIntegrity := by
    intro attr member
    obtain ⟨original, inside, rfl⟩ := List.mem_map.mp member
    exact others original inside
  have size : (response method tid attrs).attrsBuf.length = encodedSize (attrs.map cutAttr) := by
    rw [written, response, addAttrs_small _ _ small]
    simp only [MessageBuilder.new, List.nil_append, encodeAttrs_length]
  rw [size] at fits
  rw [written]
  have plain := parse_encodeMessage method .successResponse tid []
    (show encodedSize (attrs.map cutAttr) ≤ 65535 by omega)
  rw [List.append_nil, ← build_addAttrs method .successResponse tid (by omega)] at plain
  generalize integrity : integrityOf host cfg method tid (attrs.map cutAttr) username password = i
  have long : i.value.length = 20 := by simp [← integrity, integrityOf]
  have sum : encodedSize (attrs.map cutAttr ++ [i]) = encodedSize (attrs.map cutAttr) + 24 := by
    simp [encodedSize, attrSize, long, padding]
  have signed := parse_encodeMessage method .successResponse tid []
    (show encodedSize (attrs.map cutAttr ++ [i]) ≤ 65535 by omega)
  rw [List.append_nil, ← integrity,
    ← signResponse_encoded method tid username password fits, integrity] at signed
  refine ⟨_, i, _, rfl, plain, rfl, rfl, rfl, fun fit => ?_, by rw [← integrity]; rfl, long,
    ⟨_, ?_, signed⟩, verify_signed method tid username password fits othersCut⟩
  · refine (List.map_congr_left fun attr member => ?_).trans (List.map_id attrs)
    exact cutAttr_of_small (Nat.lt_succ_of_le (fit attr member))
  · rw [toUInt16_toNat (by omega), sum, signResponse_eq method tid username password fits,
      List.length_append, covered_length, encodeAttr_length, attrSize, integrity, long]
    simp [padding]
    omega

/-- A Refresh response with a lifetime, and a password of its own. -/
theorem signed_response_verifies_refresh :
    verifyMessageIntegrityMd5 (Host.posix [] [] []) (ascii "turn.example")
      (signResponse (Host.posix [] [] []) ⟨ascii "turn.example", [], [], 0, 0⟩
        (response .refresh (Vector.replicate 12 1) [⟨AttrType.lifetime, bytes32 600⟩]).build
        (ascii "alice") (ascii "pw")) (ascii "alice") (ascii "pw") = true := by
  obtain ⟨⟨_, _, _, rfl, _, _, _, _, _, _, _, _, verified⟩, _⟩ := signed_response_verifies
    (Host.posix [] [] []) ⟨ascii "turn.example", [], [], 0, 0⟩ .refresh (Vector.replicate 12 1)
    [⟨AttrType.lifetime, bytes32 600⟩] (ascii "alice") (ascii "pw") (by decide) (by decide)
  exact verified

end Zaza.Signing
