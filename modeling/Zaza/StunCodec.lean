import Mathlib.Algebra.Order.BigOperators.Group.List
import Mathlib.Tactic.Linarith
import Zaza.Stun

/-!
The encoder and the decoder agree. `MessageBuilder` writes a list of
attributes and `parse` reads the same list back, whatever bytes follow; the
same holds for ChannelData frames. The induction is over the attribute list,
with everything already written as the growing front of the buffer.
-/
namespace Zaza.StunCodec
open Zaza

/-! ## The attribute loop -/

/-- Any two amounts of fuel that cover the rest of the message give the same
attributes. -/
theorem parseAttributes_fuel (fuel' : Nat) (enough : stop ≤ offset + fuel)
    (enough' : stop ≤ offset + fuel') :
    parseAttributes data stop fuel offset = parseAttributes data stop fuel' offset := by
  induction fuel generalizing fuel' offset with
  | zero =>
    cases fuel' with
    | zero => rfl
    | succ fuel' => simp [parseAttributes, show ¬ offset + 4 ≤ stop by omega]
  | succ fuel ih =>
    cases fuel' with
    | zero => simp [parseAttributes, show ¬ offset + 4 ≤ stop by omega]
    | succ fuel' =>
      simp only [parseAttributes]
      rw [ih fuel' (by omega) (by omega)]

/-- The attributes `parse` finds from a position on. -/
def attributesFrom (data : Bytes) (stop offset : Nat) : List Attribute :=
  parseAttributes data stop stop offset

/-- The loop, one iteration at a time and without its fuel. -/
theorem attributes_unfold (data : Bytes) (stop offset : Nat) :
    attributesFrom data stop offset =
      if offset + 4 ≤ stop then
        if offset + 4 + (word16 data (offset + 2)).toNat > data.length then []
        else ⟨word16 data offset, slice data (offset + 4) (word16 data (offset + 2)).toNat⟩ ::
          attributesFrom data stop (offset + 4 + (word16 data (offset + 2)).toNat +
            padding (word16 data (offset + 2)).toNat)
      else [] := by
  by_cases more : offset + 4 ≤ stop
  · rw [attributesFrom, parseAttributes_fuel (stop + 1) (by omega) (by omega)]
    simp only [parseAttributes, attributesFrom]
  · rw [attributesFrom, parseAttributes_fuel (stop + 1) (by omega) (by omega)]
    simp only [parseAttributes, if_neg more]

theorem attributes_done (done : stop < offset + 4) : attributesFrom data stop offset = [] := by
  rw [attributes_unfold, if_neg (by omega)]

/-- What `parse` returns, read off the bytes. -/
theorem parse_ok (parsed : parse data = .ok msg) :
    20 ≤ data.length ∧ msg = {
      msgClass := decodeClass (word16 data 0)
      method := decodeMethod (word16 data 0)
      length := word16 data 2
      transactionId := Vector.ofFn fun i => byteAt data (8 + i)
      attributes := attributesFrom data (20 + (word16 data 2).toNat) 20 } := by
  unfold parse at parsed
  split at parsed
  · simp at parsed
  · rename_i long
    split at parsed
    · simp at parsed
    · simp only at parsed
      split at parsed
      · simp at parsed
      · split at parsed
        · simp at parsed
        · exact ⟨Nat.not_lt.mp long, (Except.ok.inj parsed).symm⟩

/-- A message that is accepted is in the buffer up to its declared end. -/
theorem parse_size (parsed : parse data = .ok msg) :
    20 + (word16 data 2).toNat ≤ data.length := by
  unfold parse at parsed
  split at parsed
  · simp at parsed
  · split at parsed
    · simp at parsed
    · simp only at parsed
      split at parsed
      · simp at parsed
      · rename_i long
        exact Nat.not_lt.mp long

/-- The value of an attribute is as long as sixteen bits can say. -/
theorem attributes_small (fuel offset : Nat) :
    ∀ attr ∈ parseAttributes data stop fuel offset, attr.value.length < 65536 := by
  induction fuel generalizing offset with
  | zero => simp [parseAttributes]
  | succ fuel ih =>
    intro attr member
    simp only [parseAttributes] at member
    split at member
    · split at member
      · simp at member
      · rcases List.mem_cons.mp member with rfl | later
        · have bound := (word16 data (offset + 2)).toNat_lt
          simp only [slice, List.length_take]
          omega
        · exact ih _ attr later
    · simp at member

theorem parse_small (parsed : parse data = .ok msg) :
    ∀ attr ∈ msg.attributes, attr.value.length < 65536 := by
  obtain ⟨_, rfl⟩ := parse_ok parsed
  exact attributes_small _ _

/-! ## Headers -/

theorem method_encodeType (method : Method) (msgClass : MessageClass) :
    decodeMethod (MessageBuilder.encodeType method msgClass) = method := by
  cases method <;> cases msgClass <;> decide

theorem class_encodeType (method : Method) (msgClass : MessageClass) :
    decodeClass (MessageBuilder.encodeType method msgClass) = msgClass := by
  cases method <;> cases msgClass <;> decide

/-- The method bits that travel are the enumeration's own value. -/
theorem methodBits_encodeType (method : Method) (msgClass : MessageClass) :
    methodBits (MessageBuilder.encodeType method msgClass) = method.code := by
  cases method <;> cases msgClass <;> decide

/-- A message type leaves the top bits clear. -/
theorem encodeType_top (method : Method) (msgClass : MessageClass) :
    (MessageBuilder.encodeType method msgClass >>> 8 &&& 0xFF).toUInt8 &&& 0xC0 = 0 := by
  cases method <;> cases msgClass <;> decide

private theorem word16_head (w : UInt16) (front rest : Bytes) :
    word16 (front ++ (bytes16 w ++ rest)) front.length = w := by
  have first := byteAt_append front (bytes16 w ++ rest) 0
  have second := byteAt_append front (bytes16 w ++ rest) 1
  rw [Nat.add_zero] at first
  rw [word16, first, second]
  exact be16_bytes16 w

theorem toUInt16_toNat (small : n < 65536) : n.toUInt16.toNat = n := by
  simp only [Nat.toUInt16, UInt16.toNat_ofNat']
  omega

/-- A message's fixed header, followed by its attributes and then anything. -/
theorem parse_header (method : Method) (msgClass : MessageClass) (length : UInt16)
    (tid : TransactionId) (rest : Bytes) (fits : length.toNat ≤ rest.length)
    (shape : data = bytes16 (MessageBuilder.encodeType method msgClass) ++ (bytes16 length ++
      ([0x21, 0x12, 0xA4, 0x42] ++ (tid.toList ++ rest)))) :
    parse data = .ok ⟨msgClass, method, length, tid,
      attributesFrom data (20 + length.toNat) 20⟩ := by
  have size : data.length = 20 + rest.length := by
    rw [shape]
    simp
    omega
  have type : word16 data 0 = MessageBuilder.encodeType method msgClass := by
    have head := word16_head (MessageBuilder.encodeType method msgClass) []
      (bytes16 length ++ ([0x21, 0x12, 0xA4, 0x42] ++ (tid.toList ++ rest)))
    simpa [shape] using head
  have len : word16 data 2 = length := by
    have head := word16_head length (bytes16 (MessageBuilder.encodeType method msgClass))
      ([0x21, 0x12, 0xA4, 0x42] ++ (tid.toList ++ rest))
    simpa [shape] using head
  have top : byteAt data 0 &&& 0xC0 = 0x00 := by
    rw [shape]
    exact encodeType_top method msgClass
  have cookie : be32 (byteAt data 4) (byteAt data 5) (byteAt data 6) (byteAt data 7) =
      kMagicCookie := by
    rw [shape]
    exact (rfl : be32 0x21 0x12 0xA4 0x42 = kMagicCookie)
  have id : (Vector.ofFn fun i : Fin 12 => byteAt data (8 + i)) = tid := by
    apply Vector.ext
    intro i bound
    have located := byteAt_append (bytes16 (MessageBuilder.encodeType method msgClass) ++
      (bytes16 length ++ [0x21, 0x12, 0xA4, 0x42])) (tid.toList ++ rest) i
    have inside := byteAt_left tid.toList rest (i := i) (by simpa using bound)
    simp only [List.append_assoc] at located
    rw [← shape, inside] at located
    have position : (bytes16 (MessageBuilder.encodeType method msgClass) ++
      (bytes16 length ++ [0x21, 0x12, 0xA4, 0x42])).length = 8 := rfl
    rw [position] at located
    rw [Vector.getElem_ofFn, located]
    simp [byteAt, List.getD_eq_getElem?_getD, bound]
  rw [parse, if_neg (by omega), if_neg (by simp [top])]
  simp only [type, len]
  rw [if_neg (by omega), if_neg (by simp [cookie]), id, method_encodeType, class_encodeType]
  rfl

/-! ## Attribute lists -/

/-- The bytes `addAttr` appends for an attribute that fits. -/
def encodeAttr (attr : Attribute) : Bytes :=
  bytes16 attr.type ++ (bytes16 attr.value.length.toUInt16 ++
    (attr.value ++ List.replicate (padding attr.value.length) 0))

/-- Four bytes of header and the value rounded up to a multiple of four. -/
def attrSize (attr : Attribute) : Nat := 4 + (attr.value.length + padding attr.value.length)

/-- The encoded size of an attribute list. -/
def encodedSize (attrs : List Attribute) : Nat := (attrs.map attrSize).sum

/-- `addAttr` for each attribute in order. -/
def addAttrs (b : MessageBuilder) (attrs : List Attribute) : MessageBuilder :=
  attrs.foldl (fun b attr => b.addAttr attr.type attr.value) b

theorem encodeAttr_length (attr : Attribute) : (encodeAttr attr).length = attrSize attr := by
  simp [encodeAttr, attrSize]
  omega

/-- An attribute takes whole words: one for its header, the rest for its value. -/
theorem attrSize_words (attr : Attribute) :
    attrSize attr = 4 + 4 * ((attr.value.length + 3) / 4) := by
  rw [attrSize, padding]
  split
  · omega
  · omega

theorem encodeAttrs_length (attrs : List Attribute) :
    (attrs.flatMap encodeAttr).length = encodedSize attrs := by
  simp [encodedSize, List.length_flatMap, encodeAttr_length]

theorem addAttr_eq (b : MessageBuilder) (small : value.length < 65536) :
    b.addAttr type value = { b with attrsBuf := b.attrsBuf ++ encodeAttr ⟨type, value⟩ } := by
  simp only [MessageBuilder.addAttr, MessageBuilder.appendAttrRaw, encodeAttr,
    toUInt16_toNat small, List.take_length]

/-- A value longer than sixteen bits can count is cut. -/
theorem addAttr_cut (b : MessageBuilder) (type : AttrType) (value : Bytes) :
    b.addAttr type value = b.addAttr type (value.take (value.length % 65536)) := by
  have length : (value.take (value.length % 65536)).length = value.length % 65536 := by
    rw [List.length_take]
    exact Nat.min_eq_left (Nat.mod_le _ _)
  have field : (value.length % 65536).toUInt16 = value.length.toUInt16 := by
    apply UInt16.toNat_inj.mp
    simp [Nat.toUInt16]
  have size : value.length.toUInt16.toNat = value.length % 65536 := by simp [Nat.toUInt16]
  simp only [MessageBuilder.addAttr, MessageBuilder.appendAttrRaw, length, field, size,
    List.take_take, Nat.min_self]

/-- The attribute that is written for one with a value of any length. -/
def cutAttr (attr : Attribute) : Attribute :=
  ⟨attr.type, attr.value.take (attr.value.length % 65536)⟩

theorem addAttrs_cut (b : MessageBuilder) (attrs : List Attribute) :
    addAttrs b attrs = addAttrs b (attrs.map cutAttr) := by
  induction attrs generalizing b with
  | nil => rfl
  | cons attr attrs ih =>
    simp only [addAttrs, List.map_cons, List.foldl_cons] at ih ⊢
    rw [addAttr_cut, ih]
    rfl

theorem cutAttr_small (attr : Attribute) : (cutAttr attr).value.length < 65536 := by
  have length : (cutAttr attr).value.length ≤ attr.value.length % 65536 := List.length_take_le _ _
  omega

theorem cutAttr_of_small {attr : Attribute} (small : attr.value.length < 65536) :
    cutAttr attr = attr := by
  rw [cutAttr, Nat.mod_eq_of_lt small, List.take_length]

/-- Values that fit are written whole, one behind the other. -/
theorem addAttrs_small (b : MessageBuilder) (attrs : List Attribute)
    (small : ∀ attr ∈ attrs, attr.value.length < 65536) :
    addAttrs b attrs = { b with attrsBuf := b.attrsBuf ++ attrs.flatMap encodeAttr } := by
  induction attrs generalizing b with
  | nil => simp [addAttrs]
  | cons attr attrs ih =>
    rw [addAttrs, List.foldl_cons, addAttr_eq b (small attr List.mem_cons_self)]
    exact (ih _ fun attr member => small attr (List.mem_cons_of_mem _ member)).trans (by simp)

/-- A list that fits has values that fit. -/
theorem value_lt_of_fits (fits : encodedSize attrs ≤ 65535) :
    ∀ attr ∈ attrs, attr.value.length < 65536 := by
  intro attr member
  have part : attrSize attr ≤ encodedSize attrs :=
    List.le_sum_of_mem (List.mem_map_of_mem member)
  rw [attrSize] at part
  omega

theorem addAttrs_eq (b : MessageBuilder) (attrs : List Attribute)
    (fits : encodedSize attrs ≤ 65535) :
    addAttrs b attrs = { b with attrsBuf := b.attrsBuf ++ attrs.flatMap encodeAttr } :=
  addAttrs_small b attrs (value_lt_of_fits fits)

/-- The header of an encoded attribute, read where it was written. -/
theorem header_encoded (attr : Attribute) (front rest : Bytes)
    (small : attr.value.length < 65536) :
    word16 (front ++ (encodeAttr attr ++ rest)) front.length = attr.type ∧
      (word16 (front ++ (encodeAttr attr ++ rest)) (front.length + 2)).toNat =
        attr.value.length ∧
      front.length + attrSize attr ≤ (front ++ (encodeAttr attr ++ rest)).length := by
  refine ⟨?_, ?_, by simp [encodeAttr_length]⟩
  · rw [encodeAttr, List.append_assoc]
    exact word16_head attr.type front _
  · have head := word16_head attr.value.length.toUInt16 (front ++ bytes16 attr.type)
      (attr.value ++ (List.replicate (padding attr.value.length) 0 ++ rest))
    conv => rhs; rw [← toUInt16_toNat small]
    refine congrArg UInt16.toNat ?_
    simpa [encodeAttr] using head

/-- One encoded attribute at the front of what is left is read back whole, and
the loop goes on right behind its padding. -/
theorem attributes_cons (attr : Attribute) (front rest : Bytes) (small : attr.value.length < 65536)
    (inside : front.length + 4 ≤ stop) :
    attributesFrom (front ++ (encodeAttr attr ++ rest)) stop front.length =
      attr :: attributesFrom (front ++ (encodeAttr attr ++ rest)) stop
        (front ++ encodeAttr attr).length := by
  obtain ⟨type, len, size⟩ := header_encoded attr front rest small
  have value : slice (front ++ (encodeAttr attr ++ rest)) (front.length + 4) attr.value.length =
      attr.value := by
    have middle := slice_append
      (front ++ (bytes16 attr.type ++ bytes16 attr.value.length.toUInt16)) attr.value
      (List.replicate (padding attr.value.length) 0 ++ rest)
    simpa [encodeAttr] using middle
  have next : (front ++ encodeAttr attr).length = front.length + attrSize attr := by
    simp [encodeAttr_length]
  rw [attributes_unfold, if_pos inside, len, type, value, next, attrSize]
  rw [attrSize] at size
  rw [if_neg (by omega)]
  congr 2
  omega

/-- A whole encoded list is read back, in order and with nothing after it. -/
theorem attributes_encoded (attrs : List Attribute) (front rest : Bytes)
    (fits : encodedSize attrs ≤ 65535) :
    attributesFrom (front ++ (attrs.flatMap encodeAttr ++ rest))
      (front.length + encodedSize attrs) front.length = attrs := by
  -- The front grows by one attribute an iteration; the end of the message stays.
  generalize ending : front.length + encodedSize attrs = stop
  induction attrs generalizing front with
  | nil =>
    exact attributes_done (by simp [encodedSize] at ending; omega)
  | cons attr attrs ih =>
    have sizes : encodedSize (attr :: attrs) = attrSize attr + encodedSize attrs := by
      simp [encodedSize]
    have header : 4 ≤ attrSize attr := by simp [attrSize]
    have small := value_lt_of_fits fits attr List.mem_cons_self
    have tail := ih (front ++ encodeAttr attr) (by omega)
      (by simp only [List.length_append, encodeAttr_length]; omega)
    rw [List.flatMap_cons, List.append_assoc,
      attributes_cons attr front _ small (by omega)]
    simpa using tail

/-- A finished message as bytes: fixed header, then the encoded attributes. -/
def encodeMessage (method : Method) (msgClass : MessageClass) (tid : TransactionId)
    (attrs : List Attribute) : Bytes :=
  bytes16 (MessageBuilder.encodeType method msgClass) ++
    (bytes16 (encodedSize attrs).toUInt16 ++ ([0x21, 0x12, 0xA4, 0x42] ++
      (tid.toList ++ attrs.flatMap encodeAttr)))

theorem encodeMessage_length (method : Method) (msgClass : MessageClass) (tid : TransactionId)
    (attrs : List Attribute) :
    (encodeMessage method msgClass tid attrs).length = 20 + encodedSize attrs := by
  simp only [encodeMessage, List.length_append, encodeAttrs_length, bytes16_length,
    Vector.length_toList, List.length_cons, List.length_nil]
  omega

theorem build_addAttrs (method : Method) (msgClass : MessageClass) (tid : TransactionId)
    (fits : encodedSize attrs ≤ 65535) :
    (addAttrs (MessageBuilder.new method msgClass tid) attrs).build =
      encodeMessage method msgClass tid attrs := by
  rw [addAttrs_eq _ _ fits]
  simp only [MessageBuilder.build, MessageBuilder.new, encodeMessage, List.nil_append,
    encodeAttrs_length]

theorem parse_encodeMessage (method : Method) (msgClass : MessageClass) (tid : TransactionId)
    (trailing : Bytes) (fits : encodedSize attrs ≤ 65535) :
    parse (encodeMessage method msgClass tid attrs ++ trailing) =
      .ok ⟨msgClass, method, (encodedSize attrs).toUInt16, tid, attrs⟩ := by
  have length : (encodedSize attrs).toUInt16.toNat = encodedSize attrs :=
    toUInt16_toNat (by omega)
  have shape : encodeMessage method msgClass tid attrs ++ trailing =
      bytes16 (MessageBuilder.encodeType method msgClass) ++
        (bytes16 (encodedSize attrs).toUInt16 ++ ([0x21, 0x12, 0xA4, 0x42] ++
          (tid.toList ++ (attrs.flatMap encodeAttr ++ trailing)))) := by
    simp only [encodeMessage, List.append_assoc]
  have room : (encodedSize attrs).toUInt16.toNat ≤
      (attrs.flatMap encodeAttr ++ trailing).length := by
    rw [length, List.length_append, encodeAttrs_length]
    omega
  rw [parse_header method msgClass _ tid _ room shape, length]
  have front : (bytes16 (MessageBuilder.encodeType method msgClass) ++
      (bytes16 (encodedSize attrs).toUInt16 ++ ([0x21, 0x12, 0xA4, 0x42] ++ tid.toList))).length =
      20 := by simp
  have read := attributes_encoded attrs (bytes16 (MessageBuilder.encodeType method msgClass) ++
    (bytes16 (encodedSize attrs).toUInt16 ++ ([0x21, 0x12, 0xA4, 0x42] ++ tid.toList)))
    trailing fits
  rw [front] at read
  simp only [List.append_assoc] at read
  rw [shape, read]

/-- **Decoding undoes encoding.** Whatever bytes follow the message, `parse`
returns the method, class, transaction id and attribute list that
`MessageBuilder` was given, and the encoded size as the length. -/
theorem parse_build (method : Method) (msgClass : MessageClass) (tid : TransactionId)
    (attrs : List Attribute) (trailing : Bytes) (fits : encodedSize attrs ≤ 65535) :
    ∃ msg, parse ((addAttrs (MessageBuilder.new method msgClass tid) attrs).build ++ trailing) =
        .ok msg ∧
      msg.method = method ∧ msg.msgClass = msgClass ∧ msg.transactionId = tid ∧
      msg.length.toNat = encodedSize attrs ∧ msg.attributes = attrs := by
  rw [build_addAttrs method msgClass tid fits]
  exact ⟨_, parse_encodeMessage method msgClass tid trailing fits, rfl, rfl, rfl,
    toUInt16_toNat (by omega), rfl⟩

/-- An odd-sized attribute, an empty one and a duplicate, with bytes behind. -/
theorem parse_build_sample :
    encodedSize [⟨0x0006, [1, 2, 3]⟩, ⟨0x8022, []⟩, ⟨0x0006, [4]⟩] = 20 ∧
    ∃ msg, parse ((addAttrs (MessageBuilder.new .refresh .request (Vector.replicate 12 7))
        [⟨0x0006, [1, 2, 3]⟩, ⟨0x8022, []⟩, ⟨0x0006, [4]⟩]).build ++ [9, 9]) = .ok msg ∧
      msg.method = .refresh ∧ msg.msgClass = .request ∧
      msg.transactionId = Vector.replicate 12 7 ∧
      msg.length.toNat = encodedSize [⟨0x0006, [1, 2, 3]⟩, ⟨0x8022, []⟩, ⟨0x0006, [4]⟩] ∧
      msg.attributes = [⟨0x0006, [1, 2, 3]⟩, ⟨0x8022, []⟩, ⟨0x0006, [4]⟩] :=
  ⟨by decide, parse_build _ _ _ _ _ (by decide)⟩

/-! ## ChannelData -/

/-- A frame is read back as its channel number and data, whatever follows. -/
theorem parseChannelData_makeChannelData (valid : 0x4000 ≤ ch ∧ ch ≤ 0x4FFF)
    (small : data.length < 65536) (trailing : Bytes) :
    parseChannelData (makeChannelData ch data ++ trailing) = .ok ⟨ch, data⟩ := by
  have length : data.length.toUInt16.toNat = data.length := toUInt16_toNat small
  have channel : word16 (makeChannelData ch data ++ trailing) 0 = ch := by
    have head := word16_head ch [] (bytes16 data.length.toUInt16 ++
      (data ++ (List.replicate (padding data.length) 0 ++ trailing)))
    simpa [makeChannelData, length] using head
  have len : word16 (makeChannelData ch data ++ trailing) 2 = data.length.toUInt16 := by
    have head := word16_head data.length.toUInt16 (bytes16 ch)
      (data ++ (List.replicate (padding data.length) 0 ++ trailing))
    simpa [makeChannelData, length] using head
  have payload : slice (makeChannelData ch data ++ trailing) 4 data.length = data := by
    have middle := slice_append (bytes16 ch ++ bytes16 data.length.toUInt16) data
      (List.replicate (padding data.length) 0 ++ trailing)
    simpa [makeChannelData, length] using middle
  have size : 4 + data.length ≤ (makeChannelData ch data ++ trailing).length := by
    simp [makeChannelData, length]
    omega
  have inRange : ¬ (ch < 0x4000 ∨ ch > 0x4FFF) := by
    simp only [not_or, UInt16.not_lt]
    exact valid
  rw [parseChannelData, if_neg (by omega)]
  simp only [channel, len, length, payload]
  rw [if_neg inRange, if_neg (by omega)]

/-- What `parse_channel_data` returns, read off the bytes. -/
theorem parseChannelData_ok (parsed : parseChannelData raw = .ok msg) :
    4 + (word16 raw 2).toNat ≤ raw.length ∧
      msg = ⟨word16 raw 0, slice raw 4 (word16 raw 2).toNat⟩ := by
  simp only [parseChannelData] at parsed
  split at parsed
  · simp at parsed
  · split at parsed
    · simp at parsed
    · split at parsed
      · simp at parsed
      · rename_i long
        exact ⟨Nat.not_lt.mp long, (Except.ok.inj parsed).symm⟩

/-- The first byte of a ChannelData frame: channel numbers, and the reserved ones. -/
theorem channel_top {ch : UInt16} (valid : 0x4000 ≤ ch ∧ ch ≤ 0x7FFF) :
    (ch >>> 8 &&& 0xFF).toUInt8 &&& 0xC0 = 0x40 := by
  have low : 0x4000 ≤ ch.toNat := UInt16.le_iff_toNat_le.mp valid.1
  have high : ch.toNat ≤ 0x7FFF := UInt16.le_iff_toNat_le.mp valid.2
  rw [← be16_bytes16 ch, toNat_be16] at low high
  have second := ((ch &&& 0xFF).toUInt8).toNat_lt
  have lead : 0x40 ≤ ((ch >>> 8 &&& 0xFF).toUInt8).toNat ∧
      ((ch >>> 8 &&& 0xFF).toUInt8).toNat < 0x80 := by omega
  have masked : ∀ n < 0x80, 0x40 ≤ n → n &&& 0xC0 = 0x40 := by decide
  apply UInt8.toNat_inj.mp
  rw [UInt8.toNat_and]
  exact masked _ lead.2 lead.1

theorem makeChannelData_length (ch : UInt16) (small : data.length < 65536) :
    (makeChannelData ch data).length = 4 + data.length + padding data.length := by
  simp [makeChannelData, toUInt16_toNat small]
  omega

theorem padding_lt (n : Nat) : padding n < 4 := by
  unfold padding
  split <;> omega

theorem padding_mod (n : Nat) : (n + padding n) % 4 = 0 := by
  unfold padding
  split <;> omega

/-- A message that starts like a ChannelData frame is no STUN message. -/
theorem parse_channel (data : Bytes) (top : byteAt data 0 &&& 0xC0 = 0x40) (msg : TurnMessage) :
    parse data ≠ .ok msg := by
  intro parsed
  unfold parse at parsed
  split at parsed
  · simp at parsed
  · rw [if_pos (by simp [top])] at parsed
    simp at parsed

private theorem header_bytes (raw : Bytes) (long : 4 ≤ raw.length) :
    ∃ b0 b1 b2 b3 rest, raw = b0 :: b1 :: b2 :: b3 :: rest := by
  match raw, long with
  | b0 :: b1 :: b2 :: b3 :: rest, _ => exact ⟨b0, b1, b2, b3, rest, rfl⟩

/-- Encoding what was decoded gives the frame back, with zeros for its padding. -/
theorem makeChannelData_of_parse (parsed : parseChannelData raw = .ok ⟨ch, data⟩) :
    makeChannelData ch data =
      raw.take (4 + data.length) ++ List.replicate (padding data.length) 0 := by
  obtain ⟨long, read⟩ := parseChannelData_ok parsed
  obtain ⟨rfl, rfl⟩ := ChannelDataMessage.mk.inj read
  clear read parsed
  obtain ⟨b0, b1, b2, b3, rest, rfl⟩ := header_bytes raw (by omega)
  have header : word16 (b0 :: b1 :: b2 :: b3 :: rest) 0 = be16 b0 b1 := rfl
  have field : word16 (b0 :: b1 :: b2 :: b3 :: rest) 2 = be16 b2 b3 := rfl
  rw [field] at long ⊢
  have room : (be16 b2 b3).toNat ≤ rest.length := by
    simp only [List.length_cons] at long
    omega
  have value : slice (b0 :: b1 :: b2 :: b3 :: rest) 4 (be16 b2 b3).toNat =
      rest.take (be16 b2 b3).toNat := by simp [slice]
  have size : (rest.take (be16 b2 b3).toNat).length = (be16 b2 b3).toNat := by
    simpa using room
  have cast : (be16 b2 b3).toNat.toUInt16 = be16 b2 b3 := by simp
  rw [value, header, makeChannelData]
  simp only [size, cast, bytes16_be16]
  simp [Nat.add_comm 4]

/-- **ChannelData survives the wire.** A frame with a valid number and at most
65535 bytes of data is read back whatever follows it, is aligned, and is told
apart from a STUN message by both tests; and a frame that is accepted is, byte
for byte, the one its contents are written as, up to the padding. -/
theorem channelData_round_trip :
    (∀ (ch : UInt16) (data : Bytes), 0x4000 ≤ ch ∧ ch ≤ 0x4FFF → data.length ≤ 65535 →
      (makeChannelData ch data).length % 4 = 0 ∧
      ∀ trailing, parseChannelData (makeChannelData ch data ++ trailing) = .ok ⟨ch, data⟩ ∧
        isChannelData (makeChannelData ch data ++ trailing) = true ∧
        ∀ msg, parse (makeChannelData ch data ++ trailing) ≠ .ok msg) ∧
    (∀ raw ch data, parseChannelData raw = .ok ⟨ch, data⟩ →
      ∃ zeros < 4, makeChannelData ch data =
        raw.take (4 + data.length) ++ List.replicate zeros 0) := by
  constructor
  · intro ch data valid small
    constructor
    · rw [makeChannelData_length ch (by omega), Nat.add_assoc, Nat.add_mod, padding_mod]
    · intro trailing
      have top : byteAt (makeChannelData ch data ++ trailing) 0 &&& 0xC0 = 0x40 :=
        channel_top ⟨valid.1, UInt16.le_trans valid.2 (by decide)⟩
      have frame : isChannelData (makeChannelData ch data ++ trailing) = true := by
        have some : ¬ (makeChannelData ch data ++ trailing).length < 1 := by
          rw [List.length_append, makeChannelData_length ch (by omega)]
          omega
        rw [isChannelData, if_neg some, top]
        rfl
      exact ⟨parseChannelData_makeChannelData valid (by omega) trailing, frame,
        parse_channel _ top⟩
  · intro raw ch data parsed
    exact ⟨_, padding_lt data.length, makeChannelData_of_parse parsed⟩

/-- Five bytes on channel 0x4001, and what a foreign frame with other padding says. -/
theorem channelData_round_trip_sample :
    makeChannelData 0x4001 [1, 2, 3, 4, 5] =
      [0x40, 0x01, 0, 5, 1, 2, 3, 4, 5, 0, 0, 0] ∧
    parseChannelData (makeChannelData 0x4001 [1, 2, 3, 4, 5] ++ [9]) =
      .ok ⟨0x4001, [1, 2, 3, 4, 5]⟩ ∧
    ∃ zeros < 4, makeChannelData 0x4001 [7] =
      [0x40, 0x01, 0, 1, 7, 0xFF, 0xFF].take (4 + [7].length) ++ List.replicate zeros 0 :=
  ⟨by decide,
    ((channelData_round_trip.1 0x4001 [1, 2, 3, 4, 5] (by decide) (by decide)).2 [9]).1,
    channelData_round_trip.2 [0x40, 0x01, 0, 1, 7, 0xFF, 0xFF] 0x4001 [7] (by decide)⟩

end Zaza.StunCodec
