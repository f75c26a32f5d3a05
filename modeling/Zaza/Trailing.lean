import Mathlib.Data.List.TakeWhile
import Zaza.StunCodec

/-!
Where a STUN message ends.

The attribute loop of `parse` looks for headers up to the declared end of the
message, but asks of a value only that the buffer holds it. Headers stand behind
one another, so at most the last can declare a value that passes the end
(`headersFrom_split`), and then it is the bytes behind the message that decide:
without them the attribute is dropped, with them it is read. A message whose
headers all stay inside is read the same whatever follows it, and only such a
message is (`trailing_ignored_iff`).
-/
namespace Zaza.Trailing
open Zaza StunCodec

variable {data first second extra : Bytes} {stop fuel offset : Nat}

/-! ## Headers -/

/-- The length an attribute header declares. -/
def valueLen (data : Bytes) (offset : Nat) : Nat := (word16 data (offset + 2)).toNat

/-- Where the value of that length ends. -/
def valueEnd (data : Bytes) (offset : Nat) : Nat := offset + 4 + valueLen data offset

/-- The headers that start before the end of the message, each behind the padded
value of the one before. -/
def headersFrom (data : Bytes) (stop : Nat) : Nat → Nat → List Nat
  | 0, _ => []
  | fuel + 1, offset =>
    if offset + 4 ≤ stop then
      offset :: headersFrom data stop fuel
        (valueEnd data offset + padding (valueLen data offset))
    else []

/-- The end of a message, as its length field has it. -/
def messageEnd (data : Bytes) : Nat := 20 + (word16 data 2).toNat

def headers (data : Bytes) : List Nat :=
  headersFrom data (messageEnd data) (messageEnd data) 20

/-- Every header declares a value that ends with the message or before. -/
def Contained (data : Bytes) : Prop :=
  ∀ offset ∈ headers data, valueEnd data offset ≤ messageEnd data

instance (data : Bytes) : Decidable (Contained data) :=
  inferInstanceAs (Decidable (∀ offset ∈ headers data, valueEnd data offset ≤ messageEnd data))

/-- The attribute behind a header. -/
def attributeAt (data : Bytes) (offset : Nat) : Attribute :=
  ⟨word16 data offset, slice data (offset + 4) (valueLen data offset)⟩

/-- The headers whose attributes `parse` returns: it stops at the first value the
buffer does not hold. -/
def readAt (data : Bytes) : List Nat :=
  (headers data).takeWhile fun offset => valueEnd data offset ≤ data.length

/-- The loop of `parse` as a walk over the headers. -/
theorem parseAttributes_eq (data : Bytes) (stop fuel offset : Nat) :
    parseAttributes data stop fuel offset =
      ((headersFrom data stop fuel offset).takeWhile
        fun offset => valueEnd data offset ≤ data.length).map (attributeAt data) := by
  induction fuel generalizing offset with
  | zero => rfl
  | succ fuel ih =>
    simp only [parseAttributes, headersFrom]
    by_cases more : offset + 4 ≤ stop
    · rw [if_pos more, if_pos more]
      by_cases held : valueEnd data offset ≤ data.length
      · rw [List.takeWhile_cons_of_pos (by simpa using held), List.map_cons, ← ih]
        rw [valueEnd, valueLen] at held
        rw [if_neg (by omega)]
        rfl
      · rw [List.takeWhile_cons_of_neg (by simpa using held), List.map_nil]
        rw [valueEnd, valueLen] at held
        rw [if_pos (by omega)]
    · rw [if_neg more, if_neg more]
      rfl

/-- Only the last header can declare a value that passes the end: the next one
would have to start behind it. -/
theorem headersFrom_split (data : Bytes) (stop fuel offset : Nat) :
    ∃ inside last, headersFrom data stop fuel offset = inside ++ last ∧
      (∀ o ∈ inside, valueEnd data o ≤ stop) ∧
      (last = [] ∨ ∃ o, last = [o] ∧ o + 4 ≤ stop ∧ stop < valueEnd data o) := by
  induction fuel generalizing offset with
  | zero => exact ⟨[], [], rfl, by simp, .inl rfl⟩
  | succ fuel ih =>
    simp only [headersFrom]
    split
    · rename_i more
      by_cases within : valueEnd data offset ≤ stop
      · obtain ⟨inside, last, split, ends, final⟩ :=
          ih (valueEnd data offset + padding (valueLen data offset))
        refine ⟨offset :: inside, last, by rw [split, List.cons_append], ?_, final⟩
        intro o member
        rcases List.mem_cons.mp member with rfl | member
        · exact within
        · exact ends o member
      · have done : headersFrom data stop fuel
            (valueEnd data offset + padding (valueLen data offset)) = [] := by
          cases fuel with
          | zero => rfl
          | succ fuel => rw [headersFrom, if_neg (by omega)]
        exact ⟨[], [offset], by rw [done, List.nil_append], by simp,
          .inr ⟨offset, rfl, more, by omega⟩⟩
    · exact ⟨[], [], rfl, by simp, .inl rfl⟩

/-! ## Buffers with a common front -/

theorem word16_of_take (same : first.take stop = second.take stop) (inside : offset + 2 ≤ stop) :
    word16 first offset = word16 second offset := by
  rw [word16, word16, byteAt_of_take same (by omega), byteAt_of_take same (by omega)]

theorem headersFrom_of_take (same : first.take stop = second.take stop) :
    headersFrom first stop fuel offset = headersFrom second stop fuel offset := by
  induction fuel generalizing offset with
  | zero => rfl
  | succ fuel ih =>
    simp only [headersFrom]
    split
    · rename_i more
      have length : valueLen first offset = valueLen second offset :=
        congrArg UInt16.toNat (word16_of_take same (by omega))
      rw [valueEnd, valueEnd, length, ih]
    · rfl

/-- A header found in a message starts inside it. -/
theorem headersFrom_bounds (member : o ∈ headersFrom data stop fuel offset) : o + 4 ≤ stop := by
  induction fuel generalizing offset with
  | zero => simp [headersFrom] at member
  | succ fuel ih =>
    simp only [headersFrom] at member
    split at member
    · rename_i more
      rcases List.mem_cons.mp member with rfl | member
      · exact more
      · exact ih member
    · simp at member

/-- The two buffers hold the same message: the same bytes up to its end. -/
structure SameMessage (first second : Bytes) : Prop where
  bytes : first.take (messageEnd first) = second.take (messageEnd first)
  whole : messageEnd first ≤ first.length
  whole' : messageEnd first ≤ second.length

namespace SameMessage

theorem messageEnd_eq (same : SameMessage first second) :
    messageEnd first = messageEnd second := by
  rw [messageEnd, messageEnd, word16_of_take same.bytes (by rw [messageEnd]; omega)]

theorem headers_eq (same : SameMessage first second) : headers first = headers second := by
  rw [headers, headers, ← same.messageEnd_eq, headersFrom_of_take same.bytes]

theorem valueLen_eq (same : SameMessage first second) (member : o ∈ headers first) :
    valueLen first o = valueLen second o := by
  have inside := headersFrom_bounds member
  exact congrArg UInt16.toNat (word16_of_take same.bytes (by omega))

theorem valueEnd_eq (same : SameMessage first second) (member : o ∈ headers first) :
    valueEnd first o = valueEnd second o := by
  rw [valueEnd, valueEnd, same.valueLen_eq member]

/-- The fixed header is read alike; the attributes are looked up in each buffer. -/
theorem parse_eq (same : SameMessage first second) (parsed : parse first = .ok msg) :
    parse second = .ok { msg with attributes := (readAt second).map (attributeAt second) } := by
  have bytes : ∀ i < 20, byteAt second i = byteAt first i := by
    intro i below
    exact (byteAt_of_take same.bytes (by rw [messageEnd]; omega)).symm
  have ends := same.messageEnd_eq
  have long := same.whole
  have long' := same.whole'
  have type : word16 second 0 = word16 first 0 := by
    rw [word16, word16, bytes _ (by omega), bytes _ (by omega)]
  have length : word16 second 2 = word16 first 2 := by
    rw [word16, word16, bytes _ (by omega), bytes _ (by omega)]
  have tid : (Vector.ofFn fun i : Fin 12 => byteAt second (8 + i)) =
      Vector.ofFn fun i : Fin 12 => byteAt first (8 + i) :=
    congrArg Vector.ofFn (funext fun i => bytes (8 + i) (by omega))
  rw [messageEnd] at long long'
  unfold parse at parsed
  rw [if_neg (by omega)] at parsed
  split at parsed
  · simp at parsed
  · rename_i top
    simp only at parsed
    rw [if_neg (by omega)] at parsed
    split at parsed
    · simp at parsed
    · rename_i cookie
      obtain rfl := Except.ok.inj parsed
      rw [parse, if_neg (by omega), bytes 0 (by omega), if_neg top]
      simp only [type, length, tid]
      rw [if_neg (by omega), bytes 4 (by omega), bytes 5 (by omega), bytes 6 (by omega),
        bytes 7 (by omega), if_neg cookie, parseAttributes_eq]
      simp only [readAt, headers, messageEnd, length]

end SameMessage

/-- What `parse` returns as attributes. -/
theorem attributes_eq (parsed : parse data = .ok msg) :
    msg.attributes = (readAt data).map (attributeAt data) := by
  rw [congrArg TurnMessage.attributes (parse_ok parsed).2, attributesFrom, parseAttributes_eq]
  rfl

/-! ## The message and what follows it -/

/-- The message without the bytes behind it. -/
def message (data : Bytes) : Bytes := data.take (messageEnd data)

/-- Every value `parse` returns from the buffer lies before the end of the message. -/
def ValuesBelow (stop : Nat) (buffer : Bytes) : Prop :=
  ∀ offset ∈ readAt buffer, valueEnd buffer offset ≤ stop

theorem same_message (parsed : parse data = .ok msg) (extra : Bytes) :
    SameMessage data (message data ++ extra) := by
  have whole := parse_size parsed
  have size : (message data).length = messageEnd data := by
    rw [message, List.length_take, messageEnd]
    omega
  refine ⟨?_, whole, by rw [List.length_append]; omega⟩
  rw [List.take_append_of_le_length (by omega), message, List.take_take, Nat.min_self]

/-- Where every value ends with the message, each buffer holds them all. -/
theorem readAt_contained (same : SameMessage data buffer) (contained : Contained data) :
    readAt buffer = headers data := by
  rw [readAt, ← same.headers_eq, List.takeWhile_eq_self_iff]
  intro offset member
  have ends := contained offset member
  have room := same.whole'
  rw [same.valueEnd_eq member] at ends
  simp only [decide_eq_true_eq]
  omega

theorem attributeAt_contained (same : SameMessage data buffer) (contained : Contained data)
    (member : offset ∈ headers data) : attributeAt buffer offset = attributeAt data offset := by
  have ends := contained offset member
  have inside := headersFrom_bounds member
  rw [valueEnd] at ends
  rw [attributeAt, attributeAt, ← same.valueLen_eq member, word16_of_take same.bytes (by omega),
    slice_of_take same.bytes ends]

/-- A message whose values stay inside is read the same from every buffer. -/
theorem parse_contained (parsed : parse data = .ok msg) (same : SameMessage data buffer)
    (contained : Contained data) : parse buffer = .ok msg := by
  have self : SameMessage data data := ⟨rfl, same.whole, same.whole⟩
  have attributes : (readAt buffer).map (attributeAt buffer) = msg.attributes := by
    rw [attributes_eq parsed, readAt_contained same contained, readAt_contained self contained]
    exact List.map_congr_left fun offset member => attributeAt_contained same contained member
  rw [same.parse_eq parsed, attributes]

/-- A value that passes the end is read once enough bytes follow the message, and
not from the message alone. -/
theorem readAt_beyond (parsed : parse data = .ok msg) (member : offset ∈ headers data)
    (beyond : messageEnd data < valueEnd data offset) :
    readAt (message data ++ List.replicate (valueLen data offset) 0) = headers data ∧
      offset ∉ readAt (message data) := by
  have alone := same_message parsed []
  rw [List.append_nil] at alone
  have padded := same_message parsed (List.replicate (valueLen data offset) 0)
  have size : (message data).length = messageEnd data := by
    have whole := alone.whole
    rw [message, List.length_take]
    omega
  constructor
  · obtain ⟨inside, last, split, ends, final⟩ :=
      headersFrom_split data (messageEnd data) (messageEnd data) 20
    rw [readAt, ← padded.headers_eq, List.takeWhile_eq_self_iff]
    intro o memberO
    have start := headersFrom_bounds memberO
    rw [← padded.valueEnd_eq memberO]
    rw [headers, split] at memberO member
    simp only [decide_eq_true_eq, List.length_append, List.length_replicate, size]
    rcases List.mem_append.mp memberO with early | late
    · have := ends o early
      omega
    · -- The last header is the only one beyond the end, so it is this one.
      have here : offset = o := by
        rcases List.mem_append.mp member with early | late'
        · have := ends offset early
          omega
        · rcases final with rfl | ⟨o', rfl, _, _⟩
          · simp at late
          · rw [List.mem_singleton.mp late, List.mem_singleton.mp late']
      rw [valueEnd, here]
      omega
  · intro read
    have held := List.mem_takeWhile_imp read
    rw [← alone.valueEnd_eq member, size] at held
    simp only [decide_eq_true_eq] at held
    omega

/-- **The length field ends the message exactly where its headers respect it.**
For a message that `parse` accepts, no bytes appended behind its declared end
change what is read, and equally every value read lies before that end, if and
only if every attribute header in it declares a value that ends there or before. -/
theorem trailing_ignored_iff (data : Bytes) (msg : TurnMessage) (parsed : parse data = .ok msg) :
    ((∀ extra, parse (message data ++ extra) = parse (message data)) ↔ Contained data) ∧
    ((∀ extra, ValuesBelow (messageEnd data) (message data ++ extra)) ↔ Contained data) ∧
    ∀ extra msg', parse (message data ++ extra) = .ok msg' →
      msg'.attributes =
        (readAt (message data ++ extra)).map (attributeAt (message data ++ extra)) := by
  have alone := same_message parsed []
  rw [List.append_nil] at alone
  refine ⟨⟨?_, ?_⟩, ⟨?_, ?_⟩, fun extra msg' accepted => attributes_eq accepted⟩
  · intro ignored offset member
    by_contra beyond
    obtain ⟨all, dropped⟩ := readAt_beyond parsed member (by omega)
    have padded := same_message parsed (List.replicate (valueLen data offset) 0)
    have same := ignored (List.replicate (valueLen data offset) 0)
    rw [padded.parse_eq parsed, alone.parse_eq parsed] at same
    have lists := congrArg TurnMessage.attributes (Except.ok.inj same)
    have count := congrArg List.length lists
    simp only [List.length_map, all] at count
    -- What is read from the message alone is a front of its headers, and now all of them.
    have front : readAt (message data) <+: headers data := by
      rw [alone.headers_eq]
      exact List.takeWhile_prefix _
    rw [front.eq_of_length count.symm] at dropped
    exact dropped member
  · intro contained extra
    rw [parse_contained parsed (same_message parsed extra) contained,
      parse_contained parsed alone contained]
  · intro below offset member
    by_contra beyond
    obtain ⟨all, _⟩ := readAt_beyond parsed member (by omega)
    have padded := same_message parsed (List.replicate (valueLen data offset) 0)
    have inside := below _ offset (all ▸ member)
    rw [← padded.valueEnd_eq member] at inside
    omega
  · intro contained extra offset member
    have same := same_message parsed extra
    rw [readAt_contained same contained] at member
    rw [← same.valueEnd_eq member]
    exact contained offset member

/-- A Send indication with four bytes of DATA, of which `length` bytes are declared
to belong to the message. -/
def sendOf (length : UInt8) : Bytes :=
  [0x00, 0x16, 0, length, 0x21, 0x12, 0xA4, 0x42] ++ List.replicate 12 7 ++
    [0x00, 0x13, 0, 4, 1, 2, 3, 4]

/-- Declared with its value, the message is read alone as from any datagram. -/
theorem trailing_ignored_whole : Contained (sendOf 8) ∧
    ∀ extra, parse (message (sendOf 8) ++ extra) = parse (message (sendOf 8)) :=
  ⟨by decide, (trailing_ignored_iff (sendOf 8) _ rfl).1.mpr (by decide)⟩

/-- Declared up to the header only, the message has no attribute when it is read
alone, and one made of the bytes behind it when they are in the buffer. -/
theorem trailing_read : ¬ ∀ data msg extra, parse data = .ok msg →
    parse (message data ++ extra) = parse (message data) := by
  intro ignored
  have alone : (parse (message (sendOf 4))).toOption.map (·.attributes) = some [] := by decide
  have followed : (parse (message (sendOf 4) ++ [1, 2, 3, 4])).toOption.map (·.attributes) =
      some [⟨AttrType.data, [1, 2, 3, 4]⟩] := by decide
  rw [ignored (sendOf 4) _ [1, 2, 3, 4] rfl, alone] at followed
  simp at followed

end Zaza.Trailing
