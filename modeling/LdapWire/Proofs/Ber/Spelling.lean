import LdapWire.Proofs.Ber.Agreement
import LdapWire.Proofs.Ber.Element
import LdapWire.Proofs.Ber.Primitive

/-!
# Spellings of elements

Which octets spell an element, told without a reader. A length is a single octet below 128,
or a marker and the octets that it counts, of which there are at most four
(`Length.IsSpelling`). An element is its tag, a spelling of its length and its content
(`IsElement`), the content of a number has one to four octets (`IsNumber`), and any octet but
zero means true (`IsTruth`). Neither a length nor a number need be as short as possible.

Each reader accepts exactly these octets at the front of those that are left
(`Reader.expected_eq_ok_iff`, `Reader.integer_eq_ok_iff`, `Reader.boolean_eq_ok_iff`), and no
spelling has fewer octets than the one that is written (`IsElement.length_le`,
`IsNumber.length_le`).
-/

set_option autoImplicit false

namespace LdapWire.Ber

/-! ## Lengths -/

namespace Length

/-- Whether octets spell a length: in the short form it is an octet below 128, in the long form
it is what one to four octets spell behind a marker that counts them. -/
inductive IsSpelling : Bytes → Nat → Prop where
  | short {octet : UInt8} (small : octet < 0x80) : IsSpelling [octet] octet.toNat
  | long {marker : UInt8} {digits : Bytes} (counted : marker.toNat = 0x80 + digits.length)
      (nonempty : digits ≠ []) (few : digits.length ≤ maxOctets) :
      IsSpelling (marker :: digits) (Integer.unsigned digits)

/-- A spelling has no fewer octets than the shortest one. -/
theorem IsSpelling.width_le {octets : Bytes} {length : Nat} (spelled : IsSpelling octets length) :
    width length ≤ octets.length := by
  cases spelled with
  | short small => exact Nat.le_of_eq (width_of_lt (UInt8.lt_iff_toNat_lt.1 small))
  | @long marker digits counted nonempty few =>
      have narrow := Length.width_le (Integer.unsigned_lt digits)
      rw [List.length_cons, Nat.add_comm]
      exact narrow

/-- The length that octets spell fits into four octets. -/
theorem IsSpelling.fits {octets : Bytes} {length : Nat} (spelled : IsSpelling octets length) :
    length < 256 ^ maxOctets := by
  cases spelled with
  | short small => exact Nat.lt_trans (UInt8.lt_iff_toNat_lt.1 small) (by decide)
  | @long marker digits counted nonempty few =>
      exact Nat.lt_of_lt_of_le (Integer.unsigned_lt digits) (Nat.pow_le_pow_right (by decide) few)

theorem isSpelling_bytes {length : Nat} (fits : length < 256 ^ maxOctets) :
    IsSpelling (bytes length) length := by
  by_cases small : length < 0x80
  · have value : (UInt8.ofNat length).toNat = length := by
      rw [UInt8.toNat_ofNat']
      omega
    have first : UInt8.ofNat length < 0x80 := by
      rw [UInt8.lt_iff_toNat_lt, value]
      exact small
    have spelled := IsSpelling.short first
    rw [value] at spelled
    rwa [bytes, if_pos small]
  · have some := octetCount_pos (Nat.not_lt.1 small)
    have few : octetCount length ≤ 4 := octetCount_le_iff.2 fits
    have count : (longOctets length).length = octetCount length := Integer.length_octets _ _
    have counted : (longMarker length).toNat = 0x80 + (longOctets length).length := by
      rw [count, toNat_longMarker (few.trans_lt (by decide))]
    have nonempty : longOctets length ≠ [] := by
      rw [← List.length_pos_iff, count]
      exact some
    have spelled := IsSpelling.long counted nonempty (count.trans_le few)
    rw [unsigned_longOctets] at spelled
    rwa [bytes, if_neg small]

end Length

/-! ## Elements -/

/-- Whether octets are an element with a tag and a content, and nothing else. -/
def IsElement (octets : Bytes) (tag : UInt8) (content : Bytes) : Prop :=
  ∃ length, Length.IsSpelling length content.length ∧ octets = tag :: (length ++ content)

/-- Whether octets are an element whose content is a number of one to four octets. -/
def IsNumber (octets : Bytes) (tag : UInt8) (value : Int) : Prop :=
  ∃ content, IsElement octets tag content ∧ content ≠ [] ∧ content.length ≤ Integer.maxSize
    ∧ Integer.signed content = value

/-- Whether octets are an element whose content is a single octet that means a truth value. -/
def IsTruth (octets : Bytes) (value : Bool) : Prop :=
  ∃ octet, IsElement octets Tag.boolean [octet] ∧ value = (octet != 0)

theorem IsElement.length_le {octets content : Bytes} {tag : UInt8}
    (element : IsElement octets tag content) :
    (elementBytes tag content).length ≤ octets.length := by
  obtain ⟨length, spelled, rfl⟩ := element
  have narrow := spelled.width_le
  rw [length_elementBytes, List.length_cons, List.length_append]
  omega

theorem IsElement.fits {octets content : Bytes} {tag : UInt8}
    (element : IsElement octets tag content) : content.length < 256 ^ Length.maxOctets := by
  obtain ⟨length, spelled, rfl⟩ := element
  exact spelled.fits

theorem isElement_elementBytes {content : Bytes} (fits : content.length < 256 ^ Length.maxOctets)
    (tag : UInt8) : IsElement (elementBytes tag content) tag content :=
  ⟨_, Length.isSpelling_bytes fits, rfl⟩

theorem IsElement.head?_append {octets content : Bytes} {tag : UInt8}
    (element : IsElement octets tag content) (rest : Bytes) :
    (octets ++ rest).head? = some tag := by
  obtain ⟨length, _, rfl⟩ := element
  rfl

theorem IsTruth.head?_append {octets : Bytes} {value : Bool} (truth : IsTruth octets value)
    (rest : Bytes) : (octets ++ rest).head? = some Tag.boolean := by
  obtain ⟨octet, element, _⟩ := truth
  exact element.head?_append rest

/-- Any truth value takes three octets at least. -/
theorem IsTruth.length_le {octets : Bytes} {value : Bool} (truth : IsTruth octets value) :
    3 ≤ octets.length := by
  obtain ⟨octet, element, _⟩ := truth
  exact element.length_le

theorem IsNumber.length_le {octets : Bytes} {tag : UInt8} {value : Int}
    (number : IsNumber octets tag value) :
    (elementBytes tag (Integer.bytes value)).length ≤ octets.length := by
  obtain ⟨content, element, nonempty, few, rfl⟩ := number
  have size := element.length_le
  have narrow := Integer.length_bytes_le nonempty rfl
  have widths := Length.width_mono narrow
  rw [length_elementBytes] at size ⊢
  omega

theorem isNumber_elementBytes {value : Int} (fits : Integer.byteWidth value ≤ Integer.maxSize)
    (tag : UInt8) : IsNumber (elementBytes tag (Integer.bytes value)) tag value := by
  have few : (Integer.bytes value).length ≤ Integer.maxSize := by rwa [Integer.length_bytes]
  have short : (Integer.bytes value).length < 256 ^ Length.maxOctets :=
    Nat.lt_of_le_of_lt few (by decide)
  exact ⟨_, isElement_elementBytes short tag, Integer.bytes_ne_nil value, few,
    Integer.signed_bytes value⟩

theorem isTruth_elementBytes (value : Bool) :
    IsTruth (elementBytes Tag.boolean (Boolean.bytes value)) value := by
  refine ⟨if value then 0xFF else 0x00, ?_, by cases value <;> rfl⟩
  exact isElement_elementBytes (by rw [Boolean.length_bytes]; decide) Tag.boolean

/-! ## Readers -/

namespace Reader

theorem number_eq_ok_iff {count start value : Nat} {input rest : Bytes} :
    number count start input = .ok value rest
      ↔ ∃ digits, digits.length = count ∧ input = digits ++ rest
        ∧ value = digits.foldl (fun value octet => 256 * value + octet.toNat) start := by
  constructor
  · intro read
    induction count generalizing start input with
    | zero =>
        cases read
        exact ⟨[], rfl, rfl, rfl⟩
    | succ count further =>
        obtain ⟨octet, middle, taken, read⟩ := Step.exists_of_bind_eq_ok read
        cases input with
        | nil => cases taken
        | cons first input =>
            cases taken
            obtain ⟨digits, rfl, rfl, rfl⟩ := further read
            exact ⟨octet :: digits, rfl, rfl, rfl⟩
  · rintro ⟨digits, rfl, rfl, rfl⟩
    induction digits generalizing start with
    | nil => rfl
    | cons octet digits further => exact further

/-- A reader of lengths accepts the spellings of a length. -/
theorem length_eq_ok_iff {input rest : Bytes} {length : Nat} :
    Reader.length input = .ok length rest
      ↔ ∃ front, Length.IsSpelling front length ∧ input = front ++ rest := by
  constructor
  · intro read
    cases input with
    | nil => cases read
    | cons first input =>
        rw [length_cons] at read
        cases formed : Length.form first with
        | error error =>
            rw [formed] at read
            cases read
        | ok form =>
            rw [formed] at read
            cases form with
            | short value =>
                obtain ⟨small, rfl⟩ := Length.form_eq_short_iff.1 formed
                cases read
                exact ⟨[first], .short small, rfl⟩
            | long count =>
                obtain ⟨counted, some, few⟩ := Length.form_eq_long_iff.1 formed
                obtain ⟨digits, rfl, rfl, rfl⟩ := number_eq_ok_iff.1 read
                exact ⟨first :: digits, .long counted (List.length_pos_iff.1 some) few, rfl⟩
  · rintro ⟨front, spelled, rfl⟩
    cases spelled with
    | @short octet small =>
        have formed := Length.form_eq_short_iff.2 ⟨small, rfl⟩
        rw [List.singleton_append, length_cons, formed]
    | @long marker digits counted nonempty few =>
        have formed := Length.form_eq_long_iff.2 ⟨counted, List.length_pos_iff.2 nonempty, few⟩
        rw [List.cons_append, length_cons, formed]
        exact number_eq_ok_iff.2 ⟨digits, rfl, rfl, rfl⟩

theorem length_append {length : Nat} (fits : length < 256 ^ Length.maxOctets) (rest : Bytes) :
    Reader.length (Length.bytes length ++ rest) = .ok length rest :=
  length_eq_ok_iff.2 ⟨_, Length.isSpelling_bytes fits, rfl⟩

theorem take_eq_ok_iff {count : Nat} {input content rest : Bytes} :
    take count input = .ok content rest ↔ content.length = count ∧ input = content ++ rest := by
  constructor
  · intro taken
    unfold take at taken
    split at taken
    · cases taken
    · rename_i enough
      cases taken
      exact ⟨by rw [List.length_take, Nat.min_eq_left (Nat.not_lt.1 enough)],
        (List.take_append_drop count input).symm⟩
  · rintro ⟨rfl, rfl⟩
    have enough : ¬ (content ++ rest).length < content.length := by
      rw [List.length_append]
      omega
    rw [take, if_neg enough, List.take_left, List.drop_left]

/-- A reader of an element with a tag accepts the elements with that tag. -/
theorem expected_eq_ok_iff {tag : UInt8} (single : checkTag tag = .ok ())
    {input content rest : Bytes} :
    expected tag input = .ok content rest
      ↔ ∃ element, IsElement element tag content ∧ input = element ++ rest := by
  constructor
  · intro read
    obtain ⟨actual, first, tagged, further⟩ := Step.exists_of_bind_eq_ok read
    dsimp only at further
    split at further
    · cases further
    · rename_i same
      cases Decidable.not_not.1 same
      cases input with
      | nil => cases tagged
      | cons octet input =>
          rw [tag_cons] at tagged
          split at tagged <;> cases tagged
          obtain ⟨length, second, measured, taken⟩ := Step.exists_of_bind_eq_ok further
          obtain ⟨front, spelled, rfl⟩ := length_eq_ok_iff.1 measured
          obtain ⟨rfl, rfl⟩ := take_eq_ok_iff.1 taken
          refine ⟨tag :: (front ++ content), ⟨front, spelled, rfl⟩, ?_⟩
          rw [List.cons_append, List.append_assoc]
  · rintro ⟨element, ⟨front, spelled, rfl⟩, rfl⟩
    rw [List.cons_append, List.append_assoc, expected,
      Step.bind_of_ok _ (tag_of_single single _)]
    simp only [ne_eq, not_true_eq_false, if_false]
    rw [Step.bind_of_ok _ (length_eq_ok_iff.2 ⟨front, spelled, rfl⟩)]
    exact take_eq_ok_iff.2 ⟨rfl, rfl⟩

/-- A reader of a field accepts the elements with its tag whose content has a value. -/
theorem field_eq_ok_iff {α : Type} {tag : UInt8} (single : checkTag tag = .ok ())
    {decode : Bytes → Codec α} {input rest : Bytes} {value : α} :
    (do Step.lift (decode (← expected tag)) : Reader α) input = .ok value rest
      ↔ ∃ content element, IsElement element tag content ∧ decode content = .ok value
        ∧ input = element ++ rest := by
  constructor
  · intro read
    obtain ⟨content, middle, taken, lifted⟩ := Step.exists_of_bind_eq_ok read
    obtain ⟨element, spelled, rfl⟩ := (expected_eq_ok_iff single).1 taken
    obtain ⟨decoded, rfl⟩ := Step.lift_eq_ok lifted
    exact ⟨content, element, spelled, decoded, rfl⟩
  · rintro ⟨content, element, spelled, decoded, rfl⟩
    rw [Step.bind_of_ok _ ((expected_eq_ok_iff single).2 ⟨element, spelled, rfl⟩), decoded]
    rfl

theorem integer_eq_ok_iff {input rest : Bytes} {value : Int32} :
    integer input = .ok value rest
      ↔ ∃ element, IsNumber element Tag.integer value.toInt ∧ input = element ++ rest := by
  rw [integer, field_eq_ok_iff rfl]
  constructor
  · rintro ⟨content, element, spelled, decoded, rfl⟩
    exact ⟨element, ⟨content, spelled, Integer.decodeBounded_eq_ok_iff.1 decoded⟩, rfl⟩
  · rintro ⟨element, ⟨content, spelled, decoded⟩, rfl⟩
    exact ⟨content, element, spelled, Integer.decodeBounded_eq_ok_iff.2 decoded, rfl⟩

theorem enumerated_eq_ok_iff {input rest : Bytes} {value : Int64} :
    enumerated input = .ok value rest
      ↔ ∃ element, IsNumber element Tag.enumerated value.toInt ∧ input = element ++ rest := by
  rw [enumerated, field_eq_ok_iff rfl]
  constructor
  · rintro ⟨content, element, spelled, decoded, rfl⟩
    exact ⟨element, ⟨content, spelled, Integer.decodeEnumerated_eq_ok_iff.1 decoded⟩, rfl⟩
  · rintro ⟨element, ⟨content, spelled, decoded⟩, rfl⟩
    exact ⟨content, element, spelled, Integer.decodeEnumerated_eq_ok_iff.2 decoded, rfl⟩

theorem boolean_eq_ok_iff {input rest : Bytes} {value : Bool} :
    boolean input = .ok value rest
      ↔ ∃ element, IsTruth element value ∧ input = element ++ rest := by
  rw [boolean, field_eq_ok_iff rfl]
  constructor
  · rintro ⟨content, element, spelled, decoded, rfl⟩
    obtain ⟨octet, rfl, rfl⟩ := Boolean.decode_eq_ok_iff.1 decoded
    exact ⟨element, ⟨octet, spelled, rfl⟩, rfl⟩
  · rintro ⟨element, ⟨octet, spelled, rfl⟩, rfl⟩
    exact ⟨[octet], element, spelled, rfl, rfl⟩

theorem octetString_eq_ok_iff {input content rest : Bytes} :
    octetString input = .ok content rest
      ↔ ∃ element, IsElement element Tag.octetString content ∧ input = element ++ rest :=
  expected_eq_ok_iff rfl

theorem finish_eq_ok_iff {left after : Bytes} :
    finish left = .ok () after ↔ left = [] ∧ after = [] := by
  cases left with
  | nil =>
      constructor
      · intro ended
        cases ended
        exact ⟨rfl, rfl⟩
      · rintro ⟨_, rfl⟩
        rfl
  | cons octet rest =>
      constructor
      · intro ended
        cases ended
      · rintro ⟨same, _⟩
        cases same

theorem runOn_eq_ok {α : Type} {reader : Reader α} {content : Bytes} {value : α} :
    runOn reader content = .ok value ↔ ∃ rest, reader content = .ok value rest := by
  unfold runOn EStateM.run
  cases read : reader content with
  | ok found rest =>
      constructor
      · intro same
        cases same
        exact ⟨rest, rfl⟩
      · rintro ⟨_, same⟩
        cases same
        rfl
  | error error rest =>
      constructor
      · intro same
        cases same
      · rintro ⟨_, same⟩
        cases same

/-- A value that is one sequence is read by its content. -/
theorem soleSequence_of_isElement {α : Type} (fields : Reader α) {octets inner : Bytes}
    (element : IsElement octets Tag.sequence inner) :
    soleSequence fields octets = runOn fields inner := by
  have opened : sequence octets = .ok inner [] :=
    (expected_eq_ok_iff rfl).2 ⟨octets, element, (List.append_nil octets).symm⟩
  have taken : runOn (do let inner ← sequence; finish; return inner) octets = .ok inner := by
    refine runOn_eq_ok.2 ⟨[], ?_⟩
    rw [Step.bind_of_ok _ opened]
    rfl
  rw [soleSequence, taken]
  rfl

/-- A value is accepted if it is one sequence whose fields are. -/
theorem soleSequence_eq_ok_iff {α : Type} {fields : Reader α} {octets : Bytes} {value : α} :
    soleSequence fields octets = .ok value
      ↔ ∃ inner rest, IsElement octets Tag.sequence inner ∧ fields inner = .ok value rest := by
  constructor
  · intro read
    cases opened : runOn (do let inner ← sequence; finish; return inner) octets with
    | error error =>
        rw [soleSequence, opened] at read
        cases read
    | ok inner =>
        rw [soleSequence, opened] at read
        obtain ⟨rest, fieldsRead⟩ := runOn_eq_ok.1 read
        obtain ⟨_, alone⟩ := runOn_eq_ok.1 opened
        obtain ⟨taken, left, sequenceRead, finished⟩ := Step.exists_of_bind_eq_ok alone
        obtain ⟨_, _, ended, returned⟩ := Step.exists_of_bind_eq_ok finished
        cases returned
        obtain ⟨rfl, rfl⟩ := finish_eq_ok_iff.1 ended
        obtain ⟨element, spelled, rfl⟩ := (expected_eq_ok_iff rfl).1 sequenceRead
        rw [List.append_nil]
        exact ⟨_, rest, spelled, fieldsRead⟩
  · rintro ⟨inner, rest, element, fieldsRead⟩
    rw [soleSequence_of_isElement fields element]
    exact runOn_eq_ok.2 ⟨rest, fieldsRead⟩

end Reader

end LdapWire.Ber
