import LdapWire.Draft.Action
import LdapWire.Proofs.Ber.Primitive

/-!
# Fields of a message

`Content` ties what an action reads from the content of an element to what the
encoder writes for the value: a value with the stated property that is written is
read again, and content that is read gives a value with the property, for which
no more octets are written. What cannot be read is no fault of the decoder.
-/

set_option autoImplicit false

namespace LdapWire

open Ber

/-- The code of a result is read back, unless it is negative. -/
theorem Draft.resultCode_bytes (code : Int32) :
    Draft.resultCode (Integer.bytes code.toInt) =
      if code < 0 then .error (.violation (.invalid "result code" code.toInt)) else .ok code := by
  obtain ⟨read, decoded, wide, narrow⟩ :=
    Integer.decodeEnumerated_bytes (Integer.byteWidth_toInt_le code)
  have sameSign : read < 0 ↔ code < 0 := by
    rw [Int64.lt_iff_toInt_lt, Int32.lt_iff_toInt_lt, wide]
    rfl
  have same : read.toInt32 = code := Int32.toInt_inj.1 narrow
  simp only [Draft.resultCode, decoded, bind, Except.bind, sameSign, wide, same]
  split <;> rfl

/-- How a value is read from content and written again. -/
structure Content {α : Type} (read : Bytes → Codec α) (write : α → Bytes) (valid : α → Prop) :
    Prop where
  fails : ∀ content error, read content = .error error → error.isInternal = false
  accepts : ∀ content value, read content = .ok value →
    valid value ∧ (write value).length ≤ content.length
  returns : ∀ value, valid value → read (write value) = .ok value

namespace Content

/-- A reader followed by a check fails where either of them does. -/
theorem checked {α β : Type} {result : Codec α} {check : α → Codec β} {error : CodecError}
    (failed : (result >>= check) = .error error) :
    result = .error error ∨ ∃ value, result = .ok value ∧ check value = .error error := by
  cases result with
  | error cause =>
      cases failed
      exact .inl rfl
  | ok value => exact .inr ⟨value, rfl, failed⟩

theorem checked_ok {α β : Type} {result : Codec α} {check : α → Codec β} {final : β}
    (succeeded : (result >>= check) = .ok final) :
    ∃ value, result = .ok value ∧ check value = .ok final := by
  cases result with
  | error cause => cases succeeded
  | ok value => exact ⟨value, rfl, succeeded⟩

/-! ## Texts -/

theorem text (what : String) :
    Content (fun content => Utf8.decode content what) Utf8.bytes fun _ => True where
  fails _ _ failed := Utf8.decode_fault failed
  accepts _ _ decoded := ⟨trivial, Nat.le_of_eq (congrArg _ (Utf8.bytes_of_decode decoded))⟩
  returns value _ := Utf8.decode_bytes value what

theorem nonEmptyText (what : String) :
    Content (fun content => Draft.nonEmptyText content what) Utf8.bytes (· ≠ "") where
  fails content error failed := by
    rcases checked failed with undecoded | ⟨text, _, empty⟩
    · exact Utf8.decode_fault undecoded
    · split at empty <;> cases empty
      rfl
  accepts content value decoded := by
    obtain ⟨text, read, returned⟩ := checked_ok decoded
    split at returned
    · cases returned
    · rename_i nonempty
      cases returned
      exact ⟨by simpa using nonempty, Nat.le_of_eq (congrArg _ (Utf8.bytes_of_decode read))⟩
  returns value nonempty := by
    have present : value.isEmpty = false := by simpa using nonempty
    simp only [Draft.nonEmptyText, Utf8.decode_bytes, bind, Except.bind, present]
    rfl

/-! ## Truth values -/

theorem truth : Content Boolean.decode Boolean.bytes fun _ => True where
  fails _ _ failed := Boolean.decode_fault failed
  accepts _ value decoded := by
    rw [Boolean.length_of_decode decoded]
    exact ⟨trivial, Nat.le_refl _⟩
  returns value _ := Boolean.decode_bytes value

/-! ## Integers -/

theorem integer :
    Content Integer.decodeBounded (fun value => Integer.bytes value.toInt) fun _ => True where
  fails _ _ failed := Integer.decodeBounded_fault failed
  accepts _ _ decoded := by
    obtain ⟨nonempty, _, read⟩ := Integer.decodeBounded_eq_ok_iff.1 decoded
    exact ⟨trivial, Integer.length_bytes_le nonempty read.symm⟩
  returns value _ := Integer.decodeBounded_bytes value

/-- An integer of which only some values are accepted. -/
theorem restricted {read : Bytes → Codec Int32} {valid : Int32 → Prop} [DecidablePred valid]
    (refuse : Int32 → CodecError) (refusal : ∀ value, (refuse value).isInternal = false)
    (reads : ∀ content, read content = do
      let value ← Integer.decodeBounded content
      if ¬ valid value then throw (refuse value)
      return value) :
    Content read (fun value => Integer.bytes value.toInt) valid where
  fails content error failed := by
    rw [reads] at failed
    rcases checked failed with undecoded | ⟨value, _, refused⟩
    · exact Integer.decodeBounded_fault undecoded
    · split at refused <;> cases refused
      exact refusal value
  accepts content value decoded := by
    rw [reads] at decoded
    obtain ⟨found, read, returned⟩ := checked_ok decoded
    split at returned
    · cases returned
    · rename_i accepted
      cases returned
      exact ⟨not_not.1 accepted, (integer.accepts content value read).2⟩
  returns value accepted := by
    rw [reads, Integer.decodeBounded_bytes]
    simp [bind, Except.bind, accepted, pure, Except.pure]

theorem bindVersion :
    Content Draft.bindVersion (fun value => Integer.bytes value.toInt)
      fun version => 1 ≤ version ∧ version ≤ 127 := by
  refine restricted (fun version => .violation (.invalid "bind version" version.toInt))
    (fun _ => rfl) fun content => ?_
  refine congrArg (Integer.decodeBounded content >>= ·) (funext fun version => ?_)
  have same : (version < 1 ∨ 127 < version) ↔ ¬ (1 ≤ version ∧ version ≤ 127) := by
    rw [not_and_or, Int32.not_le, Int32.not_le]
  simp only [same]

theorem nonNegative (what : String) :
    Content (fun content => Draft.nonNegative content what)
      (fun value => Integer.bytes value.toInt) fun value => 0 ≤ value := by
  refine restricted (fun value => .violation (.negative what value.toInt))
    (fun _ => rfl) fun content => ?_
  refine congrArg (Integer.decodeBounded content >>= ·) (funext fun value => ?_)
  have same : value < 0 ↔ ¬ 0 ≤ value := Int32.not_le.symm
  simp only [same]

theorem resultCode :
    Content Draft.resultCode (fun value => Integer.bytes value.toInt) fun code => 0 ≤ code where
  fails content error failed := by
    rcases checked failed with undecoded | ⟨value, _, refused⟩
    · exact Integer.decode_fault undecoded
    · split at refused <;> cases refused
      rfl
  accepts content code decoded := by
    obtain ⟨value, read, returned⟩ := checked_ok decoded
    obtain ⟨nonempty, wide, narrow⟩ := Integer.decodeEnumerated_eq_ok read
    split at returned
    · cases returned
    · rename_i accepted
      cases returned
      refine ⟨?_, Integer.length_bytes_le nonempty narrow⟩
      rw [Int64.lt_iff_toInt_lt, wide] at accepted
      rw [Int32.le_iff_toInt_le, narrow]
      exact Int.not_lt.1 accepted
  returns code accepted := by
    have nonNegative : ¬ code < 0 := Int32.not_lt.2 accepted
    rw [Draft.resultCode_bytes, if_neg nonNegative]

/-- A value of a type that has codes. -/
theorem enumerated {α : Type} {ofCode : Int → Codec α} {code : α → Int}
    (fails : ∀ value error, ofCode value = .error error → error.isInternal = false)
    (code_ofCode : ∀ value member, ofCode value = .ok member → code member = value)
    (ofCode_code : ∀ member, ofCode (code member) = .ok member)
    (small : ∀ member, Integer.byteWidth (code member) ≤ Integer.maxSize) :
    Content (Draft.enumerated ofCode) (fun member => Integer.bytes (code member))
      fun _ => True where
  fails content error failed := by
    rcases checked failed with undecoded | ⟨value, _, unknown⟩
    · exact Integer.decode_fault undecoded
    · exact fails _ _ unknown
  accepts content member decoded := by
    obtain ⟨value, read, known⟩ := checked_ok decoded
    obtain ⟨nonempty, wide, _⟩ := Integer.decodeEnumerated_eq_ok read
    have spelled : code member = Integer.signed content := (code_ofCode _ _ known).trans wide
    exact ⟨trivial, Integer.length_bytes_le nonempty spelled⟩
  returns member _ := by
    obtain ⟨read, decoded, wide, _⟩ := Integer.decodeEnumerated_bytes (small member)
    simp only [Draft.enumerated, decoded, bind, Except.bind, wide, ofCode_code]

theorem searchScope :
    Content (Draft.enumerated SearchScope.ofCode) (fun scope => Integer.bytes scope.code)
      fun _ => True := by
  refine enumerated ?_ ?_ (fun scope => by cases scope <;> rfl)
    (fun scope => by cases scope <;> decide)
  · intro value error failed
    unfold SearchScope.ofCode at failed
    split at failed <;> cases failed
    rfl
  · intro value scope known
    unfold SearchScope.ofCode at known
    split at known <;> cases known <;> rfl

theorem aliasPolicy :
    Content (Draft.enumerated AliasPolicy.ofCode) (fun policy => Integer.bytes policy.code)
      fun _ => True := by
  refine enumerated ?_ ?_ (fun policy => by cases policy <;> rfl)
    (fun policy => by cases policy <;> decide)
  · intro value error failed
    unfold AliasPolicy.ofCode at failed
    split at failed <;> cases failed
    rfl
  · intro value policy known
    unfold AliasPolicy.ofCode at known
    split at known <;> cases known <;> rfl

theorem changeKind :
    Content (Draft.enumerated ChangeKind.ofCode) (fun kind => Integer.bytes kind.code)
      fun _ => True := by
  refine enumerated ?_ ?_ (fun kind => by cases kind <;> rfl)
    (fun kind => by cases kind <;> decide)
  · intro value error failed
    unfold ChangeKind.ofCode at failed
    split at failed <;> cases failed
    rfl
  · intro value kind known
    unfold ChangeKind.ofCode at known
    split at known <;> cases known <;> rfl

end Content

end LdapWire
