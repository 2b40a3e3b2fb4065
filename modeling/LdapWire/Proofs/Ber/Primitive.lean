import LdapWire.Ber.Primitive
import LdapWire.Proofs.Ber.Integer
import LdapWire.Proofs.Fault

/-!
# Contents there and back

What the content of a primitive element is read as, and how it is written again.
A value that is written and read is the same value; content that is read as a
value is no shorter than what is written for that value. Content that cannot be
read is never a fault of the decoder.
-/

set_option autoImplicit false

namespace LdapWire.Ber

/-! ## Integers -/

namespace Integer

theorem decode_eq_ok {content : Bytes} {bound : Nat} {value : Int64}
    (decoded : decode content bound = .ok value) :
    content ≠ [] ∧ content.length ≤ bound ∧ value = Int64.ofInt (signed content) := by
  unfold decode at decoded
  split at decoded
  · cases decoded
  · rename_i nonempty
    split at decoded
    · cases decoded
    · rename_i fits
      cases decoded
      exact ⟨by simpa using nonempty, Nat.not_lt.1 fits, rfl⟩

theorem decode_fault {content : Bytes} {bound : Nat} {error : CodecError}
    (failed : decode content bound = .error error) : error.isInternal = false := by
  unfold decode at failed
  split at failed
  · cases failed
    rfl
  · split at failed <;> cases failed
    rfl

theorem decode_of_le {content : Bytes} {bound : Nat} (nonempty : content ≠ [])
    (fits : content.length ≤ bound) :
    decode content bound = .ok (Int64.ofInt (signed content)) := by
  have present : content.isEmpty = false := by simpa using nonempty
  simp [decode, present, Nat.not_lt.2 fits]

/-- Content of at most four octets spells a number of 32 bits. -/
theorem signed_bounds_of_le {content : Bytes} (nonempty : content ≠ [])
    (fits : content.length ≤ maxSize) : -2 ^ 31 ≤ signed content ∧ signed content < 2 ^ 31 := by
  have width : byteWidth (signed content) ≤ 3 + 1 :=
    Nat.le_trans (byteWidth_signed_le nonempty) fits
  have bounds := byteWidth_le_iff.1 width
  constructor <;> norm_num at bounds ⊢ <;> omega

theorem toInt_ofInt_signed {content : Bytes} (nonempty : content ≠ [])
    (fits : content.length ≤ maxSize) : (Int64.ofInt (signed content)).toInt = signed content := by
  obtain ⟨low, high⟩ := signed_bounds_of_le nonempty fits
  exact Int64.toInt_ofInt_of_le (by omega) (by omega)

theorem toInt_toInt32_signed {content : Bytes} (nonempty : content ≠ [])
    (fits : content.length ≤ maxSize) :
    (Int64.ofInt (signed content)).toInt32.toInt = signed content := by
  obtain ⟨low, high⟩ := signed_bounds_of_le nonempty fits
  rw [Int64.toInt_toInt32, toInt_ofInt_signed nonempty fits]
  exact Int.bmod_eq_of_le (by omega) (by omega)

/-- Content of one to four octets is read as the number that it spells. -/
theorem decodeBounded_eq_ok_iff {content : Bytes} {value : Int32} :
    decodeBounded content = .ok value
      ↔ content ≠ [] ∧ content.length ≤ maxSize ∧ signed content = value.toInt := by
  constructor
  · intro decoded
    cases read : decode content maxSize with
    | error error => simp [decodeBounded, read, bind, Except.bind] at decoded
    | ok long =>
        obtain ⟨nonempty, fits, rfl⟩ := decode_eq_ok read
        simp only [decodeBounded, read, bind, Except.bind, pure, Except.pure,
          Except.ok.injEq] at decoded
        subst decoded
        exact ⟨nonempty, fits, (toInt_toInt32_signed nonempty fits).symm⟩
  · rintro ⟨nonempty, fits, same⟩
    have value := Int32.toInt_inj.1 ((toInt_toInt32_signed nonempty fits).trans same)
    simp [decodeBounded, decode_of_le nonempty fits, bind, Except.bind, pure, Except.pure, value]

theorem decodeEnumerated_eq_ok {content : Bytes} {value : Int64}
    (decoded : decodeEnumerated content = .ok value) :
    content ≠ [] ∧ value.toInt = signed content ∧ value.toInt32.toInt = signed content := by
  obtain ⟨nonempty, fits, rfl⟩ := decode_eq_ok decoded
  exact ⟨nonempty, toInt_ofInt_signed nonempty fits, toInt_toInt32_signed nonempty fits⟩

/-- An enumerated value is read as the number that its content spells. -/
theorem decodeEnumerated_eq_ok_iff {content : Bytes} {value : Int64} :
    decodeEnumerated content = .ok value
      ↔ content ≠ [] ∧ content.length ≤ maxSize ∧ signed content = value.toInt := by
  constructor
  · intro decoded
    obtain ⟨nonempty, fits, rfl⟩ := decode_eq_ok decoded
    exact ⟨nonempty, fits, (toInt_ofInt_signed nonempty fits).symm⟩
  · rintro ⟨nonempty, fits, same⟩
    have value := Int64.toInt_inj.1 ((toInt_ofInt_signed nonempty fits).trans same)
    rw [decodeEnumerated, decode_of_le nonempty fits, value]

theorem decodeBounded_fault {content : Bytes} {error : CodecError}
    (failed : decodeBounded content = .error error) : error.isInternal = false := by
  cases read : decode content maxSize with
  | error cause =>
      simp only [decodeBounded, read, bind, Except.bind, Except.error.injEq] at failed
      subst failed
      exact decode_fault read
  | ok long => simp [decodeBounded, read, bind, Except.bind, pure, Except.pure] at failed

theorem bytes_ne_nil (value : Int) : bytes value ≠ [] := by
  intro empty
  have size := length_bytes value
  rw [empty] at size
  exact absurd size (byteWidth_pos value).ne

/-- Content that is read as a number is no shorter than the shortest form. -/
theorem length_bytes_le {content : Bytes} {value : Int} (nonempty : content ≠ [])
    (read : value = signed content) : (bytes value).length ≤ content.length := by
  rw [length_bytes, read]
  exact byteWidth_signed_le nonempty

theorem length_bytes_toInt_le (value : Int32) : (bytes value.toInt).length ≤ maxSize := by
  rw [length_bytes]
  exact byteWidth_toInt_le value

theorem decodeEnumerated_bytes {value : Int} (fits : byteWidth value ≤ maxSize) :
    ∃ read, decodeEnumerated (bytes value) = .ok read ∧ read.toInt = value
      ∧ read.toInt32.toInt = value := by
  have size : (bytes value).length ≤ maxSize := by rwa [length_bytes]
  have read := decode_of_le (bytes_ne_nil value) size
  obtain ⟨_, wide, narrow⟩ := decodeEnumerated_eq_ok read
  rw [signed_bytes] at read wide narrow
  exact ⟨_, read, wide, narrow⟩

@[simp] theorem decodeBounded_bytes (value : Int32) :
    decodeBounded (bytes value.toInt) = .ok value := by
  obtain ⟨read, decoded, _, narrow⟩ := decodeEnumerated_bytes (byteWidth_toInt_le value)
  have same : read.toInt32 = value := Int32.toInt_inj.1 narrow
  rw [decodeEnumerated] at decoded
  simp [decodeBounded, decoded, bind, Except.bind, pure, Except.pure, same]

end Integer

/-! ## Truth values -/

namespace Boolean

@[simp] theorem decode_bytes (value : Bool) : decode (bytes value) = .ok value := by
  cases value <;> rfl

@[simp] theorem length_bytes (value : Bool) : (bytes value).length = 1 := rfl

/-- A single octet is read as whether it is not zero. -/
theorem decode_eq_ok_iff {content : Bytes} {value : Bool} :
    decode content = .ok value ↔ ∃ octet, content = [octet] ∧ value = (octet != 0) := by
  constructor
  · intro decoded
    unfold decode at decoded
    split at decoded <;> cases decoded
    exact ⟨_, rfl, rfl⟩
  · rintro ⟨octet, rfl, rfl⟩
    rfl

theorem length_of_decode {content : Bytes} {value : Bool} (decoded : decode content = .ok value) :
    content.length = 1 := by
  obtain ⟨octet, rfl, _⟩ := decode_eq_ok_iff.1 decoded
  rfl

theorem decode_fault {content : Bytes} {error : CodecError}
    (failed : decode content = .error error) : error.isInternal = false := by
  unfold decode at failed
  split at failed <;> cases failed
  rfl

end Boolean

/-! ## Texts -/

namespace Utf8

@[simp] theorem decode_bytes (text what : String) : decode (bytes text) what = .ok text := by
  have valid : (⟨text.toByteArray.data.toList.toArray⟩ : ByteArray).IsValidUTF8 :=
    text.isValidUTF8
  rw [decode, bytes, String.fromUTF8?, dif_pos valid]
  rfl

theorem bytes_of_decode {content : Bytes} {what text : String}
    (decoded : decode content what = .ok text) : bytes text = content := by
  unfold decode String.fromUTF8? at decoded
  split at decoded
  · rename_i read
    split at read
    · cases read
      cases decoded
      rfl
    · cases read
  · cases decoded

theorem decode_fault {content : Bytes} {what : String} {error : CodecError}
    (failed : decode content what = .error error) : error.isInternal = false := by
  unfold decode at failed
  split at failed <;> cases failed
  rfl

end Utf8

end LdapWire.Ber
