import LdapWire.Ber.Header
import LdapWire.Proofs.Ber.Length
import LdapWire.Proofs.Fault
import LdapWire.Proofs.Step

/-!
# Headers that have been read

A header that is read octet by octet counts its octets, and the length it
announces needs no more octets than it has (`Header.push_meets`).
-/

set_option autoImplicit false

namespace LdapWire.Ber

/-- Whether the length of an element is bounded by its header. -/
structure Tlv.Announced (tlv : Tlv) : Prop where
  wide : 1 + Length.width tlv.length ≤ tlv.headerLength
  short : tlv.length < 256 ^ Length.maxOctets

theorem checkTag_corrupt {tag : UInt8} {error : CodecError}
    (failed : checkTag tag = .error error) : ∃ corruption, error = .corrupt corruption := by
  unfold checkTag at failed
  split at failed <;> cases failed
  exact ⟨_, rfl⟩

theorem checkTag_fault {tag : UInt8} {error : CodecError} (failed : checkTag tag = .error error) :
    error.isInternal = false := by
  obtain ⟨_, rfl⟩ := checkTag_corrupt failed
  rfl

namespace Length

theorem form_corrupt {first : UInt8} {error : CodecError} (failed : form first = .error error) :
    ∃ corruption, error = .corrupt corruption := by
  unfold form at failed
  dsimp only at failed
  repeat' split at failed
  all_goals cases failed
  all_goals exact ⟨_, rfl⟩

theorem form_fault {first : UInt8} {error : CodecError} (failed : form first = .error error) :
    error.isInternal = false := by
  obtain ⟨_, rfl⟩ := form_corrupt failed
  rfl

theorem form_eq_short_iff {first : UInt8} {length : Nat} :
    form first = .ok (.short length) ↔ first < 0x80 ∧ length = first.toNat := by
  constructor
  · intro found
    unfold form at found
    split at found
    · cases found
      exact ⟨‹_›, rfl⟩
    · dsimp only at found
      repeat' split at found
      all_goals cases found
  · rintro ⟨small, rfl⟩
    exact if_pos small

/-- A first octet above 128 counts the octets of the length, which must be few. -/
theorem form_of_toNat {first : UInt8} {count : Nat} (counted : first.toNat = 0x80 + count)
    (some : 0 < count) (unreserved : count < 0x7F) :
    form first = if maxOctets < count then .error (.corrupt (.oversizedLength count))
      else .ok (.long count) := by
  have large : ¬ first < 0x80 := by
    rw [UInt8.lt_iff_toNat_lt, counted]
    exact Nat.not_lt.2 (Nat.le_add_right _ _)
  have definite : first ≠ 0x80 := by
    rintro rfl
    have spelled : (0x80 : UInt8).toNat = 0x80 := rfl
    omega
  have allowed : first ≠ 0xFF := by
    rintro rfl
    have spelled : (0xFF : UInt8).toNat = 0xFF := rfl
    omega
  have behind : first.toNat - 0x80 = count := by omega
  rw [form, if_neg large, if_neg definite, if_neg allowed]
  dsimp only
  rw [behind]

theorem form_eq_long_iff {first : UInt8} {count : Nat} :
    form first = .ok (.long count)
      ↔ first.toNat = 0x80 + count ∧ 0 < count ∧ count ≤ maxOctets := by
  constructor
  · intro found
    by_cases small : first < 0x80
    · rw [form_eq_short_iff.2 ⟨small, rfl⟩] at found
      cases found
    · have large : 0x80 ≤ first.toNat := UInt8.le_iff_toNat_le.1 (UInt8.not_lt.1 small)
      rw [form, if_neg small] at found
      dsimp only at found
      split at found
      · cases found
      · rename_i definite
        split at found
        · cases found
        · split at found
          · cases found
          · have counted := LengthForm.long.inj (Except.ok.inj found)
            have nonzero : first.toNat ≠ 0x80 := fun equal => definite (UInt8.toNat_inj.1 equal)
            omega
  · rintro ⟨counted, some, few⟩
    have four : maxOctets = 4 := rfl
    rw [form_of_toNat counted some (by omega), if_neg (Nat.not_lt.2 few)]

theorem form_short {first : UInt8} {length : Nat} (found : form first = .ok (.short length)) :
    length < 0x80 := by
  obtain ⟨small, rfl⟩ := form_eq_short_iff.1 found
  exact UInt8.lt_iff_toNat_lt.1 small

theorem form_long {first : UInt8} {count : Nat} (found : form first = .ok (.long count)) :
    0 < count ∧ count ≤ maxOctets :=
  (form_eq_long_iff.1 found).2

theorem width_of_lt {length : Nat} (small : length < 0x80) : width length = 1 := if_pos small

/-- A length of so many octets has no shorter form than its header. -/
theorem width_le {length count : Nat} (small : length < 256 ^ count) :
    width length ≤ 1 + count := by
  have fits := octetCount_le_iff.2 small
  unfold width
  split <;> omega

end Length

namespace Header

/-- Whether the number of octets read belongs to the phase, and the part of the
length that has been read is bounded by it. -/
def Sound (header : Header) : Prop :=
  match header.phase with
  | .tag => header.bytesRead = 0
  | .length _ => header.bytesRead = 1
  | .longLength _ remaining length =>
      ∃ count, header.bytesRead = 2 + count ∧ length < 256 ^ count ∧ 0 < remaining
        ∧ count + remaining ≤ Length.maxOctets

theorem sound_idle : Sound {} := rfl

/-- A header under way lacks at least its last octet. -/
theorem Sound.bytesRead_le {header : Header} (sound : header.Sound) :
    header.bytesRead ≤ 1 + Length.maxOctets := by
  obtain ⟨phase, bytesRead⟩ := header
  cases phase with
  | tag =>
      have fresh : bytesRead = 0 := sound
      rw [fresh]
      exact Nat.zero_le _
  | length tag =>
      have single : bytesRead = 1 := sound
      rw [single]
      exact Nat.le_add_right 1 _
  | longLength tag remaining length =>
      obtain ⟨count, read, _, lacking, short⟩ := sound
      dsimp only at read ⊢
      omega

/-! ### One octet -/

/-- An octet is counted, whether it is refused for a fault of the encoding, leaves the header
waiting or announces an element of which nothing has been read. -/
theorem push_cases (octet : UInt8) (header : Header) :
    (∃ corruption, push octet header
        = .error (.corrupt corruption) { header with bytesRead := header.bytesRead + 1 })
      ∨ (∃ phase, push octet header = .ok none { phase, bytesRead := header.bytesRead + 1 })
      ∨ ∃ tag length, push octet header
        = .ok (some { tag, length, headerLength := header.bytesRead + 1 }) {} := by
  obtain ⟨phase, bytesRead⟩ := header
  cases phase with
  | tag =>
      cases checked : checkTag octet with
      | error error =>
          obtain ⟨corruption, rfl⟩ := checkTag_corrupt checked
          exact .inl ⟨corruption, by simp only [push, checked]⟩
      | ok => exact .inr (.inl ⟨.length octet, by simp only [push, checked]⟩)
  | length tag =>
      cases found : Length.form octet with
      | error error =>
          obtain ⟨corruption, rfl⟩ := Length.form_corrupt found
          exact .inl ⟨corruption, by simp only [push, found]⟩
      | ok form =>
          cases form with
          | short length =>
              exact .inr (.inr ⟨tag, length, by simp only [push, found, announce]⟩)
          | long count =>
              exact .inr (.inl ⟨.longLength tag count 0, by simp only [push, found]⟩)
  | longLength tag remaining length =>
      by_cases last : remaining = 1
      · exact .inr (.inr ⟨tag, _, if_pos last⟩)
      · exact .inr (.inl ⟨_, if_neg last⟩)

section

variable {octet : UInt8} {header after : Header}

/-- A refused octet is counted, and what is wrong with it is the encoding. -/
theorem refused_of_push {error : CodecError} (refused : push octet header = .error error after) :
    (∃ corruption, error = .corrupt corruption) ∧ after.bytesRead = header.bytesRead + 1 := by
  rcases push_cases octet header with ⟨corruption, pushed⟩ | ⟨_, pushed⟩ | ⟨_, _, pushed⟩
  · cases pushed.symm.trans refused
    exact ⟨⟨corruption, rfl⟩, rfl⟩
  · cases pushed.symm.trans refused
  · cases pushed.symm.trans refused

theorem bytesRead_of_push (waits : push octet header = .ok none after) :
    after.bytesRead = header.bytesRead + 1 := by
  rcases push_cases octet header with ⟨_, pushed⟩ | ⟨_, pushed⟩ | ⟨_, _, pushed⟩
  · cases pushed.symm.trans waits
  · cases pushed.symm.trans waits
    rfl
  · cases pushed.symm.trans waits

/-- The last octet of a header announces an element of which nothing has been read. -/
theorem announced_of_push {tlv : Tlv} (announced : push octet header = .ok (some tlv) after) :
    after = {}
      ∧ tlv = { tag := tlv.tag, length := tlv.length, headerLength := header.bytesRead + 1 } := by
  rcases push_cases octet header with ⟨_, pushed⟩ | ⟨_, pushed⟩ | ⟨_, _, pushed⟩
  · cases pushed.symm.trans announced
  · cases pushed.symm.trans announced
  · cases pushed.symm.trans announced
    exact ⟨rfl, rfl⟩

end

/-! ### What an octet keeps -/

/-- What an octet leads to: a header that has read one octet more, or an element
whose header is complete. -/
def Advanced (bytesRead : Nat) (after : Header) : Option Tlv → Prop
  | none => after.Sound ∧ after.bytesRead = bytesRead + 1
  | some tlv => after = {} ∧ tlv.Announced ∧ tlv.headerLength = bytesRead + 1
      ∧ tlv.consumed = 0 ∧ tlv.received = []

theorem push_meets (octet : UInt8) {header : Header} (sound : header.Sound) :
    (push octet).Meets header (fun announced after => Advanced header.bytesRead after announced)
      fun error => error.isInternal = false := by
  obtain ⟨phase, bytesRead⟩ := header
  cases phase with
  | tag =>
      have fresh : bytesRead = 0 := sound
      cases checked : checkTag octet with
      | error error =>
          simp only [Step.Meets, push, checked]
          exact checkTag_fault checked
      | ok =>
          simp only [Step.Meets, push, checked, Advanced, Sound, fresh, and_self]
  | length tag =>
      have single : bytesRead = 1 := sound
      cases found : Length.form octet with
      | error error =>
          simp only [Step.Meets, push, found]
          exact Length.form_fault found
      | ok form =>
          cases form with
          | short length =>
              have small := Length.form_short found
              simp only [Step.Meets, push, found]
              refine ⟨rfl, ⟨?_, ?_⟩, rfl, rfl, rfl⟩
              · simp only [announce, Length.width_of_lt small, single]
                omega
              · exact Nat.lt_trans small (by decide)
          | long count =>
              obtain ⟨some, short⟩ := Length.form_long found
              simp only [Step.Meets, push, found]
              refine ⟨⟨0, ?_, by decide, some, by omega⟩, rfl⟩
              simp only [single]
  | longLength tag remaining length =>
      obtain ⟨count, read, small, lacking, short⟩ := sound
      have grown : 256 * length + octet.toNat < 256 ^ (count + 1) := by
        have octetSmall := octet.toNat_lt
        rw [pow_succ]
        omega
      by_cases last : remaining = 1
      · simp only [Step.Meets, push, last, if_true]
        refine ⟨rfl, ⟨?_, ?_⟩, rfl, rfl, rfl⟩
        · have narrow := Length.width_le grown
          simp only [announce] at read ⊢
          omega
        · exact Nat.lt_of_lt_of_le grown (Nat.pow_le_pow_right (by decide) (by omega))
      · simp only [Step.Meets, push, last, if_false]
        simp only at read
        exact ⟨⟨count + 1, by simp only; omega, grown, by omega, by omega⟩, rfl⟩

end Header

end LdapWire.Ber
