import LdapWire.Text.Hex

/-!
# Numbers in digits

A number as a list of digits in a base of at most sixteen, of either case and
with nothing between them. What a number is written with in base ten is read back
(`number?_toDigits`).
-/

set_option autoImplicit false

namespace LdapWire.Text.Digits

/-- The number that digits of a base spell, of which there is at least one. -/
def number? (base : Nat) (characters : List Char) : Option Nat :=
  if characters.isEmpty then none
  else
    characters.foldlM
      (fun value character => do
        let digit ← Hex.value? character
        if digit < base then return base * value + digit else none)
      0

/-- The value of a decimal digit. -/
theorem value?_of_isDigit {character : Char} (digit : character.isDigit = true) :
    Hex.value? character = some (character.toNat - '0'.toNat)
      ∧ character.toNat - '0'.toNat < 10 := by
  obtain ⟨low, high⟩ := Char.isDigit_iff_toNat.1 digit
  have bounds : '0' ≤ character ∧ character ≤ '9' :=
    ⟨UInt32.le_iff_toNat_le.2 low, UInt32.le_iff_toNat_le.2 high⟩
  have small : character.toNat - 48 < 10 := by
    change character.toNat ≤ 57 at high
    omega
  exact ⟨if_pos bounds, small⟩

/-- Decimal digits spell the number that they are the digits of. -/
theorem number?_of_isDigit {characters : List Char} (written : characters ≠ [])
    (digits : ∀ character ∈ characters, character.isDigit = true) :
    number? 10 characters = some (Nat.ofDigitChars 10 characters 0) := by
  rw [number?, if_neg (by simpa using written)]
  generalize 0 = value
  clear written
  induction characters generalizing value with
  | nil => rfl
  | cons character rest further =>
      obtain ⟨first, others⟩ := List.forall_mem_cons.1 digits
      obtain ⟨found, small⟩ := value?_of_isDigit first
      rw [List.foldlM_cons, found, Nat.ofDigitChars_cons, ← further others]
      simp only [Option.bind_eq_bind, Option.bind_some, if_pos small]
      rfl

/-- The digits of a number are read back. -/
theorem number?_toDigits (value : Nat) : number? 10 (Nat.toDigits 10 value) = some value := by
  rw [number?_of_isDigit Nat.toDigits_ne_nil
    fun _ => Nat.isDigit_of_mem_toDigits (by decide) (Nat.le_refl 10),
    Nat.ofDigitChars_toDigits (by decide) (Nat.le_refl 10)]

/-- Only zero is written with a zero in front. -/
theorem head?_toDigits {value : Nat} (positive : 0 < value) :
    (Nat.toDigits 10 value).head? ≠ some '0' := by
  induction value using Nat.strongRecOn with
  | ind value further =>
      have single : ∀ digit < 10, 0 < digit → some digit.digitChar ≠ some '0' := by decide
      rcases Nat.lt_or_ge value 10 with small | large
      · rw [Nat.toDigits_of_lt_base small]
        exact single value small positive
      · rw [Nat.toDigits_of_base_le (by decide) large, List.head?_append,
          Option.or_of_isSome (List.isSome_head?.2 Nat.toDigits_ne_nil)]
        exact further (value / 10) (by omega) (by omega)

end LdapWire.Text.Digits
