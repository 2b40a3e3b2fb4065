import LdapWire.Ber.Tag

/-!
# Hexadecimal text

Two digits for each octet. `encode` writes lower-case digits, `decode?` reads
both cases and refuses a text of odd length or with another character in it.
What was written is read back (`decode?_encode`).
-/

set_option autoImplicit false

namespace LdapWire.Text.Hex

/-- The lower-case digit of a number below sixteen. -/
def digit (value : Nat) : Char :=
  if value < 10 then Char.ofNat (48 + value) else Char.ofNat (87 + value)

/-- The two lower-case digits of one octet. -/
def byte (octet : UInt8) : List Char :=
  [digit (octet.toNat / 16), digit (octet.toNat % 16)]

/-- The two upper-case digits of one octet. -/
def upperByte (octet : UInt8) : List Char :=
  (byte octet).map Char.toUpper

/-- An octet as tags are named in messages: the marker and two upper-case digits. -/
def tag (octet : UInt8) : String :=
  String.ofList ('0' :: 'x' :: upperByte octet)

def encode (bytes : Bytes) : String :=
  String.ofList (bytes.flatMap byte)

/-- The value of a hexadecimal digit of either case. -/
def value? (character : Char) : Option Nat :=
  if '0' ≤ character ∧ character ≤ '9' then some (character.toNat - 48)
  else if 'a' ≤ character ∧ character ≤ 'f' then some (character.toNat - 87)
  else if 'A' ≤ character ∧ character ≤ 'F' then some (character.toNat - 55)
  else none

/-- Reads pairs of digits up to the end of the text. -/
def decode? : List Char → Option Bytes
  | [] => some []
  | [_] => none
  | high :: low :: rest => do
      let high ← value? high
      let low ← value? low
      let bytes ← decode? rest
      return UInt8.ofNat (16 * high + low) :: bytes

theorem value?_digit : ∀ value : Nat, value < 16 → value? (digit value) = some value := by
  decide

theorem decode?_append_byte (octet : UInt8) (rest : List Char) :
    decode? (byte octet ++ rest) = (decode? rest).map (octet :: ·) := by
  have bound : octet.toNat < 256 := UInt8.toNat_lt octet
  have high := value?_digit (octet.toNat / 16) (by omega)
  have low := value?_digit (octet.toNat % 16) (by omega)
  have whole : UInt8.ofNat (16 * (octet.toNat / 16) + octet.toNat % 16) = octet := by
    rw [Nat.div_add_mod, UInt8.ofNat_toNat]
  simp only [byte, List.cons_append, List.nil_append, decode?, high, low, Option.bind_eq_bind,
    Option.bind_some, whole]
  cases decode? rest <;> rfl

/-- Octets are read back from their digits. -/
theorem decode?_encode (bytes : Bytes) : decode? (encode bytes).toList = some bytes := by
  rw [encode, String.toList_ofList]
  induction bytes with
  | nil => rfl
  | cons octet rest shorter =>
      rw [List.flatMap_cons, decode?_append_byte, shorter, Option.map_some]

end LdapWire.Text.Hex
