import LdapWire.Error

/-!
# Integers

Integers travel in two's complement, most significant octet first, in as few
octets as hold the value. `byteWidth` is that number of octets, `bytes` the
octets themselves, and `decode` reads any non-empty string of octets back,
minimal or not, up to a bound on its length.

Unsigned numbers are written by the same `octets` and read by `unsigned`.
-/

set_option autoImplicit false

namespace LdapWire.Ber.Integer

/-- The largest number of octets accepted for the integers of a message, all of
which are bounded by `2 ^ 31 - 1`. -/
def maxSize : Nat := 4

/-- The number of bits of the binary form, none for zero. -/
def bitLength (value : Nat) : Nat :=
  if value = 0 then 0 else value.log2 + 1

/-- The number of octets of the shortest two's-complement form. A negative value
needs as many bits as its complement, and one bit more tells the sign. -/
def byteWidth (value : Int) : Nat :=
  let magnitude := if value < 0 then (-value - 1).toNat else value.toNat
  bitLength magnitude / 8 + 1

/-- The lowest octets of a value in two's complement, most significant first. -/
def octets : Nat → Int → Bytes
  | 0, _ => []
  | width + 1, value => octets width (value / 256) ++ [UInt8.ofNat (value % 256).toNat]

/-- The shortest two's-complement form. -/
def bytes (value : Int) : Bytes := octets (byteWidth value) value

theorem length_octets (width : Nat) (value : Int) : (octets width value).length = width := by
  induction width generalizing value with
  | zero => rfl
  | succ width shorter => simp [octets, shorter]

theorem length_bytes (value : Int) : (bytes value).length = byteWidth value :=
  length_octets (byteWidth value) value

/-- The number that octets spell after the number already read. -/
def spell (start : Int) (content : Bytes) : Int :=
  content.foldl (fun value octet => 256 * value + octet.toNat) start

/-- The number whose base-256 digits are the octets. -/
def unsigned (content : Bytes) : Nat :=
  content.foldl (fun value octet => 256 * value + octet.toNat) 0

/-- The number whose two's-complement form the octets are: a leading octet with
its top bit set makes it negative. -/
def signed : Bytes → Int
  | [] => 0
  | first :: rest => spell (if first < 0x80 then 0 else -1) (first :: rest)

/-- Reads a two's-complement value of at least one and at most `bound` octets.
Values of more than eight octets are taken modulo `2 ^ 64`. -/
def decode (content : Bytes) (bound : Nat) : Codec Int64 :=
  if content.isEmpty then .error (.corrupt .emptyInteger)
  else if bound < content.length then
    .error (.corrupt (.oversizedInteger content.length bound))
  else .ok (Int64.ofInt (signed content))

/-- Reads an integer of a message. -/
def decodeBounded (content : Bytes) : Codec Int32 := do
  return (← decode content maxSize).toInt32

/-- Reads an enumerated value of a message. -/
def decodeEnumerated (content : Bytes) : Codec Int64 := decode content maxSize

end LdapWire.Ber.Integer
