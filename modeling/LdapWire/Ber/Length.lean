import LdapWire.Ber.Integer

/-!
# Identifiers and lengths

The two parts of an element's header as single values. A length below 128 is one
octet; a longer one is announced by an octet that counts the octets of the
length. The indefinite form, the reserved first octet and lengths of more than
four octets are refused, and so are identifiers that continue in a second octet.
-/

set_option autoImplicit false

namespace LdapWire.Ber

/-- Accepts the identifiers that consist of a single octet. -/
def checkTag (tag : UInt8) : Codec Unit :=
  if tag &&& 0x1F = 0x1F then .error (.corrupt (.multiByteTag tag)) else .ok ()

/-- What the first octet of a length tells. -/
inductive LengthForm where
  /-- The length itself. -/
  | short (length : Nat)
  /-- How many octets spell the length. -/
  | long (count : Nat)
deriving DecidableEq

namespace Length

/-- The largest accepted number of octets that spell a length. -/
def maxOctets : Nat := 4

/-- The number of octets that spell a length in the long form. -/
def octetCount (length : Nat) : Nat := (Integer.bitLength length + 7) / 8

/-- The number of octets that a length takes. -/
def width (length : Nat) : Nat :=
  if length < 0x80 then 1 else 1 + octetCount length

/-- The first octet of the long form. -/
def longMarker (length : Nat) : UInt8 := UInt8.ofNat (0x80 + octetCount length)

/-- The octets that spell a length in the long form. -/
def longOctets (length : Nat) : Bytes := Integer.octets (octetCount length) length

/-- The shortest form of a length. -/
def bytes (length : Nat) : Bytes :=
  if length < 0x80 then [UInt8.ofNat length] else longMarker length :: longOctets length

theorem length_bytes (length : Nat) : (bytes length).length = width length := by
  unfold bytes width
  split
  · rfl
  · rw [List.length_cons, longOctets, Integer.length_octets, Nat.add_comm]

/-- Interprets the first octet of a length. -/
def form (first : UInt8) : Codec LengthForm :=
  if first < 0x80 then .ok (.short first.toNat)
  else if first = 0x80 then .error (.corrupt .indefiniteLength)
  else if first = 0xFF then .error (.corrupt .reservedLength)
  else
    let count := first.toNat - 0x80
    if maxOctets < count then .error (.corrupt (.oversizedLength count)) else .ok (.long count)

end Length

end LdapWire.Ber
