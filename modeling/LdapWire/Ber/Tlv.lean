import LdapWire.Error

/-!
# Elements under way

`Tlv` is an element whose header is known and whose content is still arriving.
It counts the content octets that have been accounted for, and keeps those of a
primitive element.
-/

set_option autoImplicit false

namespace LdapWire.Ber

/-- An element with the content received so far. -/
structure Tlv where
  tag : UInt8
  /-- The declared length of the content. -/
  length : Nat
  /-- The number of octets of the identifier and the length. -/
  headerLength : Nat := 0
  /-- The number of content octets accounted for. -/
  consumed : Nat := 0
  /-- The content octets kept, the latest first. -/
  received : Bytes := []
deriving DecidableEq

namespace Tlv

/-- The number of content octets still to come. -/
def remaining (tlv : Tlv) : Nat := tlv.length - tlv.consumed

def isComplete (tlv : Tlv) : Bool := tlv.consumed == tlv.length

/-- The content octets kept, in the order of their arrival. -/
def value (tlv : Tlv) : Bytes := tlv.received.reverse

/-- The number of octets of the whole element. -/
def total (tlv : Tlv) : Nat := tlv.headerLength + tlv.length

/-- Accounts for content octets that are not kept. -/
def advance (tlv : Tlv) (count : Nat) : Tlv :=
  { tlv with consumed := tlv.consumed + count }

/-- Accounts for content octets, which must not be more than are still to come. -/
def consume (count : Nat) : Step Tlv Unit := fun tlv =>
  if tlv.remaining < count then .error (.truncatedInput (count - tlv.remaining)) tlv
  else .ok () (tlv.advance count)

/-- Accounts for content octets and keeps them. -/
def append (content : Bytes) : Step Tlv Unit := do
  consume content.length
  modify fun tlv => { tlv with received := content.reverseAux tlv.received }

/-- Keeps one more content octet. -/
def push (tlv : Tlv) (octet : UInt8) : Tlv :=
  { tlv.advance 1 with received := octet :: tlv.received }

theorem isComplete_iff {tlv : Tlv} : tlv.isComplete = true ↔ tlv.consumed = tlv.length :=
  beq_iff_eq

theorem isComplete_eq_false_iff {tlv : Tlv} :
    tlv.isComplete = false ↔ tlv.consumed ≠ tlv.length :=
  beq_eq_false_iff_ne

end Tlv

end LdapWire.Ber
