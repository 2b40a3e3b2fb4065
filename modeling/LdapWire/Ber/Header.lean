import LdapWire.Ber.Length
import LdapWire.Ber.Tlv

/-!
# Headers, octet by octet

`Header` reads the identifier and the length of an element from octets that
arrive one at a time. A finished header starts over; one that has failed has
counted the octet that it refused and waits in the same phase.
-/

set_option autoImplicit false

namespace LdapWire.Ber

/-- What a header under way waits for. -/
inductive Header.Phase where
  | tag
  | length (tag : UInt8)
  /-- Some octets of a length in the long form have been read. -/
  | longLength (tag : UInt8) (remaining length : Nat)
deriving DecidableEq

/-- A header of which some octets have been read. -/
structure Header where
  phase : Header.Phase := .tag
  /-- The number of octets read, a refused one included. -/
  bytesRead : Nat := 0
deriving DecidableEq

namespace Header

/-- Whether no octet of the next header has been read. -/
def isIdle (header : Header) : Bool := header.bytesRead == 0

/-- The element that a header announces. -/
def announce (header : Header) (tag : UInt8) (length : Nat) : Tlv :=
  { tag, length, headerLength := header.bytesRead }

/-- Takes one octet. The element is returned once its tag and its length are
both known. -/
def push (octet : UInt8) : Step Header (Option Tlv) := fun header =>
  let counted := { header with bytesRead := header.bytesRead + 1 }
  match header.phase with
  | .tag =>
      match checkTag octet with
      | .error error => .error error counted
      | .ok () => .ok none { counted with phase := .length octet }
  | .length tag =>
      match Length.form octet with
      | .error error => .error error counted
      | .ok (.short length) => .ok (some (counted.announce tag length)) {}
      | .ok (.long count) => .ok none { counted with phase := .longLength tag count 0 }
  | .longLength tag remaining length =>
      let length := 256 * length + octet.toNat
      if remaining = 1 then .ok (some (counted.announce tag length)) {}
      else .ok none { counted with phase := .longLength tag (remaining - 1) length }

end Header

end LdapWire.Ber
