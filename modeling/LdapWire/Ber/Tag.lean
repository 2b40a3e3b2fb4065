/-!
# Identifier octets

The universal tags that LDAP uses and the bit that tells a constructed element
from a primitive one. Every LDAP identifier is a single octet.
-/

set_option autoImplicit false

namespace LdapWire

/-- A string of octets, in the order in which they travel. -/
abbrev Bytes := List UInt8

namespace Ber.Tag

def boolean : UInt8 := 0x01

def integer : UInt8 := 0x02

def octetString : UInt8 := 0x04

def enumerated : UInt8 := 0x0A

def sequence : UInt8 := 0x30

def set : UInt8 := 0x31

/-- The sixth bit of an identifier marks an element whose content is again a
list of elements. -/
def isConstructed (tag : UInt8) : Bool := tag &&& 0x20 != 0

end Ber.Tag

end LdapWire
