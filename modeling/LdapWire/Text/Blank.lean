/-!
# Blank characters

The characters with the Unicode property `White_Space`: the five ASCII control
characters from tab to carriage return, the space, the next-line character and
the spaces and separators of the later blocks.
-/

set_option autoImplicit false

namespace LdapWire.Text

/-- The code points with the property, in rising order. -/
def blankPoints : List Nat :=
  [0x09, 0x0A, 0x0B, 0x0C, 0x0D, 0x20, 0x85, 0xA0, 0x1680,
   0x2000, 0x2001, 0x2002, 0x2003, 0x2004, 0x2005, 0x2006, 0x2007, 0x2008, 0x2009, 0x200A,
   0x2028, 0x2029, 0x202F, 0x205F, 0x3000]

def isBlank (character : Char) : Bool :=
  blankPoints.contains character.toNat

end LdapWire.Text
