import LdapWire.Ber.Integer

/-!
# Truth values and texts

A truth value is a single octet: every octet but zero means true, and true is
written with all bits set. A text is the UTF-8 encoding of its characters.
-/

set_option autoImplicit false

namespace LdapWire.Ber

namespace Boolean

def bytes (value : Bool) : Bytes := [if value then 0xFF else 0x00]

def decode (content : Bytes) : Codec Bool :=
  match content with
  | [octet] => .ok (octet != 0)
  | _ => .error (.corrupt (.booleanSize content.length))

end Boolean

namespace Utf8

def bytes (text : String) : Bytes := text.toByteArray.data.toList

/-- Reads a text; `what` names it should its octets be no UTF-8. -/
def decode (content : Bytes) (what : String) : Codec String :=
  match String.fromUTF8? ⟨content.toArray⟩ with
  | some text => .ok text
  | none => .error (.corrupt (.notUtf8 what))

end Utf8

end LdapWire.Ber
