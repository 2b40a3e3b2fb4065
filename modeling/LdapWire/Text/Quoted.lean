/-!
# Quoted text

A text between double quotes, as records show it. The quote, the backslash and
the control characters of ASCII are escaped; every other character stands for
itself.
-/

set_option autoImplicit false

namespace LdapWire.Text.Quoted

/-- The escape of a control character that has no letter of its own: its code
point in hexadecimal digits. -/
def codePoint (character : Char) : List Char :=
  '\\' :: 'u' :: '\x7b' :: Nat.toDigits 16 character.toNat ++ ['\x7d']

/-- One character between the quotes. -/
def escape (character : Char) : List Char :=
  match character with
  | '"' => ['\\', '"']
  | '\\' => ['\\', '\\']
  | '\n' => ['\\', 'n']
  | '\t' => ['\\', 't']
  | '\r' => ['\\', 'r']
  | '\x00' => ['\\', '0']
  | _ =>
      if character.toNat < 0x20 ∨ (0x7F ≤ character.toNat ∧ character.toNat < 0xA0) then
        codePoint character
      else [character]

def quote (text : String) : String :=
  String.ofList ('"' :: text.toList.flatMap escape ++ ['"'])

end LdapWire.Text.Quoted
