import LdapWire.Filter.Basic
import LdapWire.Text.Hex

/-!
# The string form of a filter

Every filter is written in parentheses. In values, the characters that have a
meaning of their own and all octets outside printable ASCII are written as a
backslash and two hexadecimal digits, so a value never closes a parenthesis and
never adds an asterisk.
-/

set_option autoImplicit false

namespace LdapWire

namespace Filter.Text

/-- Whether an octet stands for itself in a value. -/
def isPlain (octet : UInt8) : Bool :=
  0x20 ≤ octet && octet ≤ 0x7E && !("*()\\".toList.contains (Char.ofNat octet.toNat))

/-- One octet of a value. -/
def octet (octet : UInt8) : List Char :=
  if isPlain octet then [Char.ofNat octet.toNat] else '\\' :: LdapWire.Text.Hex.byte octet

def value (content : Bytes) : List Char := content.flatMap octet

/-- The sign between an attribute and the value that it is compared to. -/
def sign : Comparison → List Char
  | .equality => ['=']
  | .greaterOrEqual => ['>', '=']
  | .lessOrEqual => ['<', '=']
  | .approx => ['~', '=']

def assertion (comparison : Comparison) (assertion : Assertion) : List Char :=
  '(' :: assertion.description.toList ++ sign comparison ++ value assertion.value ++ [')']

/-- An asterisk stands for the unknown text between two parts of a pattern and
at either end. -/
def substrings (pattern : Substrings) : List Char :=
  '(' :: pattern.description.toList ++ '=' :: (pattern.initial.elim [] value)
    ++ '*' :: pattern.any.flatMap (fun part => value part ++ ['*'])
    ++ pattern.final.elim [] value ++ [')']

def extensible (condition : ExtensibleMatch) : List Char :=
  '(' :: condition.description.elim [] String.toList
    ++ (if condition.dnAttributes then ":dn".toList else [])
    ++ condition.rule.elim [] (fun rule => ':' :: rule.toList)
    ++ ':' :: '=' :: value condition.value ++ [')']

end Filter.Text

namespace Filter

mutual

/-- The characters of the string form. -/
def toChars : Filter → List Char
  | .and children => '(' :: '&' :: toCharsAll children ++ [')']
  | .or children => '(' :: '|' :: toCharsAll children ++ [')']
  | .not child => '(' :: '!' :: toChars child ++ [')']
  | .compare comparison assertion => Text.assertion comparison assertion
  | .substrings pattern => Text.substrings pattern
  | .present description => '(' :: description.toList ++ ['=', '*', ')']
  | .extensible condition => Text.extensible condition

/-- The string forms of several filters, one after another. -/
def toCharsAll : List Filter → List Char
  | [] => []
  | filter :: rest => toChars filter ++ toCharsAll rest

end

/-- The string form. -/
def toText (filter : Filter) : String := String.ofList filter.toChars

end Filter

end LdapWire
