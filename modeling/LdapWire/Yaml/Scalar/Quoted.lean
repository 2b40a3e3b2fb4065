import LdapWire.Text.Hex
import LdapWire.Yaml.Scalar.Gap

/-!
# Quoted scalars

A scalar between single quotes, where a quote is written twice, or between
double quotes, where a backslash starts an escape. Both may go over several
lines, of which none is the mark of a document.
-/

set_option autoImplicit false

namespace LdapWire.Yaml.Quoted

/-- The characters up to the closing single quote, after a gap, and what follows
the quote. -/
def takeSingle (gap : Gap) : List Placed → Option (List Char × List Placed)
  | [] => none
  | ⟨'\'', _, _⟩ :: ⟨'\'', _, _⟩ :: rest => do
      let (taken, rest) ← takeSingle {} rest
      return (gap.text ++ '\'' :: taken, rest)
  | ⟨'\'', _, _⟩ :: rest => some (gap.text, rest)
  | spot :: rest =>
      if spot.isGap then takeSingle (gap.add spot.character) rest
      else if Placed.atMarker (spot :: rest) then none
      else do
        let (taken, rest) ← takeSingle {} rest
        return (gap.text ++ spot.character :: taken, rest)

/-- What a backslash and a letter stand for between double quotes. -/
def escaped? : Char → Option Char
  | '0' => some '\x00'
  | 'a' => some '\x07'
  | 'b' => some '\x08'
  | 't' => some '\t'
  | '\t' => some '\t'
  | 'n' => some '\n'
  | 'v' => some '\x0b'
  | 'f' => some '\x0c'
  | 'r' => some '\r'
  | 'e' => some '\x1b'
  | ' ' => some ' '
  | '"' => some '"'
  | '/' => some '/'
  | '\\' => some '\\'
  | 'N' => some '\u0085'
  | '_' => some '\u00a0'
  | 'L' => some '\u2028'
  | 'P' => some '\u2029'
  | _ => none

/-- The character whose code point hexadecimal digits spell. -/
def codePoint? (digits : List Placed) : Option Char := do
  let values ← digits.mapM (fun digit => Text.Hex.value? digit.character)
  let point := values.foldl (fun point value => 16 * point + value) 0
  if point.isValidChar then return Char.ofNat point else none

/-- The characters up to the closing double quote, after a gap, and what follows
the quote. A backslash at the end of a line joins it to the next one. -/
def takeDouble (gap : Gap) : List Placed → Option (List Char × List Placed)
  | [] => none
  | ⟨'"', _, _⟩ :: rest => some (gap.text, rest)
  | ⟨'\\', _, _⟩ :: ⟨'\n', _, _⟩ :: rest => do
      let (taken, rest) ← takeDouble { joined := true } rest
      return (gap.text ++ taken, rest)
  | ⟨'\\', _, _⟩ :: ⟨'x', _, _⟩ :: a :: b :: rest => do
      let character ← codePoint? [a, b]
      let (taken, rest) ← takeDouble {} rest
      return (gap.text ++ character :: taken, rest)
  | ⟨'\\', _, _⟩ :: ⟨'u', _, _⟩ :: a :: b :: c :: d :: rest => do
      let character ← codePoint? [a, b, c, d]
      let (taken, rest) ← takeDouble {} rest
      return (gap.text ++ character :: taken, rest)
  | ⟨'\\', _, _⟩ :: ⟨'U', _, _⟩ :: a :: b :: c :: d :: e :: f :: g :: h :: rest => do
      let character ← codePoint? [a, b, c, d, e, f, g, h]
      let (taken, rest) ← takeDouble {} rest
      return (gap.text ++ character :: taken, rest)
  | ⟨'\\', _, _⟩ :: letter :: rest => do
      let character ← escaped? letter.character
      let (taken, rest) ← takeDouble {} rest
      return (gap.text ++ character :: taken, rest)
  | spot :: rest =>
      if spot.isGap then takeDouble (gap.add spot.character) rest
      else if Placed.atMarker (spot :: rest) then none
      else do
        let (taken, rest) ← takeDouble {} rest
        return (gap.text ++ spot.character :: taken, rest)

end LdapWire.Yaml.Quoted
