import LdapWire.Ber.Tag
import LdapWire.Text.Digits
import LdapWire.Yaml.Placed

/-!
# Names and tags of nodes

A node may be named by an anchor, under which later aliases stand for it, and may
carry a tag. A tag is written in full or with a handle, a short form that
directives at the start of a document define. `Names` is what a text has defined
so far.
-/

set_option autoImplicit false

namespace LdapWire.Yaml

/-- The names that a text has defined so far. -/
structure Names where
  /-- The number of the node that each name stands for. -/
  anchors : List (String × Nat) := []
  /-- What each handle of a tag is short for. -/
  handles : List (String × String) := []
  /-- Whether the version of YAML was given. -/
  versioned : Bool := false

namespace Names

/-- The handles that need no directive. -/
def standardHandles : List (String × String) := [("!", "!"), ("!!", "tag:yaml.org,2002:")]

/-- Names the next node. Its number is that of the names so far, so a node that
takes over a name shares its number with the next node of a new name. -/
def define (names : Names) (name : String) : Nat × Names :=
  let number := names.anchors.length
  let others := names.anchors.filter (fun anchor => anchor.1 != name)
  (number, { names with anchors := (name, number) :: others })

/-- A tag that is written with a handle. -/
def expand? (names : Names) (handle suffix : String) : Option String := do
  return (← (names.handles ++ standardHandles).lookup handle) ++ suffix

end Names

namespace Property

/-- The text of some characters. -/
def textOf (spots : List Placed) : String := String.ofList (spots.map Placed.character)

/-- The longest name at the start, which may be empty, and what follows it. -/
def spanName (all : List Placed) : List Placed × List Placed := all.span Placed.isName

/-- The characters other than a gap that may follow the name of an anchor. -/
def isNameEnd (spot : Placed) : Bool :=
  ['?', ':', ',', ']', '\x7d', '%', '@', '\x60'].contains spot.character

/-- The name of an anchor or an alias. -/
def takeName? (all : List Placed) : Option (String × List Placed) :=
  let (name, rest) := spanName all
  if name.isEmpty || !(Placed.endsWord rest || rest.head?.any isNameEnd) then none
  else some (textOf name, rest)

/-! ## Tags -/

/-- The characters of which tags are made; commas and square brackets belong to
them only where the tag is written in full. -/
def isTagMark (inFull : Bool) (spot : Placed) : Bool :=
  spot.isName || ";/?:@&=+$.!~*'()".toList.contains spot.character
    || (inFull && [',', '[', ']'].contains spot.character)

/-- The octets of a tag and what follows it. An octet may be written as a percent
sign and two hexadecimal digits. -/
def takeOctets (inFull : Bool) : List Placed → Option (Bytes × List Placed)
  | [] => some ([], [])
  | ⟨'%', _, _⟩ :: high :: low :: rest => do
      let octet ← Text.Digits.number? 16 [high.character, low.character]
      let (taken, rest) ← takeOctets inFull rest
      return (UInt8.ofNat octet :: taken, rest)
  | spot :: rest =>
      if isTagMark inFull spot then do
        let (taken, rest) ← takeOctets inFull rest
        return (UInt8.ofNat spot.character.toNat :: taken, rest)
      else if spot.character == '%' then none
      else some ([], spot :: rest)

/-- The text of a tag or of a part of it, which may be empty. -/
def takeTagText (inFull : Bool) (all : List Placed) : Option (String × List Placed) := do
  let (octets, rest) ← takeOctets inFull all
  return (← String.fromUTF8? ⟨octets.toArray⟩, rest)

/-- The text of a tag or of a part of it, which is not empty. -/
def takeSomeTagText (inFull : Bool) (all : List Placed) : Option (String × List Placed) := do
  let (text, rest) ← takeTagText inFull all
  if text.isEmpty then none else return (text, rest)

/-- A tag after its exclamation mark. The mark alone is a tag as well. -/
def takeTag (names : Names) (all : List Placed) : Option (String × List Placed) := do
  if Placed.starts '<' all then
    let (tag, rest) ← takeSomeTagText true (all.drop 1)
    if Placed.starts '>' rest then return (tag, rest.drop 1) else none
  else
    let (name, rest) := spanName all
    if Placed.starts '!' rest then
      let (suffix, rest) ← takeSomeTagText false (rest.drop 1)
      return (← names.expand? ("!" ++ textOf name ++ "!") suffix, rest)
    else
      let (suffix, rest) ← takeTagText false all
      if suffix.isEmpty then return ("!", rest)
      else return (← names.expand? "!" suffix, rest)

/-- A tag and what follows it: a gap or, in flow context, a comma. -/
def takeTag? (flow : Bool) (names : Names) (all : List Placed) :
    Option (String × List Placed) := do
  let (tag, rest) ← takeTag names all
  if Placed.endsWord rest || (flow && Placed.starts ',' rest) then return (tag, rest) else none

/-! ## Directives -/

/-- One of the two numbers of a version: at most nine digits. -/
def takeVersionPart (all : List Placed) : Option (Nat × List Placed) := do
  let (digits, rest) := all.span (fun spot => spot.character.isDigit)
  if 9 < digits.length then none
  else return (← Text.Digits.number? 10 (digits.map Placed.character), rest)

/-- Takes note of the version of YAML, which is 1.1 or 1.2. -/
def takeVersion (names : Names) (all : List Placed) : Option (Names × List Placed) := do
  let (major, rest) ← takeVersionPart all
  if !Placed.starts '.' rest then none
  let (minor, rest) ← takeVersionPart (rest.drop 1)
  if names.versioned || major != 1 || (minor != 1 && minor != 2) then none
  else return ({ names with versioned := true }, rest)

/-- Takes note of a handle and of what it is short for. -/
def takeHandle (names : Names) (all : List Placed) : Option (Names × List Placed) := do
  if !Placed.starts '!' all then none
  let (name, rest) := spanName (all.drop 1)
  if !name.isEmpty && !Placed.starts '!' rest then none
  let (mark, rest) := if Placed.starts '!' rest then ("!", rest.drop 1) else ("", rest)
  let handle := "!" ++ textOf name ++ mark
  if !rest.head?.any Placed.isBlank then none
  let (meaning, rest) ← takeSomeTagText true (rest.dropWhile Placed.isBlank)
  if !Placed.endsWord rest || (names.handles.lookup handle).isSome then none
  else return ({ names with handles := (handle, meaning) :: names.handles }, rest)

/-- A directive after its percent sign: the names with what it defines, and the
next line. -/
def takeDirective (names : Names) (all : List Placed) : Option (Names × List Placed) := do
  let (name, rest) := spanName all
  if !Placed.endsWord rest then none
  let content := rest.dropWhile Placed.isBlank
  let (names, rest) ←
    match textOf name with
    | "YAML" => takeVersion names content
    | "TAG" => takeHandle names content
    | _ => none
  return (names, ← Placed.nextLine? rest)

end Property

end LdapWire.Yaml
