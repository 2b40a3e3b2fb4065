/-!
# Characters of a YAML text and their places

The nesting of block collections is told by columns, and a key ends on the line
on which it starts. So a text is read as a list of `Placed` characters, each with
its line and column. `Placed.ofText` makes that list: it refuses characters that
no text may hold and writes every line end as a single line feed.
-/

set_option autoImplicit false

namespace LdapWire.Yaml

/-- Whether a text may hold a character: control characters are refused, save
those that end a line and the tab. -/
def isAllowed (character : Char) : Bool :=
  let point := character.toNat
  [0x09, 0x0A, 0x0D, 0x85].contains point || (0x20 ≤ point && point ≤ 0x7E)
    || (0xA0 ≤ point && point != 0xFFFE && point != 0xFFFF)

/-- Whether a character ends a line by itself. -/
def isLineEnd (character : Char) : Bool :=
  [0x0A, 0x0D, 0x85, 0x2028, 0x2029].contains character.toNat

/-- Writes every line end as a single line feed. -/
def unifyLines : List Char → List Char
  | [] => []
  | '\r' :: '\n' :: rest => '\n' :: unifyLines rest
  | character :: rest => (if isLineEnd character then '\n' else character) :: unifyLines rest

/-- A character of a text with its place; both counts start at zero. -/
structure Placed where
  character : Char
  line : Nat
  column : Nat
deriving DecidableEq

namespace Placed

/-- Characters with their places, of which the first one's is given. -/
def place (line column : Nat) : List Char → List Placed
  | [] => []
  | character :: rest =>
      ⟨character, line, column⟩ ::
        (if character == '\n' then place (line + 1) 0 rest else place line (column + 1) rest)

/-- The characters of a text. The mark of the byte order at its start is not
read, but it takes a column of the first line. -/
def ofText (text : String) : Option (List Placed) :=
  if !text.toList.all isAllowed then none
  else
    match place 0 0 (unifyLines text.toList) with
    | ⟨'\ufeff', _, _⟩ :: rest => some rest
    | all => some all

/-! ## Classes of characters -/

def isBlank (spot : Placed) : Bool := spot.character == ' ' || spot.character == '\t'

/-- Whether a character may stand between two words. -/
def isGap (spot : Placed) : Bool := spot.isBlank || spot.character == '\n'

/-- The characters that structure flow collections. -/
def isFlowMark (spot : Placed) : Bool :=
  ['\x7b', '\x7d', '[', ']', ','].contains spot.character

/-- The characters of which names are made. -/
def isName (spot : Placed) : Bool :=
  spot.character.isAlphanum || spot.character == '_' || spot.character == '-'

/-! ## What comes next -/

/-- Whether nothing, or a gap, comes next. -/
def endsWord (all : List Placed) : Bool := all.head?.all isGap

/-- Whether a character comes next. -/
def starts (character : Char) (all : List Placed) : Bool :=
  all.head?.any (fun spot => spot.character == character)

/-- Whether the line starts with three times the given character and nothing else
is in that word. -/
def isMarker (character : Char) (all : List Placed) : Bool :=
  all.head?.any (fun spot => spot.column == 0)
    && (all.take 3).map Placed.character == [character, character, character]
    && endsWord (all.drop 3)

/-- Whether the mark of a document's start or end comes next. -/
def atMarker (all : List Placed) : Bool := isMarker '-' all || isMarker '.' all

/-- The next line, where only blanks and a comment are left on this one. -/
def nextLine? (all : List Placed) : Option (List Placed) :=
  let rest := all.dropWhile isBlank
  let rest :=
    if starts '#' rest then rest.dropWhile (fun spot => spot.character != '\n') else rest
  match rest with
  | [] => some []
  | ⟨'\n', _, _⟩ :: rest => some rest
  | _ => none

end Placed

end LdapWire.Yaml
