import LdapWire.Yaml.Property
import LdapWire.Yaml.Scalar.Block
import LdapWire.Yaml.Scalar.Plain
import LdapWire.Yaml.Scalar.Quoted

/-!
# Tokens of a YAML text

`Token.scan` cuts a text into tokens. Block collections have no signs of their
own: they begin and end where columns change, and a key is known as one only when
the colon after it is found. So `Layout`, what is known between two tokens, holds
the columns of the open block collections and the place where a key may have
begun, and the tokens for them are put in there afterwards.
-/

set_option autoImplicit false

namespace LdapWire.Yaml

/-- A part of a text, in the order in which a document is built from them. -/
inductive Token where
  | scalar (style : Style) (text : String)
  /-- The node of the given number once more. -/
  | alias (number : Nat)
  /-- Gives a number to the node that follows. -/
  | anchor (number : Nat)
  | tag (name : String)
  | directive
  | documentStart
  | documentEnd
  | openMap
  | closeMap
  | openList
  | closeList
  | comma
  /-- The start of a block mapping. -/
  | blockMap
  /-- The start of a block sequence. -/
  | blockList
  /-- The end of a block collection. -/
  | blockEnd
  | key
  | value
  | dash
deriving DecidableEq

/-- A place where a key may have begun. -/
structure Candidate where
  /-- The number of tokens before it. -/
  index : Nat
  line : Nat
  column : Nat
  /-- Whether nothing but a key may begin there. -/
  required : Bool
deriving DecidableEq

/-- What is known between two tokens. -/
structure Layout where
  /-- The tokens so far, the latest first. -/
  tokens : List Token := []
  /-- The number of tokens so far. -/
  count : Nat := 0
  /-- The columns of the open block collections, the innermost first. -/
  indents : List Nat := []
  /-- Where a key may have begun in the innermost flow collection, or outside all
  of them. -/
  candidate : Option Candidate := none
  /-- The same for the levels around it, one for each open flow collection. -/
  around : List (Option Candidate) := []
  /-- Whether a key may begin with the next token. -/
  keyAllowed : Bool := true
  names : Names := {}

/-- The longest distance between the start of a key and the colon after it. -/
def Candidate.reach : Nat := 1024

/-- Whether a key that began there would have to have ended before a place. -/
def Candidate.isStale (candidate : Candidate) (spot : Placed) : Bool :=
  decide (candidate.line < spot.line)
    || decide (candidate.column + Candidate.reach < spot.column)

namespace Layout

/-- Whether a flow collection is open. -/
def inFlow (layout : Layout) : Bool := !layout.around.isEmpty

/-- The first column in which a line of the innermost block collection's content
may start. -/
def floor (layout : Layout) : Nat :=
  match layout.indents with
  | [] => 0
  | column :: _ => column + 1

def emit (layout : Layout) (token : Token) : Layout :=
  { layout with tokens := token :: layout.tokens, count := layout.count + 1 }

/-! ## Block collections -/

/-- Ends some of the open block collections, the innermost first. Inside a flow
collection columns mean nothing. -/
def close (layout : Layout) (number : Nat) : Layout :=
  if layout.inFlow then layout
  else
    { layout with
      tokens := List.replicate number .blockEnd ++ layout.tokens
      count := layout.count + number
      indents := layout.indents.drop number }

/-- Ends the block collections that stand to the right of a column. -/
def closeTo (layout : Layout) (column : Nat) : Layout :=
  layout.close (layout.indents.takeWhile (fun indent => decide (column < indent))).length

def closeAll (layout : Layout) : Layout := layout.close layout.indents.length

/-- Whether a block collection begins with an entry in a column. -/
def opensAt (layout : Layout) (column : Nat) : Bool :=
  !layout.inFlow && decide (layout.floor ≤ column)

/-- An entry in a column, which begins a block collection if the column is to the
right of the one before. -/
def indentTo (layout : Layout) (column : Nat) (start : Token) : Layout :=
  if layout.opensAt column then
    { layout.emit start with indents := column :: layout.indents }
  else layout

/-! ## Keys -/

/-- Gives up the place where a key may have begun. -/
def dropCandidate (layout : Layout) : Option Layout :=
  if layout.candidate.any Candidate.required then none
  else some { layout with candidate := none }

/-- Gives up the place where a key may have begun, if the key would have to have
ended before the given place. -/
def dropStale (layout : Layout) (spot : Placed) : Option Layout :=
  if layout.candidate.any (fun found => found.isStale spot) then layout.dropCandidate
  else some layout

/-- Takes note of a token that may begin a key. In the column of the innermost
block collection nothing else may begin. -/
def markCandidate (layout : Layout) (spot : Placed) : Option Layout := do
  if !layout.keyAllowed then return layout
  let layout ← layout.dropCandidate
  return { layout with
    candidate := some {
      index := layout.count
      line := spot.line
      column := spot.column
      required := !layout.inFlow && layout.indents.head? == some spot.column } }

/-- Puts tokens, the latest first, in front of those from an index on. -/
def insertAt (layout : Layout) (index : Nat) (tokens : List Token) : Layout :=
  let (after, before) := layout.tokens.splitAt (layout.count - index)
  { layout with tokens := after ++ tokens ++ before, count := layout.count + tokens.length }

/-- A sign of an entry outside flow collections may stand only where a key may
begin. -/
def startEntry (layout : Layout) (column : Nat) (start : Token) : Option Layout :=
  if layout.inFlow then some layout
  else if layout.keyAllowed then some (layout.indentTo column start)
  else none

/-! ## One token -/

/-- Adds a token that may begin a key. -/
def addNode (layout : Layout) (spot : Placed) (token : Token) : Option Layout := do
  return { (← layout.markCandidate spot).emit token with keyAllowed := false }

/-- Adds the start of a flow collection. -/
def openFlow (layout : Layout) (spot : Placed) (token : Token) : Option Layout := do
  let layout ← layout.markCandidate spot
  return { layout.emit token with
    candidate := none
    around := layout.candidate :: layout.around
    keyAllowed := true }

/-- Adds the end of a flow collection. -/
def closeFlow (layout : Layout) (token : Token) : Option Layout := do
  let layout ← layout.dropCandidate
  return { layout.emit token with
    candidate := layout.around.head?.join
    around := layout.around.tail
    keyAllowed := false }

/-- Adds a comma. -/
def addComma (layout : Layout) : Option Layout := do
  return { (← layout.dropCandidate).emit .comma with keyAllowed := true }

/-- Adds the dash before an item of a block sequence. -/
def addDash (layout : Layout) (spot : Placed) : Option Layout := do
  let layout ← layout.startEntry spot.column .blockList
  return { (← layout.dropCandidate).emit .dash with keyAllowed := true }

/-- Adds the sign of a key. -/
def addKey (layout : Layout) (spot : Placed) : Option Layout := do
  let layout ← layout.startEntry spot.column .blockMap
  return { (← layout.dropCandidate).emit .key with keyAllowed := !layout.inFlow }

/-- Adds the colon before a value. If a key may have begun before it, it did. -/
def addValue (layout : Layout) (spot : Placed) : Option Layout :=
  match layout.candidate with
  | some found =>
      let starts := layout.opensAt found.column
      let layout :=
        layout.insertAt found.index (if starts then [.key, .blockMap] else [.key])
      some { layout.emit .value with
        indents := if starts then found.column :: layout.indents else layout.indents
        candidate := none
        keyAllowed := false }
  | none => do
      let layout ← layout.startEntry spot.column .blockMap
      return { layout.emit .value with keyAllowed := !layout.inFlow }

/-- Adds the mark of a document's start or end, or a directive. -/
def addMark (layout : Layout) (token : Token) : Option Layout := do
  return { (← layout.closeAll.dropCandidate).emit token with keyAllowed := false }

/-- A scalar without quotes begins with a character that has no other meaning. -/
def startsPlain (layout : Layout) (spot : Placed) (rest : List Placed) : Bool :=
  if spot.character == '?' || spot.character == ':' then
    !layout.inFlow && !Placed.endsWord rest
  else
    spot.character == '-'
      || !(spot.isGap || spot.isFlowMark || "#&*!|>'\"%@\x60".toList.contains spot.character)

/-- Adds a scalar without quotes. -/
def addPlain (layout : Layout) (spot : Placed) (rest : List Placed) :
    Option (Layout × List Placed) := do
  let found ← Plain.take layout.inFlow layout.floor {} (spot :: rest)
  let layout ← layout.addNode spot (.scalar .plain (String.ofList found.text))
  return ({ layout with keyAllowed := found.crosses }, found.rest)

/-- Adds a literal or folded scalar, after which a line starts. -/
def addBlock (layout : Layout) (style : Style) (rest : List Placed) :
    Option (Layout × List Placed) := do
  let (text, rest) ← Block.take style layout.floor rest
  let layout := (← layout.dropCandidate).emit (.scalar style (String.ofList text))
  return ({ layout with keyAllowed := true }, rest)

/-- Adds a quoted scalar. -/
def addQuoted (layout : Layout) (spot : Placed) (rest : List Placed) :
    Option (Layout × List Placed) := do
  let (text, rest) ←
    if spot.character == '"' then Quoted.takeDouble {} rest else Quoted.takeSingle {} rest
  return (← layout.addNode spot (.scalar .quoted (String.ofList text)), rest)

/-- Adds an anchor, an alias or a tag. -/
def addProperty (layout : Layout) (spot : Placed) (rest : List Placed) :
    Option (Layout × List Placed) := do
  if spot.character == '!' then
    let (tag, rest) ← Property.takeTag? layout.inFlow layout.names rest
    return (← layout.addNode spot (.tag tag), rest)
  else
    let (name, rest) ← Property.takeName? rest
    if spot.character == '*' then
      let number ← layout.names.anchors.lookup name
      return (← layout.addNode spot (.alias number), rest)
    else
      let (number, names) := layout.names.define name
      return (← { layout with names }.addNode spot (.anchor number), rest)

/-- Adds the token that begins at a place to the layout there. -/
def addToken (layout : Layout) (spot : Placed) (rest : List Placed) :
    Option (Layout × List Placed) := do
  let all := spot :: rest
  if spot.column = 0 ∧ spot.character = '%' then
    let (names, rest) ← Property.takeDirective layout.names rest
    return (← { layout with names }.addMark .directive, rest)
  else if Placed.isMarker '-' all then return (← layout.addMark .documentStart, all.drop 3)
  else if Placed.isMarker '.' all then return (← layout.addMark .documentEnd, all.drop 3)
  else if spot.character = '-' ∧ Placed.endsWord rest then
    return (← layout.addDash spot, rest)
  else if spot.character = '?' ∧ (layout.inFlow ∨ Placed.endsWord rest) then
    return (← layout.addKey spot, rest)
  else if spot.character = ':' ∧ (layout.inFlow ∨ Placed.endsWord rest) then
    return (← layout.addValue spot, rest)
  else if layout.startsPlain spot rest then layout.addPlain spot rest
  else
    match spot.character with
    | '[' => return (← layout.openFlow spot .openList, rest)
    | '\x7b' => return (← layout.openFlow spot .openMap, rest)
    | ']' => return (← layout.closeFlow .closeList, rest)
    | '\x7d' => return (← layout.closeFlow .closeMap, rest)
    | ',' => return (← layout.addComma, rest)
    | '*' | '&' | '!' => layout.addProperty spot rest
    | '\'' | '"' => layout.addQuoted spot rest
    | '|' => if layout.inFlow then none else layout.addBlock .literal rest
    | '>' => if layout.inFlow then none else layout.addBlock .folded rest
    | _ => none

/-! ## All tokens -/

/-- Passes over blanks, line ends and comments; the flags tell whether a flow
collection is open, whether a key may begin, and whether a comment has begun. A
new line outside flow collections allows a key, and where a key may begin a tab
does not count as a blank. -/
def skipGap (flow keyAllowed comment : Bool) : List Placed → Bool × List Placed
  | [] => (keyAllowed, [])
  | spot :: rest =>
      if spot.character == '\n' then skipGap flow (keyAllowed || !flow) false rest
      else if comment || spot.character == ' ' then skipGap flow keyAllowed comment rest
      else if spot.character == '\t' && (flow || !keyAllowed) then
        skipGap flow keyAllowed comment rest
      else if spot.character == '#' then skipGap flow keyAllowed true rest
      else (keyAllowed, spot :: rest)

/-- Adds the tokens from a place on. Every round takes at least one character, so
the number of characters bounds the rounds. -/
def addTokens : (rounds : Nat) → Layout → List Placed → Option Layout
  | 0, _, _ => none
  | rounds + 1, layout, all => do
      let (keyAllowed, rest) := skipGap layout.inFlow layout.keyAllowed false all
      match rest with
      | [] => layout.closeAll.dropCandidate
      | spot :: rest =>
          let layout ← { layout with keyAllowed }.dropStale spot
          let (layout, rest) ← (layout.closeTo spot.column).addToken spot rest
          addTokens rounds layout rest

end Layout

/-- Cuts a text into tokens. -/
def Token.scan (text : String) : Option (List Token) := do
  let spots ← Placed.ofText text
  let layout ← Layout.addTokens (spots.length + 1) {} spots
  return layout.tokens.reverse

end LdapWire.Yaml
