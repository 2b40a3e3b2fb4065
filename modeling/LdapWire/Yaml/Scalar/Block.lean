import LdapWire.Yaml.Scalar.Gap

/-!
# Block scalars

A literal or folded scalar: a header line and the indented lines after it. The
header may tell the indentation and what becomes of the line ends at the scalar's
end (`Chomping`); without an indentation there, the lines before the first one
with content tell it. In a folded scalar a line end between two lines that do not
start with a blank becomes a blank (`Block.join`).
-/

set_option autoImplicit false

namespace LdapWire.Yaml

/-- What becomes of the line ends at the end of a block scalar: none, one or all
of them are kept. -/
inductive Chomping where
  | strip
  | clip
  | keep
deriving DecidableEq

namespace Block

/-- The sign for the chomping, if there is one. -/
def takeChomping : List Placed → Chomping × List Placed
  | ⟨'+', _, _⟩ :: rest => (.keep, rest)
  | ⟨'-', _, _⟩ :: rest => (.strip, rest)
  | all => (.clip, all)

/-- The digit for the indentation, which is not zero; without one, zero. -/
def takeIncrement : List Placed → Option (Nat × List Placed)
  | [] => some (0, [])
  | spot :: rest =>
      if spot.character == '0' then none
      else if spot.character.isDigit then some (spot.character.toNat - '0'.toNat, rest)
      else some (0, spot :: rest)

/-- The header of a block scalar and the lines after it. -/
def takeHeader (all : List Placed) : Option (Chomping × Nat × List Placed) := do
  let (before, rest) := takeChomping all
  let (increment, rest) ← takeIncrement rest
  let (chomping, rest) := if before = .clip then takeChomping rest else (before, rest)
  return (chomping, increment, ← Placed.nextLine? rest)

/-- The indentation that the first lines tell: that of the line with content or
of an emptier line before it, if that is wider. A tab may not be part of it. -/
def detect? (floor : Nat) (all : List Placed) : Option Nat :=
  let rest := all.dropWhile (fun spot => spot.character == ' ' || spot.character == '\n')
  if Placed.starts '\t' rest then none
  else
    let blank := (all.take (all.length - rest.length)).filter (fun spot => spot.character == '\n')
    some ((blank ++ rest.take 1).foldl (fun widest spot => max widest spot.column) (max floor 1))

/-- The lines of the scalar, without their indentation and with their line ends,
and what follows them. Only a line without content may be indented less. -/
def takeLines (indent : Nat) : List (List Placed) → Option (List (List Char) × List Placed)
  | [] => some ([], [])
  | line :: lines =>
      match line.dropWhile (fun spot => spot.character == ' ' && decide (spot.column < indent)) with
      | [] => some ([], [])
      | spot :: rest =>
          if spot.character == '\n' then do
            let (found, after) ← takeLines indent lines
            return (['\n'] :: found, after)
          else if indent ≤ spot.column then do
            let (found, after) ← takeLines indent lines
            return ((spot :: rest).map Placed.character :: found, after)
          else if spot.character == '\t' then none
          else some ([], line ++ lines.flatten)

/-- Whether a line may be folded into its neighbour. -/
def isFoldable (line : List Char) : Bool :=
  line.head?.all (fun character => character != ' ' && character != '\t')

/-- The text of the lines after a previous one with content, where `breaks` line
ends stand between; the previous one is empty at the start. -/
def join (style : Style) (chomping : Chomping) (previous : List Char) (breaks : Nat) :
    List (List Char) → List Char
  | [] =>
      match chomping with
      | .strip => []
      | .clip => if previous.isEmpty then [] else List.replicate (min 1 breaks) '\n'
      | .keep => List.replicate breaks '\n'
  | line :: lines =>
      if line == ['\n'] then join style chomping previous (breaks + 1) lines
      else
        let content := line.filter (fun character => character != '\n')
        let folds := style == .folded && !previous.isEmpty && isFoldable previous
          && isFoldable content
        (if folds then foldBreaks breaks else List.replicate breaks '\n') ++ content
          ++ join style chomping content (line.length - content.length) lines

/-- The text of a block scalar after the sign of its style, and what follows it.
No line of its content may start before the column `floor`. -/
def take (style : Style) (floor : Nat) (all : List Placed) :
    Option (List Char × List Placed) := do
  let (chomping, increment, rest) ← takeHeader all
  let indent ← if increment = 0 then detect? floor rest else some (floor - 1 + increment)
  let (lines, rest) ← takeLines indent (rest.splitBy (fun spot next => spot.line == next.line))
  return (join style chomping [] 0 lines, rest)

end Block

end LdapWire.Yaml
