import LdapWire.Yaml.Placed

/-!
# Gaps between the words of a scalar

A plain or quoted scalar may go over several lines. What stands between two of
its words is a `Gap`. Blanks on one line are kept; where lines end in it, one
line end becomes a blank and of more the first is dropped (`Gap.text`).
-/

set_option autoImplicit false

namespace LdapWire.Yaml

/-- How a scalar is written. -/
inductive Style where
  | plain
  | quoted
  | literal
  | folded
deriving DecidableEq

/-- What stands between two words of a scalar. -/
structure Gap where
  /-- The blanks before the first line end, the latest first. -/
  blanks : List Char := []
  /-- The number of line ends. -/
  breaks : Nat := 0
  /-- Whether it follows a line end that was escaped. -/
  joined : Bool := false

/-- What a number of line ends between two words becomes. -/
def foldBreaks : Nat → List Char
  | 0 => []
  | 1 => [' ']
  | more + 2 => List.replicate (more + 1) '\n'

namespace Gap

/-- The gap with one more character. Blanks at the start of a line are dropped. -/
def add (gap : Gap) (character : Char) : Gap :=
  if character == '\n' then { gap with breaks := gap.breaks + 1 }
  else if gap.joined || gap.breaks != 0 then gap
  else { gap with blanks := character :: gap.blanks }

/-- Whether the words around the gap stand on different lines. -/
def crosses (gap : Gap) : Bool := gap.breaks != 0

/-- Whether the words around the gap touch. -/
def isEmpty (gap : Gap) : Bool := gap.blanks.isEmpty && gap.breaks == 0

/-- What the gap adds to the text. -/
def text (gap : Gap) : List Char :=
  if gap.joined then List.replicate gap.breaks '\n'
  else if gap.breaks == 0 then gap.blanks.reverse
  else foldBreaks gap.breaks

end Gap

end LdapWire.Yaml
