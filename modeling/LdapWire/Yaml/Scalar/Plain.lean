import LdapWire.Yaml.Scalar.Gap

/-!
# Plain scalars

A scalar without quotes ends before a comment, before a colon that a gap follows
and, in flow context, before a character that structures collections. A later
line belongs to it as long as it stands to the right of the block collection
around it; that line is taken as it is, whatever its first character is.
-/

set_option autoImplicit false

namespace LdapWire.Yaml

/-- A plain scalar and what follows it. -/
structure Plain where
  text : List Char
  /-- Whether lines end between its last word and what follows. -/
  crosses : Bool
  rest : List Placed

namespace Plain

/-- Whether the scalar has ended in a gap before these characters. In block
context no line may start before the column `floor`. -/
def endsAfter (flow : Bool) (floor : Nat) (gap : Gap) (spot : Placed) (rest : List Placed) :
    Bool :=
  spot.character == '#' || Placed.atMarker (spot :: rest)
    || (!flow && gap.crosses && decide (spot.column < floor))

/-- Whether the character, in a word, is the first one after the scalar. -/
def endsAt (flow : Bool) (spot : Placed) (rest : List Placed) : Bool :=
  (spot.character == ':' && Placed.endsWord rest) || (flow && spot.isFlowMark)

/-- Whether a colon in flow context touches a character that it must not touch. -/
def isStray (flow : Bool) (spot : Placed) (rest : List Placed) : Bool :=
  flow && spot.character == ':'
    && rest.head?.any (fun next => next.isFlowMark || next.character == '?')

/-- The characters up to the end of the scalar, after a gap. A tab may not
indent a line of it. -/
def take (flow : Bool) (floor : Nat) (gap : Gap) : List Placed → Option Plain
  | [] => some ⟨[], gap.crosses, []⟩
  | spot :: rest =>
      if spot.isGap then
        if spot.character == '\t' && gap.crosses && decide (spot.column < floor) then none
        else take flow floor (gap.add spot.character) rest
      else if !gap.isEmpty && endsAfter flow floor gap spot rest then
        some ⟨[], gap.crosses, spot :: rest⟩
      else if isStray flow spot rest then none
      else if endsAt flow spot rest then some ⟨[], gap.crosses, spot :: rest⟩
      else do
        let found ← take flow floor {} rest
        return { found with text := gap.text ++ spot.character :: found.text }

end Plain

end LdapWire.Yaml
