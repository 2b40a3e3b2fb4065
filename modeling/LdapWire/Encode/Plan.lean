import LdapWire.Encode.Layout

/-!
# The length pass

`Layout.measure` finds the number of octets of every element. A `Plan` keeps the
content lengths of the constructed elements and of the control payloads, each
before those of the elements inside it, and the length of the whole.
-/

set_option autoImplicit false

namespace LdapWire

open Ber

/-- The lengths that the byte pass will need, in the order in which it needs them. -/
structure Plan where
  lengths : List Nat := []
  /-- The number of octets of the whole. -/
  total : Nat := 0
deriving DecidableEq

namespace Plan

/-- The number of octets of an element with the given content length. -/
def elementLength (content : Nat) : Nat := 1 + Length.width content + content

/-- The plan of a primitive element. -/
def leaf (content : Nat) : Plan := { total := elementLength content }

/-- The plan of an element around planned parts. -/
def around (inner : Plan) : Plan :=
  { lengths := inner.total :: inner.lengths, total := elementLength inner.total }

/-- The plan of two neighbours. -/
def append (first second : Plan) : Plan :=
  { lengths := first.lengths ++ second.lengths, total := first.total + second.total }

end Plan

namespace Layout

mutual

/-- The plan of one layout. A payload is taken at its word. -/
def measure : Layout → Codec Plan
  | .primitive _ content => .ok (.leaf content.length)
  | .constructed _ parts => do return (← measureAll parts).around
  | .payload value => .ok (Plan.around { total := value.encodedLength })
  | .refusal violation => .error (.violation violation)

/-- The plan of layouts next to each other. -/
def measureAll : List Layout → Codec Plan
  | [] => .ok {}
  | part :: rest => do
      let first ← measure part
      let second ← measureAll rest
      return first.append second

end

end Layout

/-- The plan by which a message is written. -/
def Message.plan (message : Message) : Codec Plan := message.layout.measure

end LdapWire
