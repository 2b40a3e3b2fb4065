import LdapWire.Error

/-!
# Assembling a filter from its walk

`FilterBuilder` takes the nodes of a filter in the order in which a walk from the
root meets them: connectives are opened and closed, the other filters are added
whole. The latest of these stays at hand as the current leaf until a connective
is opened or closed, and may be replaced meanwhile.

The nodes lie in an arena, where a node names its children by their indices, and
the connectives that are open form a stack of indices. A node is added before its
children are, so `finish` finds the filters of a node's children ready when it
goes through the arena from the end.
-/

set_option autoImplicit false

namespace LdapWire

namespace FilterBuilder

/-- What a node of the arena holds. -/
inductive NodeKind where
  | connective (connective : Connective)
  | leaf (filter : Filter)
deriving DecidableEq

/-- A node with the indices of its children, in order. -/
structure Node where
  kind : NodeKind
  children : List Nat := []
deriving DecidableEq

/-- The node with one child more. -/
def Node.adopt (child : Nat) (node : Node) : Node :=
  { node with children := node.children ++ [child] }

end FilterBuilder

/-- A filter under construction. -/
structure FilterBuilder where
  nodes : Array FilterBuilder.Node := #[]
  /-- The open connectives, the innermost first. -/
  parents : List Nat := []
  /-- The latest node, if it is no connective. -/
  current : Option Nat := none
  root : Option Nat := none
deriving DecidableEq

namespace FilterBuilder

def isEmpty (builder : FilterBuilder) : Bool := builder.nodes.isEmpty

/-- The number of open connectives. -/
def depth (builder : FilterBuilder) : Nat := builder.parents.length

/-- The children of the node with the given index. -/
def childrenOf (builder : FilterBuilder) (index : Nat) : List Nat :=
  builder.nodes[index]?.elim [] Node.children

/-- Why there is no room for another node, if there is none: a NOT holds one
child and the tree has one root. -/
def obstacle? (builder : FilterBuilder) : Option Violation :=
  match builder.parents with
  | [] => if builder.root.isSome then some .secondRoot else none
  | parent :: _ =>
      if builder.nodes[parent]?.map Node.kind = some (.connective .not)
          ∧ builder.childrenOf parent ≠ [] then some .secondChild
      else none

/-- Adds a node below the innermost open connective, or as the root, and returns
its index. -/
def attach (kind : NodeKind) : Step FilterBuilder Nat := fun builder =>
  let index := builder.nodes.size
  match builder.obstacle? with
  | some violation => .error (.violation violation) builder
  | none =>
      match builder.parents with
      | [] =>
          .ok index { builder with nodes := builder.nodes.push { kind }, root := some index }
      | parent :: _ =>
          .ok index { builder with
            nodes := (builder.nodes.modify parent (Node.adopt index)).push { kind } }

/-- Opens a connective below the innermost one. -/
def openConnective (connective : Connective) : Step FilterBuilder Unit := do
  let index ← attach (.connective connective)
  modify fun builder => { builder with parents := index :: builder.parents, current := none }

/-- Adds a node that holds no other nodes. -/
def addLeaf (filter : Filter) : Step FilterBuilder Unit := do
  let index ← attach (.leaf filter)
  modify fun builder => { builder with current := some index }

/-- Closes the innermost connective. One that has no children is refused; it has
been taken off the stack all the same. -/
def closeConnective : Step FilterBuilder Unit := fun builder =>
  match builder.parents with
  | [] => .error (.violation .connectiveMissing) builder
  | index :: outer =>
      let closed := { builder with parents := outer }
      if builder.childrenOf index = [] then .error (.violation .childlessConnective) closed
      else .ok () { closed with current := none }

/-- The index and the filter of the current leaf. -/
def leaf? (builder : FilterBuilder) : Option (Nat × Filter) := do
  let index ← builder.current
  match (← builder.nodes[index]?).kind with
  | .leaf filter => some (index, filter)
  | .connective _ => none

/-- The node that was added last, unless a connective was opened or closed since. -/
def currentLeaf : Step FilterBuilder Filter := fun builder =>
  match builder.leaf? with
  | none => .error (.violation .filterItemMissing) builder
  | some (_, filter) => .ok filter builder

/-- Puts another filter in the place of the current leaf. -/
def replaceLeaf (filter : Filter) : Step FilterBuilder Unit := fun builder =>
  match builder.leaf? with
  | none => .error (.violation .filterItemMissing) builder
  | some (index, _) =>
      .ok () { builder with
        nodes := builder.nodes.modify index fun node => { node with kind := .leaf filter } }

/-! ## The finished tree -/

/-- The filters of nodes whose parents have not taken them yet, each at the
index of its node. -/
abbrev Slots := Array (Option Filter)

/-- Takes the filters of the given nodes. -/
def takeAll : List Nat → Step Slots (List Filter)
  | [] => pure []
  | child :: rest => do
      match (← get)[child]?.join with
      | none => throw (.violation .nodeTaken)
      | some filter =>
          modify fun slots => slots.setIfInBounds child none
          return filter :: (← takeAll rest)

/-- The filter of a node with the given children. -/
def NodeKind.toFilter : NodeKind → List Filter → Codec Filter
  | .leaf filter, _ => .ok filter
  | .connective .and, children => .ok (.and children)
  | .connective .or, children => .ok (.or children)
  | .connective .not, children =>
      match children.getLast? with
      | none => .error (.violation .childlessNot)
      | some child => .ok (.not child)

/-- Makes the filters of nodes in the order given, which must be one in which
children come before their parents. -/
def assemble : List (Node × Nat) → Step Slots Unit
  | [] => pure ()
  | (node, index) :: rest => do
      let children ← takeAll node.children
      let filter ← Step.lift (node.kind.toFilter children)
      modify fun slots => slots.setIfInBounds index (some filter)
      assemble rest

/-- The filter of the root. -/
def tree (nodes : Array Node) (root : Nat) : Codec Filter :=
  let backwards := nodes.toList.zipIdx.reverse
  match assemble backwards (Array.replicate nodes.size none) with
  | .error error _ => .error error
  | .ok () slots =>
      match slots[root]?.join with
      | none => .error (.violation .filterMissing)
      | some filter => .ok filter

/-- Hands the finished tree over and starts again. -/
def finish : Step FilterBuilder Filter := fun builder =>
  if builder.parents ≠ [] then .error (.violation .unclosedConnective) builder
  else
    match builder.root with
    | none => .error (.violation .filterMissing) builder
    | some root =>
        match tree builder.nodes root with
        | .error error => .error error {}
        | .ok filter => .ok filter {}

end FilterBuilder

end LdapWire
