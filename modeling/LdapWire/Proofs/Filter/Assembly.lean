import LdapWire.Proofs.Filter.Sketch

/-!
# Filters in an arena

`Filter.nodes` lays a filter out as the nodes of an arena, each before those of
its children. These are the nodes of the sketch in which every connective of the
filter is taken apart (`Filter.nodes_sketch`), so what holds of the arena of a
sketch holds of theirs.
-/

set_option autoImplicit false

namespace LdapWire

open FilterBuilder (Node NodeKind)

namespace Filter

/-! ## Layout of an arena -/

/-- What the node of a filter holds. -/
def nodeKind : Filter → NodeKind
  | .and _ => .connective .and
  | .or _ => .connective .or
  | .not _ => .connective .not
  | .compare comparison assertion => .leaf (.compare comparison assertion)
  | .substrings pattern => .leaf (.substrings pattern)
  | .present description => .leaf (.present description)
  | .extensible condition => .leaf (.extensible condition)

/-- The filters inside a filter, in order. -/
def children : Filter → List Filter
  | .and children | .or children => children
  | .not child => [child]
  | .compare .. | .substrings _ | .present _ | .extensible _ => []

mutual

/-- The number of nodes of a filter. -/
def count : Filter → Nat
  | .and children | .or children => countAll children + 1
  | .not child => count child + 1
  | .compare .. | .substrings _ | .present _ | .extensible _ => 1

def countAll : List Filter → Nat
  | [] => 0
  | filter :: rest => count filter + countAll rest

end

/-- Where filters start that lie one after another. -/
def starts (start : Nat) : List Filter → List Nat
  | [] => []
  | filter :: rest => start :: starts (start + filter.count) rest

mutual

/-- The nodes of a filter in an arena, from a given index on. -/
def nodes (start : Nat) : Filter → List Node
  | .and children =>
      ⟨.connective .and, starts (start + 1) children⟩ :: nodesAll (start + 1) children
  | .or children =>
      ⟨.connective .or, starts (start + 1) children⟩ :: nodesAll (start + 1) children
  | .not child => ⟨.connective .not, [start + 1]⟩ :: nodes (start + 1) child
  | .compare comparison assertion => [⟨.leaf (.compare comparison assertion), []⟩]
  | .substrings pattern => [⟨.leaf (.substrings pattern), []⟩]
  | .present description => [⟨.leaf (.present description), []⟩]
  | .extensible condition => [⟨.leaf (.extensible condition), []⟩]

/-- The nodes of filters that lie one after another. -/
def nodesAll (start : Nat) : List Filter → List Node
  | [] => []
  | filter :: rest => nodes start filter ++ nodesAll (start + filter.count) rest

end

/-! ## The layout of the sketch -/

mutual

theorem count_sketch : ∀ filter : Filter, filter.sketch.count = filter.count
  | .and children | .or children => by
      rw [sketch, Sketch.count, count, countAll_sketchAll]
  | .not child => by
      rw [sketch, Sketch.count, Sketch.countAll, Sketch.countAll, count, count_sketch child]
  | .compare .. | .substrings _ | .present _ | .extensible _ => rfl

theorem countAll_sketchAll :
    ∀ filters : List Filter, Sketch.countAll (sketchAll filters) = countAll filters
  | [] => rfl
  | filter :: rest => by
      rw [sketchAll, Sketch.countAll, countAll, count_sketch filter, countAll_sketchAll rest]

end

theorem starts_sketchAll (start : Nat) (filters : List Filter) :
    Sketch.starts start (sketchAll filters) = starts start filters := by
  induction filters generalizing start with
  | nil => rfl
  | cons filter rest further => rw [sketchAll, Sketch.starts, starts, count_sketch, further]

mutual

theorem nodes_sketch (start : Nat) :
    ∀ filter : Filter, filter.sketch.nodes start = filter.nodes start
  | .and children | .or children => by
      rw [sketch, Sketch.nodes, nodes, starts_sketchAll, nodesAll_sketchAll]
  | .not child => by
      rw [sketch, Sketch.nodes, nodes, Sketch.nodesAll, nodes_sketch _ child, Sketch.nodesAll,
        List.append_nil]
      rfl
  | .compare .. | .substrings _ | .present _ | .extensible _ => rfl

theorem nodesAll_sketchAll (start : Nat) :
    ∀ filters : List Filter,
      Sketch.nodesAll start (sketchAll filters) = nodesAll start filters
  | [] => rfl
  | filter :: rest => by
      rw [sketchAll, Sketch.nodesAll, nodesAll, nodes_sketch _ filter, count_sketch,
        nodesAll_sketchAll _ rest]

end

theorem sketchAll_append (front back : List Filter) :
    sketchAll (front ++ back) = sketchAll front ++ sketchAll back := by
  induction front with
  | nil => rfl
  | cons filter rest further =>
      rw [List.cons_append, sketchAll, sketchAll, further, List.cons_append]

theorem sketch_of_leaf {filter : Filter} (leaf : filter.nodeKind = .leaf filter) :
    filter.sketch = .leaf filter := by
  cases filter <;> first | rfl | cases leaf

theorem sketch_of_connective {filter : Filter} {connective : Connective}
    (kind : filter.nodeKind = .connective connective) :
    filter.sketch = .branch connective (sketchAll filter.children) := by
  cases filter <;> cases kind <;> rfl

end Filter

end LdapWire
