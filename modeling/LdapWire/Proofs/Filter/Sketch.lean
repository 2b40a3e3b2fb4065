import LdapWire.Filter.Builder
import LdapWire.Proofs.Step

/-!
# Sketches of filters

What a filter builder is told of is a tree of connectives with whole filters for its
leaves. A `Sketch` is such a tree. Its leaves are the filters as they were added, which may
hold connectives of their own, and its connectives may have any children, or none.

`Sketch.nodes` lays a sketch out as the nodes of an arena, each before those of its
children. Assembling these nodes from the last to the first makes the filter of the sketch
and touches nothing but its slots, unless a NOT has no child
(`Sketch.outcome_assemble_nodes`). So the tree of an arena that holds a single sketch is
the filter of that sketch (`Sketch.tree_nodes`).

Every filter is the filter of the sketch in which all its connectives are taken apart
(`Filter.filter_sketch`). A sketch is full if its connectives have children and a NOT a single
one. Full sketches have filters (`Sketch.Full.exists_filter`), and the sketch of a filter is
full if no AND and no OR in it is without children (`Filter.Populated.full`).
-/

set_option autoImplicit false

namespace LdapWire

open FilterBuilder (Node NodeKind Slots assemble takeAll)

/-- A tree of connectives with whole filters for its leaves. -/
inductive Sketch where
  | leaf (filter : Filter)
  | branch (connective : Connective) (children : List Sketch)

namespace Sketch

/-! ## Layout of an arena -/

mutual

/-- The number of nodes of a sketch. -/
def count : Sketch → Nat
  | .leaf _ => 1
  | .branch _ children => countAll children + 1

def countAll : List Sketch → Nat
  | [] => 0
  | sketch :: rest => count sketch + countAll rest

end

/-- Where sketches start that lie one after another. -/
def starts (start : Nat) : List Sketch → List Nat
  | [] => []
  | sketch :: rest => start :: starts (start + sketch.count) rest

mutual

/-- The nodes of a sketch in an arena, from a given index on. -/
def nodes (start : Nat) : Sketch → List Node
  | .leaf filter => [⟨.leaf filter, []⟩]
  | .branch connective children =>
      ⟨.connective connective, starts (start + 1) children⟩ :: nodesAll (start + 1) children

/-- The nodes of sketches that lie one after another. -/
def nodesAll (start : Nat) : List Sketch → List Node
  | [] => []
  | sketch :: rest => nodes start sketch ++ nodesAll (start + sketch.count) rest

end

mutual

/-- The filter of a sketch, unless a NOT in it has no child. -/
def filter : Sketch → Codec Filter
  | .leaf filter => .ok filter
  | .branch connective children => do
      (NodeKind.connective connective).toFilter (← filters children)

/-- The filters of sketches, made from the last to the first. -/
def filters : List Sketch → Codec (List Filter)
  | [] => return []
  | sketch :: rest => do
      let others ← filters rest
      return (← filter sketch) :: others

end

theorem count_pos (sketch : Sketch) : 0 < sketch.count := by
  cases sketch <;> exact Nat.succ_pos _

mutual

theorem length_nodes (start : Nat) : ∀ sketch : Sketch, (sketch.nodes start).length = sketch.count
  | .leaf _ => by rw [nodes, count, List.length_singleton]
  | .branch _ children => by rw [nodes, count, List.length_cons, length_nodesAll]

theorem length_nodesAll (start : Nat) :
    ∀ sketches : List Sketch, (nodesAll start sketches).length = countAll sketches
  | [] => by rw [nodesAll, countAll, List.length_nil]
  | sketch :: rest => by
      rw [nodesAll, countAll, List.length_append, length_nodes, length_nodesAll]

end

theorem starts_eq_nil_iff {start : Nat} {sketches : List Sketch} :
    starts start sketches = [] ↔ sketches = [] := by
  cases sketches <;> simp [starts]

theorem starts_append (start : Nat) (front back : List Sketch) :
    starts start (front ++ back) = starts start front ++ starts (start + countAll front) back := by
  induction front generalizing start with
  | nil => simp [starts, countAll]
  | cons sketch rest further => simp [starts, countAll, further, Nat.add_assoc]

theorem nodesAll_append (start : Nat) (front back : List Sketch) :
    nodesAll start (front ++ back)
      = nodesAll start front ++ nodesAll (start + countAll front) back := by
  induction front generalizing start with
  | nil => simp [nodesAll, countAll]
  | cons sketch rest further => simp [nodesAll, countAll, further, Nat.add_assoc]

theorem length_starts (start : Nat) (sketches : List Sketch) :
    (starts start sketches).length = sketches.length := by
  induction sketches generalizing start with
  | nil => rfl
  | cons sketch rest further => rw [starts, List.length_cons, further, List.length_cons]

/-- Sketches start within the stretch that they take up together. -/
theorem bounds_of_mem_starts {start index : Nat} {sketches : List Sketch}
    (listed : index ∈ starts start sketches) :
    start ≤ index ∧ index < start + countAll sketches := by
  induction sketches generalizing start with
  | nil => cases listed
  | cons sketch rest further =>
      have positive := sketch.count_pos
      rw [countAll]
      rcases List.mem_cons.1 listed with rfl | later
      · omega
      · have bounds := further later
        omega

theorem nodup_starts (start : Nat) (sketches : List Sketch) : (starts start sketches).Nodup := by
  induction sketches generalizing start with
  | nil => exact List.nodup_nil
  | cons sketch rest further =>
      refine List.nodup_cons.2 ⟨fun listed => ?_, further _⟩
      have positive := sketch.count_pos
      have bounds := bounds_of_mem_starts listed
      omega

theorem exists_of_filters_cons {sketch : Sketch} {rest : List Sketch} {made : List Filter}
    (succeeded : filters (sketch :: rest) = .ok made) :
    ∃ filter others, sketch.filter = .ok filter ∧ filters rest = .ok others
      ∧ made = filter :: others := by
  rw [filters] at succeeded
  cases later : filters rest with
  | error error =>
      rw [later] at succeeded
      cases succeeded
  | ok others =>
      rw [later] at succeeded
      cases first : sketch.filter with
      | error error =>
          rw [first] at succeeded
          cases succeeded
      | ok filter =>
          rw [first] at succeeded
          cases succeeded
          exact ⟨filter, others, rfl, rfl, rfl⟩

mutual

/-- A sketch has a filter unless a NOT in it has no child. -/
theorem filter_eq_error : ∀ {sketch : Sketch} {error : CodecError},
    sketch.filter = .error error → error = .violation .childlessNot
  | .branch connective children, error, failed => by
      rw [filter] at failed
      cases parts : filters children with
      | error inner =>
          rw [parts] at failed
          cases failed
          exact filters_eq_error parts
      | ok made =>
          rw [parts] at failed
          cases connective with
          | and => cases failed
          | or => cases failed
          | not =>
              cases last : made.getLast? <;> simp only [bind, Except.bind, NodeKind.toFilter, last,
                reduceCtorEq, Except.error.injEq] at failed
              exact failed.symm

theorem filters_eq_error : ∀ {sketches : List Sketch} {error : CodecError},
    filters sketches = .error error → error = .violation .childlessNot
  | sketch :: rest, error, failed => by
      rw [filters] at failed
      cases later : filters rest with
      | error inner =>
          rw [later] at failed
          cases failed
          exact filters_eq_error later
      | ok others =>
          rw [later] at failed
          cases first : sketch.filter with
          | error inner =>
              rw [first] at failed
              cases failed
              exact filter_eq_error first
          | ok made =>
              rw [first] at failed
              cases failed

end

theorem length_filters {sketches : List Sketch} {made : List Filter}
    (succeeded : filters sketches = .ok made) : made.length = sketches.length := by
  induction sketches generalizing made with
  | nil =>
      cases succeeded
      rfl
  | cons sketch rest further =>
      obtain ⟨filter, others, _, later, rfl⟩ := exists_of_filters_cons succeeded
      rw [List.length_cons, further later, List.length_cons]

/-! ## Slots -/

/-- The slots with filters put at some indices. -/
def place : List Nat → List Filter → Slots → Slots
  | index :: indices, filter :: filters, slots =>
      (place indices filters slots).setIfInBounds index (some filter)
  | _, _, slots => slots

/-- Whether a stretch of slots is there and has nothing in it. -/
def Vacant (slots : Slots) (start count : Nat) : Prop :=
  ∀ index, start ≤ index → index < start + count → slots[index]? = some none

theorem Vacant.mono {slots : Slots} {start count within length : Nat}
    (vacant : Vacant slots start count) (above : start ≤ within)
    (below : within + length ≤ start + count) : Vacant slots within length := by
  intro index low high
  exact vacant index (Nat.le_trans above low) (Nat.lt_of_lt_of_le high below)

theorem getElem?_place {index : Nat} {indices : List Nat} {filters : List Filter} {slots : Slots}
    (elsewhere : index ∉ indices) : (place indices filters slots)[index]? = slots[index]? := by
  induction indices generalizing filters with
  | nil => rfl
  | cons first indices further =>
      cases filters with
      | nil => rfl
      | cons filter filters =>
          rw [List.mem_cons, not_or] at elsewhere
          rw [place, Array.getElem?_setIfInBounds_ne (Ne.symm elsewhere.1), further elsewhere.2]

/-- Taking the filters that were put into vacant slots leaves the slots vacant again. -/
theorem takeAll_place {indices : List Nat} {filters : List Filter} {slots : Slots}
    (distinct : indices.Nodup) (same : filters.length = indices.length)
    (vacant : ∀ index ∈ indices, slots[index]? = some none) :
    takeAll indices (place indices filters slots) = .ok filters slots := by
  induction indices generalizing filters with
  | nil =>
      rw [List.eq_nil_of_length_eq_zero same]
      rfl
  | cons index indices further =>
      cases filters with
      | nil => cases same
      | cons filter filters =>
          obtain ⟨apart, distinct⟩ := List.nodup_cons.1 distinct
          have others := further distinct (Nat.succ.inj same)
            fun other listed => vacant other (List.mem_cons_of_mem _ listed)
          have empty : (place indices filters slots)[index]? = some none := by
            rw [getElem?_place apart]
            exact vacant index List.mem_cons_self
          obtain ⟨inside, isNone⟩ := Array.getElem?_eq_some_iff.1 empty
          have present :
              ((place (index :: indices) (filter :: filters) slots)[index]?).join
                = some filter := by
            rw [place, Array.getElem?_setIfInBounds_self_of_lt inside]
            rfl
          have restored :
              (place (index :: indices) (filter :: filters) slots).setIfInBounds index none
                = place indices filters slots := by
            rw [place, Array.setIfInBounds_setIfInBounds, Array.setIfInBounds_def, dif_pos inside]
            rw [← isNone, Array.set_getElem_self]
          rw [takeAll, Step.get_bind, present]
          dsimp only
          rw [Step.modify_bind, restored, Step.bind_of_ok _ others]
          rfl

/-! ## Assembly -/

theorem assemble_append (front back : List (Node × Nat)) :
    assemble (front ++ back) = (do assemble front; assemble back) := by
  induction front with
  | nil => rfl
  | cons pair rest further =>
      obtain ⟨node, index⟩ := pair
      simp only [List.cons_append, assemble, further, bind_assoc]

/-- A node whose children are at hand is made of them. -/
theorem outcome_assemble_node {kind : NodeKind} {index : Nat} {indices : List Nat}
    {made : List Filter} {slots : Slots} (distinct : indices.Nodup)
    (same : made.length = indices.length)
    (vacant : ∀ index ∈ indices, slots[index]? = some none) :
    (assemble [(⟨kind, indices⟩, index)]).outcome (place indices made slots) = do
      let filter ← kind.toFilter made
      return ((), slots.setIfInBounds index (some filter)) := by
  have taken := takeAll_place distinct same vacant
  rw [assemble, Step.outcome, Step.bind_of_ok _ taken]
  cases kind.toFilter made <;> rfl

mutual

/-- **Assembling the nodes of a sketch** puts its filter at its root. -/
theorem outcome_assemble_nodes : ∀ (sketch : Sketch) {start : Nat} {slots : Slots},
    Vacant slots start sketch.count →
      (assemble ((sketch.nodes start).zipIdx start).reverse).outcome slots = do
        let filter ← sketch.filter
        return ((), slots.setIfInBounds start (some filter))
  | .leaf _, _, _, _ => rfl
  | .branch connective children, start, slots, vacant => by
      rw [count] at vacant
      have inside := outcome_assemble_nodesAll children
        (vacant.mono (Nat.le_succ start) (by omega))
      rw [nodes, List.zipIdx_cons, List.reverse_cons, assemble_append, Step.outcome_bind, inside,
        filter]
      cases made : filters children with
      | error error => rfl
      | ok filters =>
          refine outcome_assemble_node (nodup_starts _ _) ?_ fun index listed => ?_
          · rw [length_filters made, length_starts]
          · have bounds := bounds_of_mem_starts listed
            exact vacant index (by omega) (by omega)

/-- Assembling sketches that lie one after another puts each filter at its root. -/
theorem outcome_assemble_nodesAll : ∀ (sketches : List Sketch) {start : Nat} {slots : Slots},
    Vacant slots start (countAll sketches) →
      (assemble ((nodesAll start sketches).zipIdx start).reverse).outcome slots = do
        let made ← filters sketches
        return ((), place (starts start sketches) made slots)
  | [], _, _, _ => rfl
  | sketch :: rest, start, slots, vacant => by
      rw [countAll] at vacant
      have later := outcome_assemble_nodesAll rest
        (vacant.mono (Nat.le_add_right start sketch.count) (by omega))
      rw [nodesAll, List.zipIdx_append, length_nodes, List.reverse_append, assemble_append,
        Step.outcome_bind, later, filters]
      cases filters rest with
      | error error => rfl
      | ok others =>
          have stillVacant : Vacant (place (starts (start + sketch.count) rest) others slots)
              start sketch.count := by
            intro index low high
            rw [getElem?_place fun listed =>
              absurd (bounds_of_mem_starts listed).1 (Nat.not_le.2 high)]
            exact vacant index low (by omega)
          have first := outcome_assemble_nodes sketch stillVacant
          change Step.outcome _ _ = _
          rw [first]
          cases sketch.filter <;> rfl

end

/-- **The tree of an arena** that holds a sketch and nothing else is its filter. -/
theorem tree_nodes {sketch : Sketch} {nodes : Array Node}
    (laid : nodes.toList = sketch.nodes 0) : FilterBuilder.tree nodes 0 = sketch.filter := by
  have size : nodes.size = sketch.count := by
    rw [← Array.length_toList, laid, length_nodes]
  have vacant : Vacant (Array.replicate nodes.size none) 0 sketch.count := by
    intro index _ below
    rw [Array.getElem?_replicate, if_pos (by omega)]
  have positive : 0 < (Array.replicate nodes.size (none : Option Filter)).size := by
    rw [Array.size_replicate, size]
    exact sketch.count_pos
  have assembled := outcome_assemble_nodes sketch vacant
  rw [FilterBuilder.tree, laid]
  cases made : sketch.filter with
  | error error =>
      rw [made] at assembled
      obtain ⟨_, failed⟩ := Step.exists_of_outcome_eq_error assembled
      simp only [failed]
  | ok filter =>
      rw [made] at assembled
      simp only [Step.of_outcome_eq_ok assembled,
        Array.getElem?_setIfInBounds_self_of_lt positive, Option.join_some]

end Sketch

/-! ## The sketch of a filter -/

mutual

/-- The sketch of a filter in which every connective is taken apart. -/
def Filter.sketch : Filter → Sketch
  | .and children => .branch .and (sketchAll children)
  | .or children => .branch .or (sketchAll children)
  | .not child => .branch .not [sketch child]
  | .compare comparison assertion => .leaf (.compare comparison assertion)
  | .substrings pattern => .leaf (.substrings pattern)
  | .present description => .leaf (.present description)
  | .extensible condition => .leaf (.extensible condition)

def Filter.sketchAll : List Filter → List Sketch
  | [] => []
  | filter :: rest => sketch filter :: sketchAll rest

end

mutual

/-- A filter is the filter of its sketch. -/
theorem Filter.filter_sketch : ∀ filter : Filter, filter.sketch.filter = .ok filter
  | .and children | .or children => by
      rw [sketch, Sketch.filter, filters_sketchAll children]
      rfl
  | .not child => by
      rw [sketch, Sketch.filter, Sketch.filters, Sketch.filters, filter_sketch child]
      rfl
  | .compare .. | .substrings _ | .present _ | .extensible _ => rfl

theorem Filter.filters_sketchAll :
    ∀ filters : List Filter, Sketch.filters (sketchAll filters) = .ok filters
  | [] => rfl
  | filter :: rest => by
      rw [sketchAll, Sketch.filters, filters_sketchAll rest, filter_sketch filter]
      rfl

end

theorem Filter.sketch_injective {filter other : Filter} (same : filter.sketch = other.sketch) :
    filter = other := by
  have equal := filter.filter_sketch
  rw [same, other.filter_sketch] at equal
  cases equal
  rfl

/-! ## Full sketches -/

mutual

/-- Whether every connective of a sketch has a child, and a NOT no other. -/
def Sketch.Full : Sketch → Prop
  | .leaf _ => True
  | .branch connective children =>
      children ≠ [] ∧ (connective = .not → children.length = 1) ∧ AllFull children

def Sketch.AllFull : List Sketch → Prop
  | [] => True
  | sketch :: rest => Full sketch ∧ AllFull rest

end

mutual

/-- Whether no AND and no OR of a filter is without children. -/
def Filter.Populated : Filter → Prop
  | .and children | .or children => children ≠ [] ∧ AllPopulated children
  | .not child => Populated child
  | .compare .. | .substrings _ | .present _ | .extensible _ => True

def Filter.AllPopulated : List Filter → Prop
  | [] => True
  | filter :: rest => Populated filter ∧ AllPopulated rest

end

namespace Sketch

theorem allFull_append {front back : List Sketch} :
    AllFull (front ++ back) ↔ AllFull front ∧ AllFull back := by
  induction front with
  | nil => simp [AllFull]
  | cons sketch rest further => simp [AllFull, further, and_assoc]

/-- The filter of a full sketch has the connective of the sketch, around the filters of its
children. -/
theorem Full.filter_branch {connective : Connective} {children : List Sketch} {filter : Filter}
    (full : Full (.branch connective children))
    (made : (branch connective children).filter = .ok filter) :
    ∃ inside, filters children = .ok inside
      ∧ (connective = .and ∧ filter = .and inside ∨ connective = .or ∧ filter = .or inside
        ∨ ∃ child, connective = .not ∧ inside = [child] ∧ filter = .not child) := by
  obtain ⟨_, single, _⟩ := full
  rw [Sketch.filter] at made
  cases parts : filters children with
  | error error =>
      rw [parts] at made
      cases made
  | ok inside =>
      rw [parts] at made
      refine ⟨inside, rfl, ?_⟩
      cases connective with
      | and =>
          cases made
          exact .inl ⟨rfl, rfl⟩
      | or =>
          cases made
          exact .inr (.inl ⟨rfl, rfl⟩)
      | not =>
          have alone : inside.length = 1 := (length_filters parts).trans (single rfl)
          obtain ⟨child, rfl⟩ := List.length_eq_one_iff.1 alone
          cases made
          exact .inr (.inr ⟨child, rfl, rfl, rfl⟩)

mutual

/-- A full sketch has a filter. -/
theorem Full.exists_filter : ∀ {sketch : Sketch}, sketch.Full → ∃ made, sketch.filter = .ok made
  | .leaf made, _ => ⟨made, rfl⟩
  | .branch connective children, ⟨_, single, inside⟩ => by
      obtain ⟨made, parts⟩ := AllFull.exists_filters inside
      rw [Sketch.filter, parts]
      cases connective with
      | and => exact ⟨_, rfl⟩
      | or => exact ⟨_, rfl⟩
      | not =>
          have alone : made.length = 1 := (length_filters parts).trans (single rfl)
          obtain ⟨child, rfl⟩ := List.length_eq_one_iff.1 alone
          exact ⟨_, rfl⟩

theorem AllFull.exists_filters :
    ∀ {sketches : List Sketch}, AllFull sketches → ∃ made, filters sketches = .ok made
  | [], _ => ⟨[], rfl⟩
  | _ :: _, ⟨first, others⟩ => by
      obtain ⟨filter, one⟩ := Full.exists_filter first
      obtain ⟨made, all⟩ := AllFull.exists_filters others
      rw [filters, all, one]
      exact ⟨_, rfl⟩

end

end Sketch

theorem Filter.sketchAll_ne_nil {filters : List Filter} (nonempty : filters ≠ []) :
    sketchAll filters ≠ [] := by
  cases filters with
  | nil => exact absurd rfl nonempty
  | cons filter rest => simp [sketchAll]

mutual

/-- The sketch of a filter with no childless connective is full. -/
theorem Filter.Populated.full : ∀ {filter : Filter}, filter.Populated → filter.sketch.Full
  | .and _, ⟨nonempty, all⟩ | .or _, ⟨nonempty, all⟩ =>
      ⟨sketchAll_ne_nil nonempty, nofun, AllPopulated.allFull all⟩
  | .not _, inside => ⟨List.cons_ne_nil _ _, fun _ => rfl, Populated.full inside, trivial⟩
  | .compare .., _ | .substrings _, _ | .present _, _ | .extensible _, _ => trivial

theorem Filter.AllPopulated.allFull :
    ∀ {filters : List Filter}, AllPopulated filters → Sketch.AllFull (sketchAll filters)
  | [], _ => trivial
  | _ :: _, ⟨first, others⟩ => ⟨Populated.full first, AllPopulated.allFull others⟩

end

end LdapWire
