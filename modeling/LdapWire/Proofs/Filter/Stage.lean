import LdapWire.Proofs.Filter.Sketch

/-!
# Sketches under way

A filter builder is at a `Stage`: some connectives are open, each with the sketches that
have been finished in it, or a whole sketch is finished. `Stage.Situation` says that a
builder is at a stage, and which leaf it takes for the current one.

An operation that is in its place leads from a stage to another one (`Holds.openConnective`,
`Holds.addLeaf`, `Holds.replaceLeaf`, `Holds.closeConnective`, `Holds.finish`). The lemmas of
the same names on situations say all that an operation can do, with the next situation where it
succeeds and what it leaves behind where it is refused. No later proof looks at indices.
-/

set_option autoImplicit false

namespace LdapWire

namespace FilterBuilder

/-- A connective that is open, with the sketches finished in it. -/
structure Level where
  connective : Connective
  children : List Sketch := []

/-- How far a sketch has come. -/
inductive Stage where
  /-- Some connectives are open, the innermost first. -/
  | inside (levels : List Level)
  | finished (root : Sketch)

namespace Stage

/-! ## What the builder holds -/

/-- The number of nodes of open connectives and of what they hold. -/
def offset : List Level → Nat
  | [] => 0
  | level :: outer => offset outer + 1 + Sketch.countAll level.children

/-- The nodes of open connectives and of what they hold, where the innermost has some
children more, of which only the indices are known. -/
def arena : List Level → List Nat → List Node
  | [], _ => []
  | level :: outer, further =>
      arena outer [offset outer]
        ++ ⟨.connective level.connective,
            Sketch.starts (offset outer + 1) level.children ++ further⟩
        :: Sketch.nodesAll (offset outer + 1) level.children

/-- The indices of the open connectives. -/
def indices : List Level → List Nat
  | [] => []
  | _ :: outer => offset outer :: indices outer

def nodes : Stage → List Node
  | .inside levels => arena levels []
  | .finished root => root.nodes 0

/-- The connectives that are open. -/
def levels : Stage → List Level
  | .inside levels => levels
  | .finished _ => []

/-- The index of the root, once there is one. -/
def root? : Stage → Option Nat
  | .inside [] => none
  | .inside (_ :: _) | .finished _ => some 0

/-- Whether a builder is at a stage. Which leaf is the current one is left open. -/
structure Holds (stage : Stage) (builder : FilterBuilder) : Prop where
  laid : builder.nodes.toList = stage.nodes
  stack : builder.parents = indices stage.levels
  start : builder.root = stage.root?

theorem holds_empty : (inside []).Holds {} := ⟨rfl, rfl, rfl⟩

/-- The stage after a sketch has been finished below some connectives. -/
def after : List Level → Sketch → Stage
  | [], sketch => .finished sketch
  | level :: outer, sketch =>
      .inside ({ level with children := level.children ++ [sketch] } :: outer)

/-- Why no other sketch may follow, if there is a reason: a NOT holds one, and there is
one root. -/
def obstacle? : Stage → Option Violation
  | .finished _ => some .secondRoot
  | .inside [] => none
  | .inside (level :: _) =>
      if level.connective = .not ∧ level.children ≠ [] then some .secondChild else none

theorem length_arena (levels : List Level) (further : List Nat) :
    (arena levels further).length = offset levels := by
  induction levels generalizing further with
  | nil => rfl
  | cons level outer shorter =>
      rw [arena, List.length_append, List.length_cons, shorter, Sketch.length_nodesAll, offset]
      omega

theorem length_indices (levels : List Level) : (indices levels).length = levels.length := by
  induction levels with
  | nil => rfl
  | cons level outer shorter => rw [indices, List.length_cons, shorter, List.length_cons]

theorem nodes_after (levels : List Level) (sketch : Sketch) :
    (after levels sketch).nodes
      = arena levels [offset levels] ++ sketch.nodes (offset levels) := by
  cases levels with
  | nil => rfl
  | cons level outer =>
      simp only [after, nodes, arena, offset, Sketch.starts_append, Sketch.nodesAll_append,
        Sketch.starts, Sketch.nodesAll, List.append_nil, List.append_assoc, List.cons_append]

@[simp] theorem indices_after (levels : List Level) (sketch : Sketch) :
    indices (after levels sketch).levels = indices levels := by
  cases levels <;> rfl

@[simp] theorem root?_after (levels : List Level) (sketch : Sketch) :
    (after levels sketch).root? = some 0 := by
  cases levels <;> rfl

theorem length_levels_after (levels : List Level) (sketch : Sketch) :
    (after levels sketch).levels.length = levels.length := by
  cases levels <;> rfl

/-- Changing the element behind some others. -/
theorem modify_append_cons {α : Type} {index : Nat} {front : List α} (size : front.length = index)
    (back : List α) (item : α) (change : α → α) :
    (front ++ item :: back).modify index change = front ++ change item :: back := by
  subst size
  induction front with
  | nil => rfl
  | cons first rest further => simp [List.modify_succ_cons, further]

theorem modify_arena (level : Level) (outer : List Level) (index : Nat) :
    (arena (level :: outer) []).modify (offset outer) (Node.adopt index)
      = arena (level :: outer) [index] := by
  rw [arena, arena, modify_append_cons (length_arena outer [offset outer]), Node.adopt,
    List.append_nil]

namespace Holds

variable {stage : Stage} {levels outer : List Level} {level : Level} {builder : FilterBuilder}

theorem size (holds : (inside levels).Holds builder) : builder.nodes.size = offset levels := by
  rw [← Array.length_toList, holds.laid, nodes, length_arena]

theorem node (holds : (inside (level :: outer)).Holds builder) :
    builder.nodes[offset outer]? =
      some ⟨.connective level.connective, Sketch.starts (offset outer + 1) level.children⟩ := by
  rw [← Array.getElem?_toList, holds.laid, nodes, arena,
    List.getElem?_append_right (Nat.le_of_eq (length_arena _ _)), length_arena, Nat.sub_self,
    List.getElem?_cons_zero, List.append_nil]

theorem childrenOf (holds : (inside (level :: outer)).Holds builder) :
    builder.childrenOf (offset outer) = Sketch.starts (offset outer + 1) level.children := by
  rw [FilterBuilder.childrenOf, holds.node]
  rfl

/-- A builder refuses another node for the reason that its stage gives. -/
theorem obstacle?_eq (holds : stage.Holds builder) : builder.obstacle? = stage.obstacle? := by
  cases stage with
  | finished root =>
      have noParents : builder.parents = [] := holds.stack
      have rooted : builder.root = some 0 := holds.start
      simp only [FilterBuilder.obstacle?, noParents, rooted]
      rfl
  | inside levels =>
      cases levels with
      | nil =>
          have noParents : builder.parents = [] := holds.stack
          have noRoot : builder.root = none := holds.start
          simp only [FilterBuilder.obstacle?, noParents, noRoot]
          rfl
      | cons level outer =>
          have innermost : builder.parents = offset outer :: indices outer := holds.stack
          have full : (Sketch.starts (offset outer + 1) level.children ≠ [])
              = (level.children ≠ []) := propext (not_congr Sketch.starts_eq_nil_iff)
          simp only [FilterBuilder.obstacle?, innermost, holds.node, holds.childrenOf,
            Option.map_some, Option.some.injEq, NodeKind.connective.injEq, full, obstacle?]

/-- The depth of a builder is the number of connectives that are open. -/
theorem depth (holds : stage.Holds builder) : builder.depth = stage.levels.length := by
  rw [FilterBuilder.depth, holds.stack, length_indices]

/-! ## Adding a node -/

theorem attach_of_obstacle {violation : Violation} (holds : stage.Holds builder)
    (blocked : stage.obstacle? = some violation) (kind : NodeKind) :
    FilterBuilder.attach kind builder = .error (.violation violation) builder := by
  rw [FilterBuilder.attach]
  simp only [holds.obstacle?_eq, blocked]

/-- A node is added behind all others, and its parent learns of it. -/
theorem attach (holds : (inside levels).Holds builder)
    (free : (inside levels).obstacle? = none) (kind : NodeKind) :
    ∃ attached, FilterBuilder.attach kind builder = .ok (offset levels) attached
      ∧ attached.nodes.toList = arena levels [offset levels] ++ [⟨kind, []⟩]
      ∧ attached.parents = indices levels ∧ attached.root = some 0 := by
  have unblocked : builder.obstacle? = none := holds.obstacle?_eq.trans free
  cases levels with
  | nil =>
      have noParents : builder.parents = [] := holds.stack
      have noNodes : builder.nodes.toList = [] := holds.laid
      refine ⟨{ builder with nodes := builder.nodes.push { kind }, root := some 0 },
        ?_, ?_, ?_, rfl⟩
      · simp only [FilterBuilder.attach, unblocked, noParents, holds.size, offset]
      · simp [noNodes, arena]
      · exact noParents
  | cons level outer =>
      have innermost : builder.parents = offset outer :: indices outer := holds.stack
      have laid : builder.nodes.toList = arena (level :: outer) [] := holds.laid
      refine ⟨{ builder with
        nodes := (builder.nodes.modify (offset outer)
          (Node.adopt (offset (level :: outer)))).push { kind } }, ?_, ?_, innermost, holds.start⟩
      · simp only [FilterBuilder.attach, unblocked, innermost, holds.size]
      · rw [Array.toList_push, Array.toList_modify, laid, modify_arena]

/-! ## The operations -/

theorem openConnective (holds : (inside levels).Holds builder)
    (free : (inside levels).obstacle? = none) (connective : Connective) :
    ∃ opened, FilterBuilder.openConnective connective builder = .ok () opened
      ∧ (inside ({ connective } :: levels)).Holds opened ∧ opened.current = none := by
  obtain ⟨attached, ran, laid, stack, root⟩ := holds.attach free (.connective connective)
  refine ⟨_, Step.bind_of_ok _ ran, ⟨?_, ?_, root⟩, rfl⟩
  · simp only [laid, nodes, arena, Sketch.starts, Sketch.nodesAll, List.nil_append]
  · simp only [Stage.levels, indices, stack]

theorem addLeaf (holds : (inside levels).Holds builder)
    (free : (inside levels).obstacle? = none) (filter : Filter) :
    ∃ added, FilterBuilder.addLeaf filter builder = .ok () added
      ∧ (after levels (.leaf filter)).Holds added ∧ added.current = some (offset levels) := by
  obtain ⟨attached, ran, laid, stack, root⟩ := holds.attach free (.leaf filter)
  refine ⟨_, Step.bind_of_ok _ ran, ⟨?_, ?_, ?_⟩, rfl⟩
  · rw [nodes_after]
    exact laid
  · rw [indices_after]
    exact stack
  · rw [root?_after]
    exact root

/-- The latest node is the current leaf. -/
theorem leaf? {filter : Filter} (holds : (after levels (.leaf filter)).Holds builder)
    (current : builder.current = some (offset levels)) :
    builder.leaf? = some (offset levels, filter) := by
  have found : builder.nodes[offset levels]? = some ⟨.leaf filter, []⟩ := by
    rw [← Array.getElem?_toList, holds.laid, nodes_after, Sketch.nodes,
      List.getElem?_append_right (Nat.le_of_eq (length_arena _ _)), length_arena, Nat.sub_self,
      List.getElem?_cons_zero]
  simp only [FilterBuilder.leaf?, current, found, Option.bind_eq_bind, Option.bind_some]

/-- The current leaf is put in the place of its former self. -/
theorem replaceLeaf {former : Filter} (holds : (after levels (.leaf former)).Holds builder)
    (current : builder.current = some (offset levels)) (filter : Filter) :
    ∃ replaced, FilterBuilder.replaceLeaf filter builder = .ok () replaced
      ∧ (after levels (.leaf filter)).Holds replaced
      ∧ replaced.current = some (offset levels) := by
  refine ⟨{ builder with
    nodes := builder.nodes.modify (offset levels) fun node => { node with kind := .leaf filter } },
    ?_, ⟨?_, ?_, ?_⟩, current⟩
  · simp only [FilterBuilder.replaceLeaf, holds.leaf? current]
  · rw [nodes_after, Array.toList_modify, holds.laid, nodes_after, Sketch.nodes, Sketch.nodes,
      modify_append_cons (length_arena levels [offset levels])]
  · rw [indices_after, ← indices_after levels (.leaf former)]
    exact holds.stack
  · rw [root?_after, ← root?_after levels (.leaf former)]
    exact holds.start

/-- A connective is a sketch once it has been taken off the stack. -/
theorem popped (holds : (inside (level :: outer)).Holds builder) (current : Option Nat) :
    (after outer (.branch level.connective level.children)).Holds
      { builder with parents := indices outer, current } := by
  have laid : builder.nodes.toList = arena (level :: outer) [] := holds.laid
  refine ⟨?_, ?_, ?_⟩
  · rw [nodes_after, Sketch.nodes]
    rw [arena, List.append_nil] at laid
    exact laid
  · rw [indices_after]
  · rw [root?_after]
    exact holds.start

theorem closeConnective (holds : (inside (level :: outer)).Holds builder)
    (nonempty : level.children ≠ []) :
    ∃ closed, FilterBuilder.closeConnective builder = .ok () closed
      ∧ (after outer (.branch level.connective level.children)).Holds closed
      ∧ closed.current = none := by
  have innermost : builder.parents = offset outer :: indices outer := holds.stack
  have present : ¬ builder.childrenOf (offset outer) = [] := by
    rw [holds.childrenOf]
    exact mt Sketch.starts_eq_nil_iff.1 nonempty
  refine ⟨{ builder with parents := indices outer, current := none }, ?_, holds.popped none, rfl⟩
  simp only [FilterBuilder.closeConnective, innermost, present, if_false]

/-- The whole tree is handed over and the builder starts again, also if the tree is none. -/
theorem finish {root : Sketch} (holds : (finished root).Holds builder) :
    FilterBuilder.finish builder = match root.filter with
      | .ok filter => .ok filter {}
      | .error error => .error error {} := by
  have noParents : builder.parents = [] := holds.stack
  have rooted : builder.root = some 0 := holds.start
  have tree : FilterBuilder.tree builder.nodes 0 = root.filter := Sketch.tree_nodes holds.laid
  simp only [FilterBuilder.finish, noParents, ne_eq, not_true_eq_false, if_false, rooted, tree]
  cases root.filter <;> rfl

end Holds

/-! ## Situations -/

/-- Whether a builder is at a stage, and whether its latest node is a leaf that may still be
replaced. -/
inductive Situation : Stage → Option Filter → FilterBuilder → Prop where
  | idle {stage : Stage} {builder : FilterBuilder} (holds : stage.Holds builder)
      (current : builder.current = none) : Situation stage none builder
  | editing {levels : List Level} {filter : Filter} {builder : FilterBuilder}
      (holds : (after levels (.leaf filter)).Holds builder)
      (current : builder.current = some (offset levels)) :
      Situation (after levels (.leaf filter)) (some filter) builder

theorem situation_empty : Situation (inside []) none {} := .idle holds_empty rfl

namespace Situation

variable {stage : Stage} {latest : Option Filter} {builder : FilterBuilder}

theorem holds (situation : Situation stage latest builder) : stage.Holds builder := by
  cases situation <;> assumption

theorem openConnective (situation : Situation stage latest builder) (connective : Connective) :
    (∃ levels opened, stage = inside levels ∧ stage.obstacle? = none
        ∧ FilterBuilder.openConnective connective builder = .ok () opened
        ∧ Situation (inside ({ connective } :: levels)) none opened)
      ∨ ∃ violation, stage.obstacle? = some violation
        ∧ FilterBuilder.openConnective connective builder
          = .error (.violation violation) builder := by
  have held := situation.holds
  cases blocked : stage.obstacle? with
  | some violation =>
      exact .inr ⟨violation, rfl, Step.bind_of_error _ (held.attach_of_obstacle blocked _)⟩
  | none =>
      cases stage with
      | finished root => cases blocked
      | inside levels =>
          obtain ⟨opened, ran, holding, current⟩ := held.openConnective blocked connective
          exact .inl ⟨levels, opened, rfl, rfl, ran, .idle holding current⟩

theorem addLeaf (situation : Situation stage latest builder) (filter : Filter) :
    (∃ levels added, stage = inside levels ∧ stage.obstacle? = none
        ∧ FilterBuilder.addLeaf filter builder = .ok () added
        ∧ Situation (after levels (.leaf filter)) (some filter) added)
      ∨ ∃ violation, stage.obstacle? = some violation
        ∧ FilterBuilder.addLeaf filter builder = .error (.violation violation) builder := by
  have held := situation.holds
  cases blocked : stage.obstacle? with
  | some violation =>
      exact .inr ⟨violation, rfl, Step.bind_of_error _ (held.attach_of_obstacle blocked _)⟩
  | none =>
      cases stage with
      | finished root => cases blocked
      | inside levels =>
          obtain ⟨added, ran, holding, current⟩ := held.addLeaf blocked filter
          exact .inl ⟨levels, added, rfl, rfl, ran, .editing holding current⟩

theorem replaceLeaf (situation : Situation stage latest builder) (filter : Filter) :
    (∃ levels former replaced, stage = after levels (.leaf former) ∧ latest = some former
        ∧ FilterBuilder.replaceLeaf filter builder = .ok () replaced
        ∧ Situation (after levels (.leaf filter)) (some filter) replaced)
      ∨ latest = none ∧ FilterBuilder.replaceLeaf filter builder
          = .error (.violation .filterItemMissing) builder := by
  cases situation with
  | idle holds current =>
      refine .inr ⟨rfl, ?_⟩
      simp only [FilterBuilder.replaceLeaf, FilterBuilder.leaf?, current, Option.bind_eq_bind,
        Option.bind_none]
  | @editing levels former _ holds current =>
      obtain ⟨replaced, ran, holding, still⟩ := holds.replaceLeaf current filter
      exact .inl ⟨levels, former, replaced, rfl, rfl, ran, .editing holding still⟩

/-- Right after a connective has been opened, no leaf is at hand. -/
theorem current_of_childless {level : Level} {outer : List Level}
    (situation : Situation (inside (level :: outer)) latest builder)
    (childless : level.children = []) : builder.current = none := by
  generalize reached : inside (level :: outer) = stage at situation
  cases situation with
  | idle holds current => exact current
  | @editing levels filter _ holds current =>
      cases levels with
      | nil => cases reached
      | cons other further =>
          cases reached
          exact absurd childless (by simp)

theorem closeConnective (situation : Situation stage latest builder) :
    (∃ level outer closed, stage = inside (level :: outer) ∧ level.children ≠ []
        ∧ FilterBuilder.closeConnective builder = .ok () closed
        ∧ Situation (after outer (.branch level.connective level.children)) none closed)
      ∨ (∃ level outer, stage = inside (level :: outer) ∧ level.children = []
        ∧ FilterBuilder.closeConnective builder
          = .error (.violation .childlessConnective)
              { builder with parents := builder.parents.tail }
        ∧ Situation (after outer (.branch level.connective [])) none
            { builder with parents := builder.parents.tail })
      ∨ stage.levels = [] ∧ FilterBuilder.closeConnective builder
          = .error (.violation .connectiveMissing) builder := by
  have held := situation.holds
  cases opened : stage.levels with
  | nil =>
      have noParents : builder.parents = [] := by
        rw [held.stack, opened]
        rfl
      refine .inr (.inr ⟨rfl, ?_⟩)
      simp only [FilterBuilder.closeConnective, noParents]
  | cons level outer =>
      have inner : stage = inside (level :: outer) := by
        cases stage with
        | finished root => cases opened
        | inside levels => exact congrArg inside opened
      subst inner
      by_cases childless : level.children = []
      · have innermost : builder.parents = offset outer :: indices outer := held.stack
        have none : builder.childrenOf (offset outer) = [] := by
          rw [held.childrenOf, childless]
          rfl
        have closed := held.popped builder.current
        have same : { builder with parents := builder.parents.tail }
            = { builder with parents := indices outer } := by
          rw [innermost, List.tail_cons]
        rw [childless, ← same] at closed
        refine .inr (.inl ⟨level, outer, rfl, childless, ?_,
          .idle closed (situation.current_of_childless childless)⟩)
        simp only [FilterBuilder.closeConnective, innermost, none, if_true, List.tail_cons]
      · obtain ⟨closed, ran, holding, current⟩ := held.closeConnective childless
        exact .inl ⟨level, outer, closed, rfl, childless, ran, .idle holding current⟩

theorem finish (situation : Situation stage latest builder) :
    (∃ root, stage = finished root
        ∧ FilterBuilder.finish builder = match root.filter with
          | .ok filter => .ok filter {}
          | .error error => .error error {})
      ∨ ∃ levels error, stage = inside levels
        ∧ FilterBuilder.finish builder = .error error builder := by
  have held := situation.holds
  cases stage with
  | finished root => exact .inl ⟨root, rfl, held.finish⟩
  | inside levels =>
      cases levels with
      | nil =>
          have noParents : builder.parents = [] := held.stack
          have noRoot : builder.root = none := held.start
          refine .inr ⟨[], .violation .filterMissing, rfl, ?_⟩
          simp [FilterBuilder.finish, noParents, noRoot]
      | cons level outer =>
          have innermost : builder.parents = offset outer :: indices outer := held.stack
          refine .inr ⟨level :: outer, .violation .unclosedConnective, rfl, ?_⟩
          simp [FilterBuilder.finish, innermost]

end Situation

end Stage

end FilterBuilder

end LdapWire
