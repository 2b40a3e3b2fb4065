import LdapWire.Proofs.Filter.Assembly
import LdapWire.Proofs.Filter.Stage

/-!
# A walk through a filter

`Walk` is what a filter builder stands for: the connectives that are open with
the filters finished in each, or the whole tree. `Walk.Built` says that a builder
holds a walk. The operations of the builder are the moves of a walk: to open a
connective (`Walk.Built.openConnective`), to add a filter that holds no others
(`Walk.Built.addLeaf`), to change it while it is the latest
(`Editing.replaceLeaf`), to close a connective (`Walk.Built.closeConnective`) and
to hand the tree over (`Walk.Built.finish`).

A walk is a stage whose sketches are those of filters (`Walk.stage`), and a builder
that holds the walk is at this stage (`Walk.built_iff_holds`). Each move is taken
there.
-/

set_option autoImplicit false

namespace LdapWire

namespace FilterBuilder

/-- A connective that is open, with the filters finished in it. -/
structure OpenConnective where
  connective : Connective
  children : List Filter := []

/-- How far the walk through a filter has come. -/
inductive Walk where
  /-- Some connectives are open, the innermost first. -/
  | inside (levels : List OpenConnective)
  | finished (root : Filter)

namespace Walk

/-! ## What the builder holds -/

/-- The number of nodes of open connectives and of what they hold. -/
def offset : List OpenConnective → Nat
  | [] => 0
  | level :: outer => offset outer + 1 + Filter.countAll level.children

/-- The nodes of open connectives and of what they hold, where the innermost has
some children more, of which only the indices are known. -/
def arena : List OpenConnective → List Nat → List Node
  | [], _ => []
  | level :: outer, further =>
      arena outer [offset outer]
        ++ ⟨.connective level.connective,
            Filter.starts (offset outer + 1) level.children ++ further⟩
        :: Filter.nodesAll (offset outer + 1) level.children

/-- The indices of the open connectives. -/
def indices : List OpenConnective → List Nat
  | [] => []
  | _ :: outer => offset outer :: indices outer

def nodes : Walk → List Node
  | .inside levels => arena levels []
  | .finished root => root.nodes 0

/-- The connectives that are open. -/
def levels : Walk → List OpenConnective
  | .inside levels => levels
  | .finished _ => []

/-- The index of the root, once there is one. -/
def root? : Walk → Option Nat
  | .inside [] => none
  | .inside (_ :: _) | .finished _ => some 0

/-- Whether a builder holds a walk. Which leaf is the current one is left open. -/
structure Built (walk : Walk) (builder : FilterBuilder) : Prop where
  laid : builder.nodes.toList = walk.nodes
  stack : builder.parents = indices walk.levels
  start : builder.root = walk.root?

theorem built_empty : (inside []).Built {} := ⟨rfl, rfl, rfl⟩

/-- The walk after a filter has been finished below some connectives. -/
def after : List OpenConnective → Filter → Walk
  | [], filter => .finished filter
  | level :: outer, filter =>
      .inside ({ level with children := level.children ++ [filter] } :: outer)

/-- Whether another filter may follow: a NOT holds one. -/
def HasRoom : List OpenConnective → Prop
  | [] => True
  | level :: _ => level.connective = .not → level.children = []

/-! ## The stage of a walk -/

end Walk

/-- An open connective with the sketches of the filters in it. -/
def OpenConnective.level (opened : OpenConnective) : Level :=
  ⟨opened.connective, Filter.sketchAll opened.children⟩

namespace Walk

/-- The stage of a builder that holds a walk. -/
def stage : Walk → Stage
  | .inside levels => .inside (levels.map OpenConnective.level)
  | .finished root => .finished root.sketch

theorem offset_level (levels : List OpenConnective) :
    Stage.offset (levels.map OpenConnective.level) = offset levels := by
  induction levels with
  | nil => rfl
  | cons level outer same =>
      rw [List.map_cons, Stage.offset, same, offset, OpenConnective.level,
        Filter.countAll_sketchAll]

theorem arena_level (levels : List OpenConnective) (further : List Nat) :
    Stage.arena (levels.map OpenConnective.level) further = arena levels further := by
  induction levels generalizing further with
  | nil => rfl
  | cons level outer same =>
      rw [List.map_cons, Stage.arena, same, offset_level, arena, OpenConnective.level,
        Filter.starts_sketchAll, Filter.nodesAll_sketchAll]

theorem indices_level (levels : List OpenConnective) :
    Stage.indices (levels.map OpenConnective.level) = indices levels := by
  induction levels with
  | nil => rfl
  | cons level outer same =>
      rw [List.map_cons, Stage.indices, same, offset_level, indices]

theorem nodes_stage (walk : Walk) : walk.stage.nodes = walk.nodes := by
  cases walk with
  | inside levels => exact arena_level levels []
  | finished root => exact root.nodes_sketch 0

theorem indices_stage (walk : Walk) :
    Stage.indices walk.stage.levels = indices walk.levels := by
  cases walk with
  | inside levels => exact indices_level levels
  | finished root => rfl

theorem root?_stage (walk : Walk) : walk.stage.root? = walk.root? := by
  cases walk with
  | inside levels => cases levels <;> rfl
  | finished root => rfl

/-- A builder holds a walk if it is at the stage of the walk. -/
theorem built_iff_holds {walk : Walk} {builder : FilterBuilder} :
    walk.Built builder ↔ walk.stage.Holds builder := by
  constructor
  · rintro ⟨laid, stack, start⟩
    exact ⟨laid.trans walk.nodes_stage.symm, stack.trans walk.indices_stage.symm,
      start.trans walk.root?_stage.symm⟩
  · rintro ⟨laid, stack, start⟩
    exact ⟨laid.trans walk.nodes_stage, stack.trans walk.indices_stage,
      start.trans walk.root?_stage⟩

theorem stage_after (levels : List OpenConnective) (filter : Filter) :
    (after levels filter).stage
      = Stage.after (levels.map OpenConnective.level) filter.sketch := by
  cases levels with
  | nil => rfl
  | cons level outer =>
      simp only [after, stage, Stage.after, OpenConnective.level, List.map_cons,
        Filter.sketchAll_append, Filter.sketchAll]

theorem obstacle?_of_hasRoom {levels : List OpenConnective} (room : HasRoom levels) :
    (inside levels).stage.obstacle? = none := by
  cases levels with
  | nil => rfl
  | cons level outer =>
      refine if_neg fun blocked => ?_
      obtain ⟨negation, nonempty⟩ := blocked
      exact nonempty (by rw [OpenConnective.level, room negation, Filter.sketchAll])

theorem obstacle?_of_not_hasRoom {levels : List OpenConnective} (full : ¬ HasRoom levels) :
    (inside levels).stage.obstacle? = some .secondChild := by
  cases levels with
  | nil => exact absurd trivial full
  | cons level outer =>
      simp only [HasRoom, Classical.not_imp] at full
      exact if_pos ⟨full.1, Filter.sketchAll_ne_nil full.2⟩

/-! ## The moves -/

/-- A builder whose latest node is a leaf that may still be changed. -/
structure Editing (levels : List OpenConnective) (filter : Filter) (builder : FilterBuilder) :
    Prop where
  built : (after levels filter).Built builder
  leaf : filter.nodeKind = .leaf filter
  current : builder.current = some (offset levels)

namespace Editing

variable {levels : List OpenConnective} {filter : Filter} {builder : FilterBuilder}

theorem holds (editing : Editing levels filter builder) :
    (Stage.after (levels.map OpenConnective.level) (.leaf filter)).Holds builder := by
  rw [← Filter.sketch_of_leaf editing.leaf, ← stage_after]
  exact built_iff_holds.1 editing.built

theorem of_holds (leaf : filter.nodeKind = .leaf filter)
    (holds : (Stage.after (levels.map OpenConnective.level) (.leaf filter)).Holds builder)
    (current : builder.current = some (Stage.offset (levels.map OpenConnective.level))) :
    Editing levels filter builder := by
  rw [← Filter.sketch_of_leaf leaf, ← stage_after] at holds
  exact ⟨built_iff_holds.2 holds, leaf, current.trans (congrArg some (offset_level levels))⟩

theorem current_level (editing : Editing levels filter builder) :
    builder.current = some (Stage.offset (levels.map OpenConnective.level)) :=
  editing.current.trans (congrArg some (offset_level levels).symm)

theorem currentLeaf (editing : Editing levels filter builder) :
    FilterBuilder.currentLeaf builder = .ok filter builder := by
  simp only [FilterBuilder.currentLeaf, editing.holds.leaf? editing.current_level]

theorem depth (editing : Editing levels filter builder) : builder.depth = levels.length := by
  rw [editing.holds.depth, Stage.length_levels_after, List.length_map]

/-- The latest leaf is put in the place of its former self. -/
theorem replaceLeaf (editing : Editing levels filter builder) {changed : Filter}
    (leaf : changed.nodeKind = .leaf changed) :
    ∃ replaced, FilterBuilder.replaceLeaf changed builder = .ok () replaced
      ∧ Editing levels changed replaced := by
  obtain ⟨replaced, ran, holding, current⟩ :=
    editing.holds.replaceLeaf editing.current_level changed
  exact ⟨replaced, ran, of_holds leaf holding current⟩

end Editing

namespace Built

variable {levels outer : List OpenConnective} {level : OpenConnective} {builder : FilterBuilder}

theorem openConnective (built : (inside levels).Built builder) (room : HasRoom levels)
    (connective : Connective) :
    ∃ opened, FilterBuilder.openConnective connective builder = .ok () opened
      ∧ (inside ({ connective } :: levels)).Built opened := by
  obtain ⟨opened, ran, holding, _⟩ :=
    (built_iff_holds.1 built).openConnective (obstacle?_of_hasRoom room) connective
  exact ⟨opened, ran, built_iff_holds.2 holding⟩

theorem openConnective_of_full (built : (inside levels).Built builder) (full : ¬ HasRoom levels)
    (connective : Connective) :
    FilterBuilder.openConnective connective builder
      = .error (.violation .secondChild) builder :=
  Step.bind_of_error _
    ((built_iff_holds.1 built).attach_of_obstacle (obstacle?_of_not_hasRoom full) _)

theorem addLeaf (built : (inside levels).Built builder) (room : HasRoom levels) {filter : Filter}
    (leaf : filter.nodeKind = .leaf filter) :
    ∃ added, FilterBuilder.addLeaf filter builder = .ok () added
      ∧ Editing levels filter added := by
  obtain ⟨added, ran, holding, current⟩ :=
    (built_iff_holds.1 built).addLeaf (obstacle?_of_hasRoom room) filter
  exact ⟨added, ran, Editing.of_holds leaf holding current⟩

theorem addLeaf_of_full (built : (inside levels).Built builder) (full : ¬ HasRoom levels)
    (filter : Filter) :
    FilterBuilder.addLeaf filter builder = .error (.violation .secondChild) builder :=
  Step.bind_of_error _
    ((built_iff_holds.1 built).attach_of_obstacle (obstacle?_of_not_hasRoom full) _)

/-- A connective that holds filters is closed, and is a filter itself then. -/
theorem closeConnective (built : (inside (level :: outer)).Built builder) {filter : Filter}
    (kind : filter.nodeKind = .connective level.connective)
    (children : filter.children = level.children) (nonempty : level.children ≠ []) :
    ∃ closed, FilterBuilder.closeConnective builder = .ok () closed
      ∧ (after outer filter).Built closed := by
  have holds : (Stage.inside (level.level :: outer.map OpenConnective.level)).Holds builder :=
    built_iff_holds.1 built
  obtain ⟨closed, ran, holding, _⟩ :=
    holds.closeConnective (Filter.sketchAll_ne_nil nonempty)
  refine ⟨closed, ran, built_iff_holds.2 ?_⟩
  rw [stage_after, Filter.sketch_of_connective kind, children]
  exact holding

/-- The whole tree is handed over, and the builder starts again. -/
theorem finish {filter : Filter} (built : (finished filter).Built builder) :
    FilterBuilder.finish builder = .ok filter {} := by
  have holds : (Stage.finished filter.sketch).Holds builder := built_iff_holds.1 built
  rw [holds.finish, filter.filter_sketch]

/-- The builder's depth is the number of connectives that are open. -/
theorem depth {walk : Walk} (built : walk.Built builder) : builder.depth = walk.levels.length := by
  rw [(built_iff_holds.1 built).depth]
  cases walk with
  | inside levels => exact List.length_map _
  | finished root => rfl

end Built

end Walk

end FilterBuilder

end LdapWire
