import LdapWire.Proofs.Filter.Stage

/-!
# Replaying a walk through a filter

A filter is told to a builder as a sequence of moves: its pre-order walk, in which a
connective is opened, walked through and closed. A leaf may be replaced as long as it is the
latest node, and `settle` takes a sequence of moves to the one in which each leaf is added as
it was last replaced.

The builder makes exactly the tree that was walked (`finish_replay`). The walk of every
filter in which no AND and no OR is childless can be replayed, and finishing then gives this
filter. And however a sequence of moves came to succeed, it settles to the walk of a single
sketch, connectives all filled, and the filter that finishing gives is the filter of this
sketch. Between the moves and the tree stands `Traced`, which one move preserves
(`Traced.step`) and so every sequence of moves does (`traced_replay`).

A leaf may itself be a filter with connectives in it, which the builder does not look into.
This is why the tree is a sketch at first. Where all leaves hold no filters it is the sketch
of the result, so the result is the only filter with this walk.
-/

set_option autoImplicit false

namespace LdapWire

namespace FilterBuilder

/-- A call that builds a filter. -/
inductive Move where
  | opening (connective : Connective)
  | closing
  | adding (filter : Filter)
  | replacing (filter : Filter)
deriving DecidableEq

/-- What a builder does at a move. -/
def Move.step : Move → Step FilterBuilder Unit
  | .opening connective => openConnective connective
  | .closing => closeConnective
  | .adding filter => addLeaf filter
  | .replacing filter => replaceLeaf filter

/-- Takes moves one after another. The first that fails ends the sequence. -/
def replay : List Move → Step FilterBuilder Unit
  | [] => pure ()
  | move :: rest => do
      move.step
      replay rest

/-- Notes a move after earlier ones, of which the latest is the first. A leaf takes the place
of the leaf that it replaces. -/
def record (earlier : List Move) : Move → List Move
  | .replacing filter =>
      match earlier with
      | .adding _ :: others => .adding filter :: others
      | _ => .replacing filter :: earlier
  | move => move :: earlier

theorem adding_mem_record {earlier : List Move} {move : Move} {leaf : Filter}
    (listed : .adding leaf ∈ record earlier move) :
    .adding leaf ∈ earlier ∨ move = .adding leaf ∨ move = .replacing leaf := by
  cases move with
  | opening connective => exact .inl (by simpa [record] using listed)
  | closing => exact .inl (by simpa [record] using listed)
  | adding filter =>
      rcases List.mem_cons.1 listed with same | older
      · exact .inr (.inl same.symm)
      · exact .inl older
  | replacing filter =>
      unfold record at listed
      dsimp only at listed
      split at listed
      · rcases List.mem_cons.1 listed with same | older
        · cases same
          exact .inr (.inr rfl)
        · exact .inl (List.mem_cons_of_mem _ older)
      · exact .inl (by simpa using listed)

/-- The moves with each leaf added as it was last replaced. -/
def settle (moves : List Move) : List Move := (moves.foldl record []).reverse

/-- How many of the moves open a connective. -/
def openings (moves : List Move) : Nat := moves.countP fun move => move matches .opening _

/-- How many of the moves close a connective. -/
def closings (moves : List Move) : Nat := moves.count .closing

end FilterBuilder

open FilterBuilder (Move)

/-! ## The walk through a sketch -/

namespace Sketch

mutual

/-- The pre-order walk through a sketch. -/
def walk : Sketch → List Move
  | .leaf filter => [.adding filter]
  | .branch connective children => .opening connective :: (walkAll children ++ [.closing])

def walkAll : List Sketch → List Move
  | [] => []
  | sketch :: rest => walk sketch ++ walkAll rest

end

theorem walkAll_append (front back : List Sketch) :
    walkAll (front ++ back) = walkAll front ++ walkAll back := by
  induction front with
  | nil => rfl
  | cons sketch rest further =>
      rw [List.cons_append, walkAll, walkAll, further, List.append_assoc]

/-- No walk begins with a connective being closed. -/
theorem walk_append_ne_closing (sketch : Sketch) {rest further : List Move} :
    sketch.walk ++ rest ≠ .closing :: further := by
  cases sketch <;> simp [walk]

mutual

/-- **A walk tells the sketch**, whatever comes after it. -/
theorem walk_append_inj : ∀ {sketch other : Sketch} {rest further : List Move},
    sketch.walk ++ rest = other.walk ++ further → sketch = other ∧ rest = further
  | .leaf _, .leaf _, _, _, same => by
      simp only [walk, List.singleton_append, List.cons.injEq, Move.adding.injEq] at same
      exact ⟨congrArg leaf same.1, same.2⟩
  | .branch _ children, .branch _ others, rest, further, same => by
      simp only [walk, List.cons_append, List.append_assoc, List.nil_append, List.cons.injEq,
        Move.opening.injEq] at same
      obtain ⟨rfl, inside⟩ := same
      obtain ⟨rfl, behind⟩ := walkAll_closing_inj inside
      exact ⟨rfl, behind⟩
  | .leaf _, .branch _ _, _, _, same | .branch _ _, .leaf _, _, _, same => by
      cases (List.cons.inj same).1

/-- Walks one after another tell their sketches, once a connective is closed behind them. -/
theorem walkAll_closing_inj : ∀ {sketches others : List Sketch} {rest further : List Move},
    walkAll sketches ++ .closing :: rest = walkAll others ++ .closing :: further →
      sketches = others ∧ rest = further
  | [], [], _, _, same => ⟨rfl, (List.cons.inj same).2⟩
  | [], other :: _, _, _, same => by
      simp only [walkAll, List.append_assoc, List.nil_append] at same
      exact absurd same.symm (walk_append_ne_closing other)
  | sketch :: _, [], _, _, same => by
      simp only [walkAll, List.append_assoc, List.nil_append] at same
      exact absurd same (walk_append_ne_closing sketch)
  | sketch :: rest, other :: others, _, _, same => by
      simp only [walkAll, List.append_assoc] at same
      obtain ⟨rfl, inside⟩ := walk_append_inj same
      obtain ⟨rfl, behind⟩ := walkAll_closing_inj inside
      exact ⟨rfl, behind⟩

end

theorem walk_injective {sketch other : Sketch} (same : sketch.walk = other.walk) :
    sketch = other := by
  have appended : sketch.walk ++ [] = other.walk ++ [] := by rw [same]
  exact (walk_append_inj appended).1

/-! ## Leaves -/

/-- A connective adds no leaf to the walk. -/
theorem adding_mem_walk_branch {leaf : Filter} {connective : Connective}
    {children : List Sketch} :
    .adding leaf ∈ (branch connective children).walk ↔ .adding leaf ∈ walkAll children := by
  simp [walk]

mutual

/-- A full sketch whose leaves hold no filters is the sketch of its filter. -/
theorem Full.sketch_filter : ∀ {sketch : Sketch} {filter : Filter}, sketch.Full →
    (∀ leaf, .adding leaf ∈ sketch.walk → leaf.sketch = .leaf leaf) →
      sketch.filter = .ok filter → filter.sketch = sketch
  | .leaf filter, _, _, plain, made => by
      cases made
      exact plain filter List.mem_cons_self
  | .branch connective children, filter, full, plain, made => by
      obtain ⟨inside, parts, shape⟩ := full.filter_branch made
      have same := AllFull.sketchAll_filters full.2.2
        (fun leaf listed => plain leaf (adding_mem_walk_branch.2 listed)) parts
      rcases shape with ⟨rfl, rfl⟩ | ⟨rfl, rfl⟩ | ⟨child, rfl, rfl, rfl⟩
      · rw [Filter.sketch, same]
      · rw [Filter.sketch, same]
      · rw [Filter.sketch, ← same, Filter.sketchAll, Filter.sketchAll]

theorem AllFull.sketchAll_filters : ∀ {sketches : List Sketch} {filters : List Filter},
    AllFull sketches → (∀ leaf, .adding leaf ∈ walkAll sketches → leaf.sketch = .leaf leaf) →
      Sketch.filters sketches = .ok filters → Filter.sketchAll filters = sketches
  | [], _, _, _, made => by
      cases made
      rfl
  | sketch :: rest, _, ⟨full, others⟩, plain, made => by
      obtain ⟨filter, further, first, later, rfl⟩ := exists_of_filters_cons made
      have one := Full.sketch_filter full
        (fun leaf listed => plain leaf (List.mem_append_left _ listed)) first
      have all := AllFull.sketchAll_filters others
        (fun leaf listed => plain leaf (List.mem_append_right _ listed)) later
      rw [Filter.sketchAll, one, all]

end

mutual

/-- The filter of a full sketch has no AND or OR without children, unless a leaf has one. -/
theorem Full.populated : ∀ {sketch : Sketch} {filter : Filter}, sketch.Full →
    (∀ leaf, .adding leaf ∈ sketch.walk → leaf.Populated) →
      sketch.filter = .ok filter → filter.Populated
  | .leaf filter, _, _, populated, made => by
      cases made
      exact populated filter List.mem_cons_self
  | .branch connective children, filter, full, populated, made => by
      obtain ⟨inside, parts, shape⟩ := full.filter_branch made
      have all := AllFull.populated full.2.2
        (fun leaf listed => populated leaf (adding_mem_walk_branch.2 listed)) parts
      have nonempty : inside ≠ [] := by
        rw [← List.length_pos_iff, length_filters parts, List.length_pos_iff]
        exact full.1
      rcases shape with ⟨rfl, rfl⟩ | ⟨rfl, rfl⟩ | ⟨child, rfl, rfl, rfl⟩
      · exact ⟨nonempty, all⟩
      · exact ⟨nonempty, all⟩
      · exact all.1

theorem AllFull.populated : ∀ {sketches : List Sketch} {filters : List Filter},
    AllFull sketches → (∀ leaf, .adding leaf ∈ walkAll sketches → leaf.Populated) →
      Sketch.filters sketches = .ok filters → Filter.AllPopulated filters
  | [], _, _, _, made => by
      cases made
      trivial
  | sketch :: rest, _, ⟨full, others⟩, populated, made => by
      obtain ⟨filter, further, first, later, rfl⟩ := exists_of_filters_cons made
      refine ⟨Full.populated full ?_ first, AllFull.populated others ?_ later⟩
      · exact fun leaf listed => populated leaf (List.mem_append_left _ listed)
      · exact fun leaf listed => populated leaf (List.mem_append_right _ listed)

end

end Sketch

/-! ## Moves between stages -/

namespace FilterBuilder

namespace Stage

/-- The walk up to the innermost of some open connectives. -/
def trail : List Level → List Move
  | [] => []
  | level :: outer => trail outer ++ .opening level.connective :: Sketch.walkAll level.children

/-- The walk up to a stage. -/
def walk : Stage → List Move
  | .inside levels => trail levels
  | .finished root => root.walk

theorem walk_after (levels : List Level) (sketch : Sketch) :
    (after levels sketch).walk = trail levels ++ sketch.walk := by
  cases levels with
  | nil => rfl
  | cons level outer =>
      simp [after, walk, trail, Sketch.walkAll_append, Sketch.walkAll]

/-- Whether a sketch that is full may follow in the innermost of some connectives. -/
def Ready (levels : List Level) : Prop :=
  ∀ level ∈ levels,
    (level.connective = .not → level.children = []) ∧ Sketch.AllFull level.children

/-- Whether no more than children is missing for all sketches to be full. -/
def Full : Stage → Prop
  | .inside [] => True
  | .inside (level :: outer) =>
      (level.connective = .not → level.children.length ≤ 1) ∧ Sketch.AllFull level.children
        ∧ Ready outer
  | .finished root => root.Full

theorem Full.ready {levels : List Level} (full : (inside levels).Full)
    (free : (inside levels).obstacle? = none) : Ready levels := by
  cases levels with
  | nil => exact fun _ listed => nomatch listed
  | cons level outer =>
      obtain ⟨_, inside, ready⟩ := full
      rw [obstacle?, ite_eq_right_iff] at free
      refine List.forall_mem_cons.2 ⟨⟨fun negation => ?_, inside⟩, ready⟩
      refine Classical.byContradiction fun nonempty => ?_
      cases free ⟨negation, nonempty⟩

theorem Ready.after {levels : List Level} {sketch : Sketch} (ready : Ready levels)
    (full : sketch.Full) : (after levels sketch).Full := by
  cases levels with
  | nil => exact full
  | cons level outer =>
      obtain ⟨⟨vacant, inside⟩, outside⟩ := List.forall_mem_cons.1 ready
      refine ⟨fun negation => ?_, Sketch.allFull_append.2 ⟨inside, full, trivial⟩, outside⟩
      rw [vacant negation]
      exact Nat.le_refl 1

theorem Full.branch {level : Level} {outer : List Level} (full : (inside (level :: outer)).Full)
    (nonempty : level.children ≠ []) :
    (Sketch.branch level.connective level.children).Full := by
  refine ⟨nonempty, fun negation => ?_, full.2.1⟩
  have positive := List.length_pos_iff.2 nonempty
  have bound := full.1 negation
  omega

/-- How a move leads from one stage to another. -/
inductive Takes : Stage → Move → Stage → Prop where
  | opening {levels : List Level} (free : (inside levels).obstacle? = none)
      (connective : Connective) :
      Takes (inside levels) (.opening connective) (inside ({ connective } :: levels))
  | adding {levels : List Level} (free : (inside levels).obstacle? = none) (filter : Filter) :
      Takes (inside levels) (.adding filter) (after levels (.leaf filter))
  | replacing (levels : List Level) (former filter : Filter) :
      Takes (after levels (.leaf former)) (.replacing filter) (after levels (.leaf filter))
  | closing {level : Level} (outer : List Level) (nonempty : level.children ≠ []) :
      Takes (inside (level :: outer)) .closing
        (after outer (.branch level.connective level.children))

namespace Takes

variable {stage next : Stage} {move : Move}

/-- A move that succeeds leads from the builder's stage to another. -/
theorem of_step {latest : Option Filter} {builder moved : FilterBuilder}
    (situation : Situation stage latest builder) (ran : move.step builder = .ok () moved) :
    ∃ next leaf, Takes stage move next ∧ Situation next leaf moved := by
  cases move with
  | opening connective =>
      rcases situation.openConnective connective with
        ⟨levels, opened, rfl, free, opens, follows⟩ | ⟨violation, _, refused⟩
      · cases ran.symm.trans opens
        exact ⟨_, _, .opening free connective, follows⟩
      · cases ran.symm.trans refused
  | adding filter =>
      rcases situation.addLeaf filter with
        ⟨levels, added, rfl, free, adds, follows⟩ | ⟨violation, _, refused⟩
      · cases ran.symm.trans adds
        exact ⟨_, _, .adding free filter, follows⟩
      · cases ran.symm.trans refused
  | replacing filter =>
      rcases situation.replaceLeaf filter with
        ⟨levels, former, replaced, rfl, _, replaces, follows⟩ | ⟨_, refused⟩
      · cases ran.symm.trans replaces
        exact ⟨_, _, .replacing levels former filter, follows⟩
      · cases ran.symm.trans refused
  | closing =>
      rcases situation.closeConnective with
        ⟨level, outer, closed, rfl, nonempty, closes, follows⟩ | ⟨_, _, _, _, refused, _⟩
        | ⟨_, refused⟩
      · cases ran.symm.trans closes
        exact ⟨_, _, .closing outer nonempty, follows⟩
      · cases ran.symm.trans refused
      · cases ran.symm.trans refused

/-- A move that leads on succeeds, if it replaces no leaf. -/
theorem step {latest : Option Filter} {builder : FilterBuilder} (takes : Takes stage move next)
    (adds : ∀ filter, move ≠ .replacing filter) (situation : Situation stage latest builder) :
    ∃ leaf moved, move.step builder = .ok () moved ∧ Situation next leaf moved := by
  cases takes with
  | opening free connective =>
      rcases situation.openConnective connective with
        ⟨levels, opened, same, _, opens, follows⟩ | ⟨violation, blocked, _⟩
      · cases same
        exact ⟨_, opened, opens, follows⟩
      · cases free.symm.trans blocked
  | adding free filter =>
      rcases situation.addLeaf filter with
        ⟨levels, added, same, _, adds, follows⟩ | ⟨violation, blocked, _⟩
      · cases same
        exact ⟨_, added, adds, follows⟩
      · cases free.symm.trans blocked
  | replacing levels former filter => exact absurd rfl (adds filter)
  | closing outer nonempty =>
      rcases situation.closeConnective with
        ⟨level, _, closed, same, _, closes, follows⟩ | ⟨_, _, same, childless, _⟩ | ⟨none, _⟩
      · cases same
        exact ⟨_, closed, closes, follows⟩
      · cases same
        exact absurd childless nonempty
      · cases none

/-- The walk grows by the move, but for a leaf that is replaced. -/
theorem walk (takes : Takes stage move next) :
    next.walk = (record stage.walk.reverse move).reverse := by
  cases takes with
  | opening free connective => simp [record, Stage.walk, trail, Sketch.walkAll]
  | adding free filter =>
      rw [walk_after]
      simp [record, Stage.walk, Sketch.walk]
  | replacing levels former filter =>
      rw [walk_after, walk_after]
      simp [record, Sketch.walk]
  | @closing level outer nonempty =>
      rw [walk_after]
      simp [record, Stage.walk, Sketch.walk, trail]

theorem full (takes : Takes stage move next) (full : stage.Full) : next.Full := by
  cases takes with
  | opening free connective => exact ⟨fun _ => Nat.zero_le 1, trivial, full.ready free⟩
  | adding free filter => exact (full.ready free).after trivial
  | replacing levels former filter =>
      cases levels with
      | nil => trivial
      | cons level outer =>
          obtain ⟨single, inside, ready⟩ := full
          refine ⟨?_, ?_, ready⟩
          · rw [List.length_append] at single ⊢
            exact single
          · exact Sketch.allFull_append.2 ⟨(Sketch.allFull_append.1 inside).1, trivial, trivial⟩
  | closing outer nonempty => exact full.2.2.after (full.branch nonempty)

/-- A leaf on the walk was there before or comes with the move. -/
theorem adding_mem_walk {leaf : Filter} (takes : Takes stage move next)
    (listed : .adding leaf ∈ next.walk) :
    .adding leaf ∈ stage.walk ∨ move = .adding leaf ∨ move = .replacing leaf := by
  rw [takes.walk, List.mem_reverse] at listed
  rcases adding_mem_record listed with earlier | brought
  · exact .inl (List.mem_reverse.1 earlier)
  · exact .inr brought

/-- A connective that is opened or closed changes the depth by one. -/
theorem depth (takes : Takes stage move next) :
    next.levels.length + closings [move] = stage.levels.length + openings [move] := by
  cases takes with
  | opening free connective => rfl
  | adding free filter =>
      rw [length_levels_after]
      rfl
  | replacing levels former filter =>
      rw [length_levels_after, length_levels_after]
      rfl
  | closing outer nonempty =>
      rw [length_levels_after]
      rfl

end Takes

end Stage

/-! ## Sequences of moves -/

open Stage (Situation Takes)

/-- What moves have led to. -/
structure Traced (moves : List Move) (stage : Stage) : Prop where
  walk : stage.walk = settle moves
  full : stage.Full
  depth : stage.levels.length + closings moves = openings moves

theorem Traced.step {moves : List Move} {move : Move} {stage next : Stage}
    (traced : Traced moves stage) (takes : Takes stage move next) :
    Traced (moves ++ [move]) next := by
  refine ⟨?_, takes.full traced.full, ?_⟩
  · rw [takes.walk, traced.walk, settle, settle, List.reverse_reverse, List.foldl_append]
    rfl
  · have before := traced.depth
    have change := takes.depth
    simp only [closings, openings, List.count_append, List.countP_append] at before change ⊢
    omega

theorem traced_nil : Traced [] (.inside []) := ⟨rfl, trivial, rfl⟩

/-- A sequence of moves that succeeds is traced to the end. -/
theorem traced_replay {moves earlier : List Move} {stage : Stage} {latest : Option Filter}
    {builder built : FilterBuilder} (situation : Situation stage latest builder)
    (traced : Traced earlier stage) (ran : replay moves builder = .ok () built) :
    ∃ next leaf, Situation next leaf built ∧ Traced (earlier ++ moves) next := by
  induction moves generalizing earlier stage latest builder with
  | nil =>
      cases ran
      exact ⟨stage, latest, situation, (List.append_nil earlier).symm ▸ traced⟩
  | cons move rest further =>
      rw [replay, Step.bind_apply] at ran
      cases moved : move.step builder with
      | error error after =>
          rw [moved] at ran
          cases ran
      | ok _ middle =>
          rw [moved] at ran
          obtain ⟨next, leaf, takes, follows⟩ := Takes.of_step situation moved
          obtain ⟨last, final, ends, whole⟩ := further follows (traced.step takes) ran
          rw [List.append_assoc] at whole
          exact ⟨last, final, ends, whole⟩

theorem replay_append (front back : List Move) :
    replay (front ++ back) = (do replay front; replay back) := by
  induction front with
  | nil => rfl
  | cons move rest further => simp only [List.cons_append, replay, further, bind_assoc]

mutual

/-- The walk of a full sketch can be replayed wherever a node may follow. -/
theorem replay_walk : ∀ (sketch : Sketch) {levels : List Level} {latest : Option Filter}
    {builder : FilterBuilder}, sketch.Full → (Stage.inside levels).obstacle? = none →
      Situation (.inside levels) latest builder →
        ∃ leaf built, replay sketch.walk builder = .ok () built
          ∧ Situation (Stage.after levels sketch) leaf built
  | .leaf filter, levels, _, _, _, free, situation => by
      obtain ⟨leaf, added, adds, follows⟩ := (Takes.adding free filter).step nofun situation
      exact ⟨leaf, added, Step.bind_of_ok _ adds, follows⟩
  | .branch connective children, levels, _, _, ⟨nonempty, single, inside⟩, free, situation => by
      obtain ⟨_, opened, opens, follows⟩ := (Takes.opening free connective).step nofun situation
      have room : connective = .not → ([] ++ children).length ≤ 1 :=
        fun negation => Nat.le_of_eq (single negation)
      obtain ⟨_, filled, fills, holding⟩ := replay_walkAll children inside room follows
      obtain ⟨leaf, closed, closes, ends⟩ := (Takes.closing levels nonempty).step nofun holding
      refine ⟨leaf, closed, ?_, ends⟩
      rw [Sketch.walk, replay, Step.bind_of_ok _ opens, replay_append, Step.bind_of_ok _ fills]
      exact Step.bind_of_ok _ closes

/-- The walks of full sketches can be replayed inside a connective that has room for them. -/
theorem replay_walkAll : ∀ (sketches : List Sketch) {connective : Connective}
    {done : List Sketch} {outer : List Level} {latest : Option Filter} {builder : FilterBuilder},
    Sketch.AllFull sketches → (connective = .not → (done ++ sketches).length ≤ 1) →
      Situation (.inside (⟨connective, done⟩ :: outer)) latest builder →
        ∃ leaf built, replay (Sketch.walkAll sketches) builder = .ok () built
          ∧ Situation (.inside (⟨connective, done ++ sketches⟩ :: outer)) leaf built
  | [], _, done, _, latest, builder, _, _, situation =>
      ⟨latest, builder, rfl, (List.append_nil done).symm ▸ situation⟩
  | sketch :: rest, connective, done, outer, _, _, ⟨first, others⟩, room, situation => by
      have free : (Stage.inside (⟨connective, done⟩ :: outer)).obstacle? = none := by
        refine if_neg fun blocked => ?_
        obtain ⟨negation, nonempty⟩ := blocked
        have positive : 0 < done.length := List.length_pos_iff.2 nonempty
        have bound := room negation
        rw [List.length_append, List.length_cons] at bound
        omega
      obtain ⟨_, begun, begins, follows⟩ := replay_walk sketch first free situation
      have further : connective = .not → (done ++ [sketch] ++ rest).length ≤ 1 := by
        rw [List.append_assoc]
        exact room
      obtain ⟨leaf, built, continues, ends⟩ := replay_walkAll rest others further follows
      rw [List.append_assoc] at ends
      refine ⟨leaf, built, ?_, ends⟩
      rw [Sketch.walkAll, replay_append, Step.bind_of_ok _ begins, continues]

end

/-- **The builder makes the tree that was walked.** The walk of a filter with no childless AND
or OR can be replayed from the start, and finishing gives the filter. After any moves that
succeed, the depth is the number of openings without that of closings, and if finishing
succeeds, there is exactly one sketch whose walk the moves settle to, which is full and whose
filter is the result. If its leaves hold no filters, the result is the only filter with this
walk. The builder is empty after finishing. -/
theorem finish_replay :
    (∀ filter : Filter, filter.Populated →
      ∃ built, replay filter.sketch.walk {} = .ok () built ∧ finish built = .ok filter {})
    ∧ ∀ moves built, replay moves {} = .ok () built →
      built.depth + closings moves = openings moves
      ∧ ∀ filter after, finish built = .ok filter after →
        after = {}
        ∧ (∃ sketch : Sketch, sketch.Full ∧ sketch.filter = .ok filter
          ∧ ∀ other : Sketch, other.walk = settle moves ↔ other = sketch)
        ∧ ((∀ leaf, .adding leaf ∈ settle moves → leaf.sketch = .leaf leaf) →
          ∀ other : Filter, other.sketch.walk = settle moves ↔ other = filter) := by
  refine ⟨fun filter populated => ?_, fun moves built ran => ?_⟩
  · obtain ⟨leaf, built, ran, ends⟩ :=
      replay_walk filter.sketch populated.full rfl Stage.situation_empty
    refine ⟨built, ran, ?_⟩
    rcases ends.finish with ⟨root, same, finishes⟩ | ⟨_, _, same, _⟩
    · cases same
      rw [finishes, filter.filter_sketch]
    · cases same
  · obtain ⟨stage, leaf, situation, traced⟩ :=
      traced_replay Stage.situation_empty traced_nil ran
    refine ⟨situation.holds.depth ▸ traced.depth, fun filter after finished => ?_⟩
    rcases situation.finish with ⟨root, rfl, finishes⟩ | ⟨_, _, _, refused⟩
    · cases made : root.filter with
      | error error =>
          rw [made] at finishes
          cases finished.symm.trans finishes
      | ok whole =>
          rw [made] at finishes
          cases finished.symm.trans finishes
          have walked : root.walk = settle moves := traced.walk
          have unique : ∀ other : Sketch, other.walk = settle moves ↔ other = root :=
            fun other => ⟨fun same => Sketch.walk_injective (same.trans walked.symm),
              fun same => same ▸ walked⟩
          refine ⟨rfl, ⟨root, traced.full, made, unique⟩, fun plain other => ?_⟩
          have own : filter.sketch = root :=
            Sketch.Full.sketch_filter traced.full (walked ▸ plain) made
          rw [unique, ← own]
          exact ⟨Filter.sketch_injective, congrArg Filter.sketch⟩
    · cases finished.symm.trans refused

/-- An AND of which the only leaf is replaced. -/
def replacedLeaf : List Move :=
  [.opening .and, .adding (.present "c"), .replacing (.present "cn"), .closing]

/-- The leaf counts as it was last replaced, in the walk as well as in the filter. -/
theorem finish_replay_replacedLeaf :
    settle replacedLeaf = [.opening .and, .adding (.present "cn"), .closing]
    ∧ ∃ built, replay replacedLeaf {} = .ok () built ∧ built.depth = 0
      ∧ finish built = .ok (.and [.present "cn"]) {}
      ∧ ∀ other : Filter,
          other.sketch.walk = settle replacedLeaf ↔ other = .and [.present "cn"] := by
  have settled : settle replacedLeaf = [.opening .and, .adding (.present "cn"), .closing] := rfl
  obtain ⟨built, ran, finished⟩ : ∃ built, replay replacedLeaf {} = .ok () built
      ∧ finish built = .ok (.and [.present "cn"]) {} := ⟨_, rfl, rfl⟩
  obtain ⟨balance, tells⟩ := finish_replay.2 replacedLeaf built ran
  refine ⟨settled, built, ran, ?_, finished, (tells _ _ finished).2.2 fun leaf listed => ?_⟩
  · exact Nat.add_right_cancel (m := 1) balance
  · rw [settled] at listed
    obtain rfl : leaf = .present "cn" := by simpa using listed
    rfl

end FilterBuilder

end LdapWire
