import LdapWire.Proofs.Filter.Replay
import Mathlib.Data.List.Induction

/-!
# Calls that a filter builder refuses

A builder may be called in any order, and goes on after a call that failed. Almost all
refusals leave it as it was (`refusal_cases`): nodes, open connectives, root and current leaf.

There is one exception. To close a connective without children is refused only after the
connective has been taken off the stack, so the builder goes on as if it had been closed. An
AND or OR without children is handed over with the tree then, and a NOT without a child makes
`finish` fail when the nodes have been given up already. `Slipped` says that such a refusal
has happened. Without one, the stage of the builder stays full (`Sound`), and no filter that
is finished has an AND or OR without children unless it was added as a leaf.
-/

set_option autoImplicit false

namespace LdapWire

namespace FilterBuilder

open Stage (Situation Takes)

/-- A call of a builder. The current leaf may also be looked at without being replaced. -/
inductive Call where
  | making (move : Move)
  | looking
  | finishing
  | resetting
deriving DecidableEq

/-- What a builder does at a call, and the filter that it shows or hands over. -/
def Call.step : Call → Step FilterBuilder (Option Filter)
  | .making move => do
      move.step
      return none
  | .looking => do
      return some (← currentLeaf)
  | .finishing => do
      return some (← finish)
  | .resetting => do
      modify fun _ => {}
      return none

/-- The builder after a call, which may have failed. -/
def Call.next (builder : FilterBuilder) (call : Call) : FilterBuilder :=
  match call.step builder with
  | .ok _ after | .error _ after => after

/-- The builder after some calls from the start, failed ones included. -/
def reached (calls : List Call) : FilterBuilder := calls.foldl Call.next {}

/-- Whether a leaf was added or put in the place of another one. -/
def Brings (calls : List Call) (leaf : Filter) : Prop :=
  .making (.adding leaf) ∈ calls ∨ .making (.replacing leaf) ∈ calls

/-- Whether it was refused in the course of some calls to close a connective without
children. -/
def Slipped (calls : List Call) : Prop :=
  ∃ earlier later after, calls = earlier ++ .making .closing :: later
    ∧ closeConnective (reached earlier) = .error (.violation .childlessConnective) after

theorem reached_append (calls : List Call) (call : Call) :
    reached (calls ++ [call]) = Call.next (reached calls) call := by
  rw [reached, List.foldl_append]
  rfl

theorem Slipped.append {calls : List Call} (slipped : Slipped calls) (call : Call) :
    Slipped (calls ++ [call]) := by
  obtain ⟨earlier, later, after, rfl, refused⟩ := slipped
  refine ⟨earlier, later ++ [call], after, ?_, refused⟩
  rw [List.append_assoc, List.cons_append]

/-! ## One call -/

section

variable {stage : Stage} {latest : Option Filter} {builder after : FilterBuilder}
  {error : CodecError}

/-- A move that is refused leaves the builder as it was, unless a connective without children
was to be closed: this one is no longer open. -/
theorem Move.refused (situation : Situation stage latest builder) {move : Move}
    (failed : move.step builder = .error error after) :
    after = builder
      ∨ move = .closing ∧ error = .violation .childlessConnective
        ∧ after = { builder with parents := builder.parents.tail }
        ∧ ∃ next, Situation next none after := by
  cases move with
  | opening connective =>
      rcases situation.openConnective connective with ⟨_, _, _, _, opens, _⟩ | ⟨_, _, refused⟩
      · cases failed.symm.trans opens
      · cases failed.symm.trans refused
        exact .inl rfl
  | adding filter =>
      rcases situation.addLeaf filter with ⟨_, _, _, _, adds, _⟩ | ⟨_, _, refused⟩
      · cases failed.symm.trans adds
      · cases failed.symm.trans refused
        exact .inl rfl
  | replacing filter =>
      rcases situation.replaceLeaf filter with ⟨_, _, _, _, _, replaces, _⟩ | ⟨_, refused⟩
      · cases failed.symm.trans replaces
      · cases failed.symm.trans refused
        exact .inl rfl
  | closing =>
      rcases situation.closeConnective with
        ⟨_, _, _, _, _, closes, _⟩ | ⟨_, _, _, _, refused, follows⟩ | ⟨_, refused⟩
      · cases failed.symm.trans closes
      · cases failed.symm.trans refused
        exact .inr ⟨rfl, rfl, rfl, _, follows⟩
      · cases failed.symm.trans refused
        exact .inl rfl

/-- **A call that is refused** leaves the builder as it was, but for two: the connective that
was to be closed without children is no longer open, and the tree that was to be finished with
a NOT without a child is gone. -/
theorem Call.refused (situation : Situation stage latest builder) {call : Call}
    (failed : call.step builder = .error error after) :
    after = builder
      ∨ (call = .making .closing ∧ error = .violation .childlessConnective
        ∧ after = { builder with parents := builder.parents.tail }
        ∧ ∃ next, Situation next none after)
      ∨ call = .finishing ∧ error = .violation .childlessNot ∧ after = {}
        ∧ ∃ root, stage = .finished root ∧ root.filter = .error error := by
  cases call with
  | making move =>
      rcases Move.refused situation (Step.error_of_bind_pure failed) with same | ⟨rfl, spoilt⟩
      · exact .inl same
      · exact .inr (.inl ⟨rfl, spoilt⟩)
  | looking =>
      have missing := Step.error_of_bind_pure failed
      rw [currentLeaf] at missing
      split at missing <;> cases missing
      exact .inl rfl
  | finishing =>
      have missing := Step.error_of_bind_pure failed
      rcases situation.finish with ⟨root, same, finishes⟩ | ⟨_, _, _, refused⟩
      · cases made : root.filter with
        | ok filter =>
            rw [made] at finishes
            cases missing.symm.trans finishes
        | error reason =>
            rw [made] at finishes
            cases missing.symm.trans finishes
            exact .inr (.inr ⟨rfl, Sketch.filter_eq_error made, rfl, root, same, made⟩)
      · cases missing.symm.trans refused
        exact .inl rfl
  | resetting => cases failed

/-- A call that succeeds is a move between stages, or changes nothing, or empties the builder. -/
theorem Call.succeeded (situation : Situation stage latest builder) {call : Call}
    {shown : Option Filter} (ran : call.step builder = .ok shown after) :
    after = builder ∨ after = {}
      ∨ ∃ move next leaf, call = .making move ∧ Takes stage move next
        ∧ Situation next leaf after := by
  cases call with
  | making move =>
      obtain ⟨_, moved⟩ := Step.ok_of_bind_pure ran
      obtain ⟨next, leaf, takes, follows⟩ := Takes.of_step situation moved
      exact .inr (.inr ⟨move, next, leaf, rfl, takes, follows⟩)
  | looking =>
      obtain ⟨_, looked⟩ := Step.ok_of_bind_pure ran
      rw [currentLeaf] at looked
      split at looked <;> cases looked
      exact .inl rfl
  | finishing =>
      obtain ⟨_, finished⟩ := Step.ok_of_bind_pure ran
      rcases situation.finish with ⟨root, _, finishes⟩ | ⟨_, _, _, refused⟩
      · cases made : root.filter with
        | ok filter =>
            rw [made] at finishes
            cases finished.symm.trans finishes
            exact .inr (.inl rfl)
        | error reason =>
            rw [made] at finishes
            cases finished.symm.trans finishes
      · cases finished.symm.trans refused
  | resetting =>
      cases ran
      exact .inr (.inl rfl)

end

/-! ## Calls one after another -/

/-- Whether a stage is full and has no leaves but those that some calls have brought. -/
structure Sound (calls : List Call) (stage : Stage) : Prop where
  full : stage.Full
  brought : ∀ leaf, .adding leaf ∈ stage.walk → Brings calls leaf

theorem sound_empty (calls : List Call) : Sound calls (.inside []) :=
  ⟨trivial, fun _ listed => nomatch listed⟩

theorem Brings.append {calls : List Call} {leaf : Filter} (brings : Brings calls leaf)
    (call : Call) : Brings (calls ++ [call]) leaf :=
  brings.imp (List.mem_append_left _) (List.mem_append_left _)

theorem Sound.append {calls : List Call} {stage : Stage} (sound : Sound calls stage)
    (call : Call) : Sound (calls ++ [call]) stage :=
  ⟨sound.full, fun leaf listed => (sound.brought leaf listed).append call⟩

theorem Sound.takes {calls : List Call} {stage next : Stage} {move : Move}
    (sound : Sound calls stage) (takes : Takes stage move next) :
    Sound (calls ++ [.making move]) next := by
  refine ⟨takes.full sound.full, fun leaf listed => ?_⟩
  rcases takes.adding_mem_walk listed with earlier | rfl | rfl
  · exact (sound.brought leaf earlier).append _
  · exact .inl (List.mem_append_right _ List.mem_cons_self)
  · exact .inr (List.mem_append_right _ List.mem_cons_self)

/-- The situation after some calls: sound, unless it was refused to close a connective without
children. -/
theorem exists_situation (calls : List Call) :
    ∃ stage latest, Situation stage latest (reached calls)
      ∧ (Slipped calls ∨ Sound calls stage) := by
  induction calls using List.reverseRecOn with
  | nil => exact ⟨_, _, Stage.situation_empty, .inr (sound_empty [])⟩
  | append_singleton calls call before =>
      obtain ⟨stage, latest, situation, kept⟩ := before
      rw [reached_append, Call.next]
      cases ran : call.step (reached calls) with
      | ok shown after =>
          rcases Call.succeeded situation ran with
            rfl | rfl | ⟨move, next, leaf, rfl, takes, follows⟩
          · exact ⟨stage, latest, situation, kept.imp (·.append call) (·.append call)⟩
          · exact ⟨_, _, Stage.situation_empty, .inr (sound_empty _)⟩
          · exact ⟨next, leaf, follows, kept.imp (·.append _) (·.takes takes)⟩
      | error error after =>
          rcases Call.refused situation ran with
            rfl | ⟨rfl, rfl, _, next, follows⟩ | ⟨_, _, rfl, _⟩
          · exact ⟨stage, latest, situation, kept.imp (·.append call) (·.append call)⟩
          · have closing := Step.error_of_bind_pure ran
            exact ⟨next, none, follows, .inl ⟨calls, [], after, rfl, closing⟩⟩
          · exact ⟨_, _, Stage.situation_empty, .inr (sound_empty _)⟩

/-- **What refusals leave behind.** After any calls, a call that fails leaves the builder as it
was, with two exceptions. Closing a connective without children takes it off the stack though
it is refused. And finishing a tree empties the builder though it fails, which only happens
after such a closing. Without such a closing, and where every leaf is populated, so is every
filter that is finished. -/
theorem refusal_cases (calls : List Call) :
    (∀ (call : Call) error after, call.step (reached calls) = .error error after →
      after = reached calls
        ∨ (call = .making .closing ∧ error = .violation .childlessConnective
          ∧ after = { reached calls with parents := (reached calls).parents.tail })
        ∨ call = .finishing ∧ error = .violation .childlessNot ∧ after = {} ∧ Slipped calls)
    ∧ (¬ Slipped calls → (∀ leaf, Brings calls leaf → leaf.Populated) →
      ∀ filter after, finish (reached calls) = .ok filter after → filter.Populated) := by
  obtain ⟨stage, latest, situation, kept⟩ := exists_situation calls
  refine ⟨fun call error after failed => ?_, fun clean populated filter after finished => ?_⟩
  · rcases Call.refused situation failed with
      same | ⟨closing, reason, popped, _⟩ | ⟨finishing, reason, emptied, root, rfl, childless⟩
    · exact .inl same
    · exact .inr (.inl ⟨closing, reason, popped⟩)
    · refine .inr (.inr ⟨finishing, reason, emptied, kept.resolve_right fun sound => ?_⟩)
      obtain ⟨made, succeeds⟩ := Sketch.Full.exists_filter sound.full
      cases childless.symm.trans succeeds
  · have sound := kept.resolve_left clean
    rcases situation.finish with ⟨root, rfl, finishes⟩ | ⟨_, _, _, refused⟩
    · cases made : root.filter with
      | ok whole =>
          rw [made] at finishes
          cases finished.symm.trans finishes
          refine Sketch.Full.populated sound.full (fun leaf listed => ?_) made
          exact populated leaf (sound.brought leaf listed)
      | error reason =>
          rw [made] at finishes
          cases finished.symm.trans finishes
    · cases finished.symm.trans refused

/-- An OR is opened and closed at once. The closing is refused, but the OR is not open any
more, and it is handed over without children. -/
theorem not_forall_refusals_unchanged :
    ¬ (∀ calls (call : Call) error after, call.step (reached calls) = .error error after →
        after = reached calls)
    ∧ ¬ ∀ calls, (∀ leaf, Brings calls leaf → leaf.Populated) →
        ∀ filter after, finish (reached calls) = .ok filter after → filter.Populated := by
  refine ⟨fun unchanged => ?_, fun populated => ?_⟩
  · have same := unchanged [.making (.opening .or)] (.making .closing) _ _ rfl
    exact absurd (congrArg parents same) (by decide)
  · have whole := populated [.making (.opening .or), .making .closing]
      (fun leaf brings => by rcases brings with listed | listed <;> simp at listed) (.or []) {} rfl
    exact whole.1 rfl

end FilterBuilder

end LdapWire
