import LdapWire.Proofs.Path.Basic
import LdapWire.Proofs.Reading.Leaf

/-!
# Paths through filters that hold no others

While the parts of a leaf are read, the filter builder changes its latest node and
nothing else. `LeafPath` is a path of which only these changes are told, so that
leaves can be put together without a look at the builder.
-/

set_option autoImplicit false

namespace LdapWire

open Ber
open FilterBuilder (OpenConnective Walk)
open FilterBuilder.Walk (Editing)
open Grammar (Action Rule State)

/-- Layouts that lead from a state in which a leaf is the latest node to a state
in which another leaf has taken its place, in the draft of a search request. -/
def LeafPath (registry : Registry) (layouts : List Layout) (state : State) (leaf : Filter)
    (final : State) (changed : Filter) : Prop :=
  ∀ (draft : Draft) (request : SearchRequest) (levels : List OpenConnective)
    (builder : FilterBuilder), draft.operation = some (.searchRequest request) →
      Editing levels leaf builder →
        ∃ replaced, Editing levels changed replaced
          ∧ Path registry layouts state { draft with filter := builder } final
              { draft with filter := replaced }

namespace LeafPath

variable {registry : Registry} {state next final : State} {leaf between changed : Filter}
  {tag : UInt8} {rest : List Layout}

theorem done : LeafPath registry [] state leaf state leaf :=
  fun _ _ _ builder _ editing => ⟨builder, editing, .done⟩

/-- A field whose value is written as it is read. -/
theorem field {α : Type} {read : Bytes → Codec α} {write : α → Bytes} {valid : α → Prop}
    {action : Action} {set : α → Step Draft Unit} (content : Content read write valid) {value : α}
    (accepted : valid value)
    (acts : ∀ tlv, Draft.act registry action tlv = (do set (← Step.lift (read tlv.value))))
    (found : state.transition? tag = some (Rule.primitive tag action next).transition)
    (changes : Changes (set value) leaf between)
    (further : LeafPath registry rest next between final changed) :
    LeafPath registry (.primitive tag (write value) :: rest) state leaf final changed := by
  intro draft request levels builder searching editing
  obtain ⟨middle, ran, editing⟩ := changes draft request levels builder searching editing
  obtain ⟨replaced, editing, path⟩ := further draft request levels middle searching editing
  exact ⟨replaced, editing, .field content accepted acts found ran path⟩

/-- A field whose octets are taken as they are. -/
theorem octets {action : Action} {step : Step Draft Unit} {content : Bytes}
    (found : state.transition? tag = some (Rule.primitive tag action next).transition)
    (acts : ∀ tlv : Tlv, tlv.value = content → Draft.act registry action tlv = step)
    (changes : Changes step leaf between)
    (further : LeafPath registry rest next between final changed) :
    LeafPath registry (.primitive tag content :: rest) state leaf final changed := by
  intro draft request levels builder searching editing
  obtain ⟨middle, ran, editing⟩ := changes draft request levels builder searching editing
  obtain ⟨replaced, editing, path⟩ := further draft request levels middle searching editing
  refine ⟨replaced, editing, .octets (fun tlv spelled => ?_) found path⟩
  rw [acts tlv spelled, ran]

theorem wrapper {parts : List Layout} {inner last : State}
    (found : state.transition? tag = some (Rule.wrapper tag inner next).transition)
    (content : LeafPath registry parts inner leaf last between) (canEnd : last.canEnd = true)
    (further : LeafPath registry rest next between final changed) :
    LeafPath registry (.constructed tag parts :: rest) state leaf final changed := by
  intro draft request levels builder searching editing
  obtain ⟨middle, editing, inside⟩ := content draft request levels builder searching editing
  obtain ⟨replaced, editing, path⟩ := further draft request levels middle searching editing
  exact ⟨replaced, editing, .wrapper found inside canEnd path⟩

/-! ## Comparisons -/

theorem comparison (comparison : Comparison) {assertion : Assertion}
    (nonempty : assertion.description ≠ "") :
    LeafPath registry assertion.layouts .avaDesc (.compare comparison {}) .avaEnd
      (.compare comparison assertion) := by
  obtain ⟨description, value⟩ := assertion
  rw [Assertion.layouts_eq nonempty]
  refine .field (Content.nonEmptyText _) nonempty (fun _ => rfl) rfl
    (.updateAssertion comparison _ _) ?_
  exact .octets rfl (fun _ spelled => by subst spelled; rfl)
    (.updateAssertion comparison _ fun assertion => { assertion with value }) .done

/-! ## Substrings -/

/-- The parts of a pattern behind its initial part. The pattern may end unless all
parts are missing. -/
theorem substringsTail (description : String) (initial : Option Bytes) (later : List Bytes)
    (final : Option Bytes) {state : State}
    (position : state = .substringsFirst ∨ state = .substringsAny)
    (ends : state.canEnd = true ∨ later ≠ [] ∨ final.isSome) (any : List Bytes) :
    ∃ last : State, last.canEnd = true
      ∧ LeafPath registry (later.map (Layout.primitive 0x81)
            ++ Layout.optional (Layout.primitive 0x82) final)
          state (.substrings { description, initial, any })
          last (.substrings { description, initial, any := any ++ later, final }) := by
  induction later generalizing state any with
  | nil =>
      rw [List.append_nil]
      cases final with
      | none =>
          have complete : state.canEnd = true := by
            rcases ends with complete | nonempty | given
            · exact complete
            · exact absurd rfl nonempty
            · cases given
          exact ⟨state, complete, .done⟩
      | some final =>
          have found : state.transition? 0x82
              = some (Rule.primitive 0x82 .setSubstringFinal .substringsFinal).transition := by
            rcases position with rfl | rfl <;> rfl
          refine ⟨.substringsFinal, rfl, ?_⟩
          exact .octets found (fun _ spelled => by subst spelled; rfl)
            (.updateSubstrings _ fun pattern => { pattern with final := some final }) .done
  | cons value later further =>
      have found : state.transition? 0x81
          = some (Rule.primitive 0x81 .addSubstringAny .substringsAny).transition := by
        rcases position with rfl | rfl <;> rfl
      obtain ⟨last, complete, path⟩ :=
        @further .substringsAny (.inr rfl) (.inl rfl) (any ++ [value])
      rw [List.append_assoc] at path
      refine ⟨last, complete, ?_⟩
      exact .octets found (fun _ spelled => by subst spelled; rfl)
        (.updateSubstrings _ fun pattern => { pattern with any := pattern.any ++ [value] }) path

theorem substringsComponents {pattern : Substrings}
    (valid : (Filter.substrings pattern).WellFormed) :
    ∃ last : State, last.canEnd = true
      ∧ LeafPath registry pattern.components .substringsFirst
          (.substrings { description := pattern.description }) last (.substrings pattern) := by
  obtain ⟨description, initial, any, final⟩ := pattern
  obtain ⟨_, component⟩ := Substrings.wellFormed_iff.1 valid
  rw [Substrings.components, List.append_assoc]
  cases initial with
  | none =>
      have ends : State.substringsFirst.canEnd = true ∨ any ≠ [] ∨ final.isSome = true := by
        rcases component with given | rest
        · cases given
        · exact .inr rest
      exact substringsTail description none any final (.inl rfl) ends []
  | some initial =>
      obtain ⟨last, complete, path⟩ := @substringsTail registry description (some initial) any final
        .substringsAny (.inr rfl) (.inl rfl) []
      refine ⟨last, complete, ?_⟩
      exact .octets rfl (fun _ spelled => by subst spelled; rfl)
        (.updateSubstrings _ fun pattern => { pattern with initial := some initial }) path

theorem substrings {pattern : Substrings} (valid : (Filter.substrings pattern).WellFormed) :
    LeafPath registry [Layout.text Tag.octetString pattern.description,
        .constructed Tag.sequence pattern.components]
      .substringsType (.substrings {}) .substringsEnd (.substrings pattern) := by
  obtain ⟨nonempty, _⟩ := Substrings.wellFormed_iff.1 valid
  obtain ⟨last, complete, path⟩ := @substringsComponents registry pattern valid
  refine .field (Content.nonEmptyText _) nonempty (fun _ => rfl) rfl (.updateSubstrings _ _) ?_
  exact .wrapper rfl path complete .done

/-! ## Extensible matches -/

/-- The value of an extensible match and what follows it. -/
theorem extensibleTail (rule description : Option String) (value : Bytes) (dnAttributes : Bool)
    (found : state.transition? 0x83
      = some (Rule.primitive 0x83 .setMatchValue .extensibleAfterValue).transition) :
    ∃ last : State, last.canEnd = true
      ∧ LeafPath registry (.primitive 0x83 value
            :: if dnAttributes then [Layout.boolean 0x84 true] else [])
          state (.extensible { rule, description })
          last (.extensible { rule, description, value, dnAttributes }) := by
  cases dnAttributes with
  | false =>
      refine ⟨.extensibleAfterValue, rfl, ?_⟩
      exact .octets found (fun _ spelled => by subst spelled; rfl)
        (.updateExtensible _ fun condition => { condition with value }) .done
  | true =>
      refine ⟨.extensibleEnd, rfl, ?_⟩
      refine .octets found (fun _ spelled => by subst spelled; rfl)
        (.updateExtensible _ fun condition => { condition with value }) ?_
      exact .field Content.truth trivial (fun _ => rfl) rfl (.updateExtensible _ _) .done

theorem extensible {condition : ExtensibleMatch}
    (valid : (Filter.extensible condition).WellFormed) :
    ∃ last : State, last.canEnd = true
      ∧ LeafPath registry condition.components .extensibleFirst (.extensible {}) last
          (.extensible condition) := by
  obtain ⟨rule, description, value, dnAttributes⟩ := condition
  obtain ⟨named, described⟩ : rule ≠ some "" ∧ description ≠ some "" := by
    simp only [Filter.WellFormed] at valid
    exact valid.2
  cases rule with
  | none =>
      cases description with
      | none => exact extensibleTail none none value dnAttributes rfl
      | some description =>
          have nonempty : description ≠ "" := fun empty => described (congrArg some empty)
          obtain ⟨last, complete, path⟩ := @extensibleTail registry .extensibleAfterType none
            (some description) value dnAttributes rfl
          exact ⟨last, complete, .field (Content.nonEmptyText _) nonempty (fun _ => rfl) rfl
            (.updateExtensible _ _) path⟩
  | some rule =>
      have ruled : rule ≠ "" := fun empty => named (congrArg some empty)
      cases description with
      | none =>
          obtain ⟨last, complete, path⟩ := @extensibleTail registry .extensibleAfterRule (some rule)
            none value dnAttributes rfl
          exact ⟨last, complete, .field (Content.nonEmptyText _) ruled (fun _ => rfl) rfl
            (.updateExtensible _ _) path⟩
      | some description =>
          have nonempty : description ≠ "" := fun empty => described (congrArg some empty)
          obtain ⟨last, complete, path⟩ := @extensibleTail registry .extensibleAfterType (some rule)
            (some description) value dnAttributes rfl
          refine ⟨last, complete, .field (Content.nonEmptyText _) ruled (fun _ => rfl) rfl
            (.updateExtensible _ _) ?_⟩
          exact .field (Content.nonEmptyText _) nonempty (fun _ => rfl) rfl
            (.updateExtensible _ _) path

end LeafPath

end LdapWire
