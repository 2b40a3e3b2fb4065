import LdapWire.Proofs.Filter.Walk
import LdapWire.Proofs.Reading.Assertion

/-!
# Reading filters that hold no others

Comparisons, patterns of substrings and extensible matches are constructed
elements; the filter for a present attribute is primitive and has no states of
its own.
-/

set_option autoImplicit false

namespace LdapWire

open Ber
open FilterBuilder (OpenConnective)
open FilterBuilder.Walk (Editing)
open Grammar (State)

/-! ## Layouts -/

/-- The layouts of the parts of a pattern. -/
def Substrings.components (pattern : Substrings) : List Layout :=
  Layout.optional (Layout.primitive 0x80) pattern.initial
    ++ pattern.any.map (Layout.primitive 0x81)
    ++ Layout.optional (Layout.primitive 0x82) pattern.final

theorem Substrings.components_addAny {pattern : Substrings} (unfinished : pattern.final = none)
    (value : Bytes) :
    components { pattern with any := pattern.any ++ [value] }
      = pattern.components ++ [Layout.primitive 0x81 value] := by
  simp [components, unfinished, Layout.optional]

theorem Substrings.components_setFinal {pattern : Substrings} (unfinished : pattern.final = none)
    (value : Bytes) :
    components { pattern with final := some value }
      = pattern.components ++ [Layout.primitive 0x82 value] := by
  simp [components, unfinished, Layout.optional]

theorem Substrings.wellFormed_iff {pattern : Substrings} :
    (Filter.substrings pattern).WellFormed ↔ pattern.description ≠ ""
      ∧ (pattern.initial.isSome ∨ pattern.any ≠ [] ∨ pattern.final.isSome) := by
  rw [Filter.WellFormed]

theorem Substrings.layout_eq {pattern : Substrings}
    (valid : (Filter.substrings pattern).WellFormed) :
    pattern.layout = .constructed 0xA4
      [Layout.text Tag.octetString pattern.description,
        .constructed Tag.sequence pattern.components] := by
  obtain ⟨nonempty, component⟩ := wellFormed_iff.1 valid
  have complete :
      (pattern.initial.isNone && pattern.any.isEmpty && pattern.final.isNone) = false := by
    rcases component with initial | any | final
    · simp [← Option.not_isSome, initial]
    · simp [any]
    · simp [← Option.not_isSome, final]
  simp only [Substrings.layout, complete, Bool.false_eq_true, if_false, Layout.checked,
    Layout.attributeName_eq nonempty, Substrings.components]

/-- The layouts of the parts of an extensible match. -/
def ExtensibleMatch.components (condition : ExtensibleMatch) : List Layout :=
  Layout.optional (Layout.text 0x81) condition.rule
    ++ Layout.optional (Layout.text 0x82) condition.description
    ++ [Layout.primitive 0x83 condition.value]
    ++ if condition.dnAttributes then [Layout.boolean 0x84 true] else []

/-- A well-formed match names a rule or an attribute. -/
theorem ExtensibleMatch.constrained {condition : ExtensibleMatch}
    (valid : (Filter.extensible condition).WellFormed) :
    (condition.rule.isNone && condition.description.isNone) = false := by
  rw [Filter.WellFormed] at valid
  rcases valid.1 with some_rule | some_description
  · simp [← Option.not_isSome, some_rule]
  · simp [← Option.not_isSome, some_description]

theorem ExtensibleMatch.layout_eq {condition : ExtensibleMatch}
    (valid : (Filter.extensible condition).WellFormed) :
    condition.layout = .constructed 0xA9 condition.components := by
  obtain ⟨_, rule, description⟩ :
      (condition.rule.isSome ∨ condition.description.isSome) ∧ _ := by
    simpa only [Filter.WellFormed] using valid
  simp only [ExtensibleMatch.layout, constrained valid, Bool.false_eq_true, if_false,
    Layout.checked, Layout.optional_nonEmptyText rule, Layout.optional_attributeName description,
    ExtensibleMatch.components]

/-! ## States -/

/-- The states inside a leaf of a filter, which is a comparison, one of substrings or an
extensible match, with what has been read of it. The state `after` follows the element of the
leaf, which stands inside `outer`. -/
inductive LeafReading (after : State) (outer : List OpenElement) :
    State → Filter → List OpenElement → Prop where
  | comparison (comparison : Comparison) {state : State} {assertion : Assertion}
      {elements : List OpenElement}
      (inner : AssertionReading { action := none, resume := after } outer state assertion
        elements) :
      LeafReading after outer state (.compare comparison assertion) elements
  | substringsType :
      LeafReading after outer .substringsType (.substrings {})
        ({ close := { action := none, resume := after } } :: outer)
  | substringsSequence {description : String} (nonempty : description ≠ "") :
      LeafReading after outer .substringsSeq (.substrings { description })
        ({ close := { action := none, resume := after },
           parts := [Layout.text Tag.octetString description] } :: outer)
  | substringsFirst {description : String} (nonempty : description ≠ "") :
      LeafReading after outer .substringsFirst (.substrings { description })
        ({ close := { action := none, resume := .substringsEnd } }
          :: { close := { action := none, resume := after },
               parts := [Layout.text Tag.octetString description] } :: outer)
  | substringsAny (pattern : Substrings) (valid : (Filter.substrings pattern).WellFormed)
      (unfinished : pattern.final = none) :
      LeafReading after outer .substringsAny (.substrings pattern)
        ({ close := { action := none, resume := .substringsEnd }, parts := pattern.components }
          :: { close := { action := none, resume := after },
               parts := [Layout.text Tag.octetString pattern.description] } :: outer)
  | substringsFinal (pattern : Substrings) (valid : (Filter.substrings pattern).WellFormed) :
      LeafReading after outer .substringsFinal (.substrings pattern)
        ({ close := { action := none, resume := .substringsEnd }, parts := pattern.components }
          :: { close := { action := none, resume := after },
               parts := [Layout.text Tag.octetString pattern.description] } :: outer)
  | substrings (pattern : Substrings) (valid : (Filter.substrings pattern).WellFormed) :
      LeafReading after outer .substringsEnd (.substrings pattern)
        ({ close := { action := none, resume := after },
           parts := [Layout.text Tag.octetString pattern.description,
            Layout.constructed Tag.sequence pattern.components] } :: outer)
  | extensibleFirst :
      LeafReading after outer .extensibleFirst (.extensible {})
        ({ close := { action := some .closeExtensible, resume := after } } :: outer)
  | extensibleRule {rule : String} (nonempty : rule ≠ "") :
      LeafReading after outer .extensibleAfterRule (.extensible { rule := some rule })
        ({ close := { action := some .closeExtensible, resume := after },
           parts := [Layout.text 0x81 rule] } :: outer)
  | extensibleType (rule : Option String) (given : rule ≠ some "") {description : String}
      (nonempty : description ≠ "") :
      LeafReading after outer .extensibleAfterType
        (.extensible { rule, description := some description })
        ({ close := { action := some .closeExtensible, resume := after },
           parts := Layout.optional (Layout.text 0x81) rule ++ [Layout.text 0x82 description] }
          :: outer)
  | extensibleValue (rule description : Option String) (rule_given : rule ≠ some "")
      (description_given : description ≠ some "") (value : Bytes) :
      LeafReading after outer .extensibleAfterValue (.extensible { rule, description, value })
        ({ close := { action := some .closeExtensible, resume := after },
           parts := ExtensibleMatch.components { rule, description, value } } :: outer)
  | extensible (condition : ExtensibleMatch) (rule_given : condition.rule ≠ some "")
      (description_given : condition.description ≠ some "") :
      LeafReading after outer .extensibleEnd (.extensible condition)
        ({ close := { action := some .closeExtensible, resume := after },
           parts := condition.components } :: outer)

/-- The element of the leaf is open inside the others. -/
theorem LeafReading.length_lt {after state : State} {outer elements : List OpenElement}
    {leaf : Filter} (reading : LeafReading after outer state leaf elements) :
    outer.length < elements.length := by
  cases reading with
  | comparison comparison inner => cases inner <;> simp
  | _ =>
      simp only [List.length_cons]
      omega

/-! ## Changing the leaf -/

/-- Whether a step turns one current leaf into another, in the draft of a search
request, and does nothing else. -/
def Changes (step : Step Draft Unit) (leaf changed : Filter) : Prop :=
  ∀ (draft : Draft) (request : SearchRequest) (levels : List OpenConnective)
    (builder : FilterBuilder), draft.operation = some (.searchRequest request) →
      Editing levels leaf builder →
        ∃ replaced, step { draft with filter := builder } = .ok () { draft with filter := replaced }
          ∧ Editing levels changed replaced

namespace Changes

theorem updateLeaf {mismatch : Violation} {change : Filter → Option Filter}
    {leaf changed : Filter} (admitted : change leaf = some changed)
    (kind : changed.nodeKind = .leaf changed) :
    Changes (Draft.updateLeaf mismatch change) leaf changed := by
  intro draft request levels builder _ editing
  obtain ⟨replaced, ran, editing'⟩ := editing.replaceLeaf kind
  refine ⟨replaced, ?_, editing'⟩
  simp only [Draft.updateLeaf, Draft.onFilter, Step.bind_apply, editing.currentLeaf, admitted, ran]

theorem updateAssertion (comparison : Comparison) (assertion : Assertion)
    (change : Assertion → Assertion) :
    Changes (Draft.updateAssertion change) (.compare comparison assertion)
      (.compare comparison (change assertion)) := by
  intro draft request levels builder searching editing
  have kind : (Filter.compare comparison (change assertion)).nodeKind
      = .leaf (.compare comparison (change assertion)) := rfl
  obtain ⟨replaced, ran, editing'⟩ := editing.replaceLeaf kind
  refine ⟨replaced, ?_, editing'⟩
  simp only [Draft.updateAssertion, searching, Draft.updateLeaf, Draft.onFilter, Step.bind_apply,
    editing.currentLeaf, ran]

theorem updateSubstrings (pattern : Substrings) (change : Substrings → Substrings) :
    Changes (Draft.updateSubstrings change) (.substrings pattern)
      (.substrings (change pattern)) :=
  updateLeaf rfl rfl

theorem updateExtensible (condition : ExtensibleMatch)
    (change : ExtensibleMatch → ExtensibleMatch) :
    Changes (Draft.updateExtensible change) (.extensible condition)
      (.extensible (change condition)) :=
  updateLeaf rfl rfl

end Changes

/-! ## Elements inside a leaf -/

/-- Situations that hold leaves of a filter in the draft of a search request. -/
structure LeafHost (S : Situation) (after : State) (outer : List OpenElement)
    (levels : List OpenConnective) (draft : Draft) : Prop where
  searching : ∃ request, draft.operation = some (.searchRequest request)
  holds : ∀ {state leaf elements builder}, LeafReading after outer state leaf elements →
    Editing levels leaf builder → S state { draft with filter := builder } elements

namespace LeafReading

variable {S : Situation} {registry : Registry} {after : State} {outer : List OpenElement}
  {levels : List OpenConnective} {builder : FilterBuilder} {draft : Draft} {leaf : Filter}

/-- A change of the current leaf leads on. -/
theorem advance (host : LeafHost S after outer levels draft) (editing : Editing levels leaf builder)
    {step : Step Draft Unit} {changed : Filter} (changes : Changes step leaf changed)
    {state : State} {elements : List OpenElement}
    (reading : LeafReading after outer state changed elements) :
    ∃ reached, step { draft with filter := builder } = .ok () reached
      ∧ S state reached elements := by
  obtain ⟨request, searching⟩ := host.searching
  obtain ⟨replaced, ran, editing'⟩ := changes draft request levels builder searching editing
  exact ⟨_, ran, host.holds reading editing'⟩

/-- Elements inside a leaf lead on. -/
theorem element (host : LeafHost S after outer levels draft) {state : State}
    {elements : List OpenElement} (reading : LeafReading after outer state leaf elements)
    (editing : Editing levels leaf builder) :
    S.ReadsAll registry { draft with filter := builder } elements state.rules := by
  cases reading with
  | comparison comparison inner =>
      refine AssertionReading.element
        (fun assertion reached => ∃ builder, reached = { draft with filter := builder }
          ∧ Editing levels (.compare comparison assertion) builder)
        ?_ ?_ inner ⟨builder, rfl, editing⟩
      · rintro _ _ _ _ inner ⟨builder, rfl, editing⟩
        exact host.holds (.comparison comparison inner) editing
      · rintro assertion _ change ⟨builder, rfl, editing⟩
        obtain ⟨request, searching⟩ := host.searching
        obtain ⟨replaced, ran, changed⟩ := Changes.updateAssertion comparison assertion change
          draft request levels builder searching editing
        exact ⟨_, ran, replaced, rfl, changed⟩
  | substringsType =>
      exact ⟨.field (Content.nonEmptyText _) (fun _ => rfl) fun description nonempty =>
        advance host editing (.updateSubstrings _ fun pattern => { pattern with description })
          (.substringsSequence nonempty), trivial⟩
  | substringsSequence nonempty =>
      exact ⟨.wrapper (host.holds (.substringsFirst nonempty) editing), trivial⟩
  | @substringsFirst description nonempty =>
      refine ⟨.octets fun tlv => ?_, .octets fun tlv => ?_, .octets fun tlv => ?_, trivial⟩
      · exact advance host editing
          (.updateSubstrings _ fun pattern => { pattern with initial := some tlv.value })
          (.substringsAny { description, initial := some tlv.value }
            (Substrings.wellFormed_iff.2 ⟨nonempty, .inl rfl⟩) rfl)
      · exact advance host editing
          (.updateSubstrings _ fun pattern => { pattern with any := pattern.any ++ [tlv.value] })
          (.substringsAny { description, any := [tlv.value] }
            (Substrings.wellFormed_iff.2 ⟨nonempty, .inr (.inl (List.cons_ne_nil _ _))⟩) rfl)
      · exact advance host editing
          (.updateSubstrings _ fun pattern => { pattern with final := some tlv.value })
          (.substringsFinal { description, final := some tlv.value }
            (Substrings.wellFormed_iff.2 ⟨nonempty, .inr (.inr rfl)⟩))
  | substringsAny pattern valid unfinished =>
      refine ⟨.octets fun tlv => ?_, .octets fun tlv => ?_, trivial⟩
      · refine advance host editing
          (.updateSubstrings _ fun pattern => { pattern with any := pattern.any ++ [tlv.value] }) ?_
        have reached : LeafReading after outer _ _ _ :=
          .substringsAny { pattern with any := pattern.any ++ [tlv.value] }
            (Substrings.wellFormed_iff.2
              ⟨(Substrings.wellFormed_iff.1 valid).1, .inr (.inl (List.concat_ne_nil _ _))⟩)
            unfinished
        rw [Substrings.components_addAny unfinished] at reached
        exact reached
      · refine advance host editing
          (.updateSubstrings _ fun pattern => { pattern with final := some tlv.value }) ?_
        have reached : LeafReading after outer _ _ _ :=
          .substringsFinal { pattern with final := some tlv.value }
            (Substrings.wellFormed_iff.2
              ⟨(Substrings.wellFormed_iff.1 valid).1, .inr (.inr rfl)⟩)
        rw [Substrings.components_setFinal unfinished] at reached
        exact reached
  | substringsFinal => exact trivial
  | substrings => exact trivial
  | extensibleFirst =>
      refine ⟨.field (Content.nonEmptyText _) (fun _ => rfl) fun rule nonempty => ?_,
        .field (Content.nonEmptyText _) (fun _ => rfl) fun description nonempty => ?_,
        .octets fun tlv => ?_, trivial⟩
      · exact advance host editing
          (.updateExtensible _ fun condition => { condition with rule := some rule })
          (.extensibleRule nonempty)
      · exact advance host editing
          (.updateExtensible _ fun condition => { condition with description := some description })
          (.extensibleType none nofun nonempty)
      · exact advance host editing
          (.updateExtensible _ fun condition => { condition with value := tlv.value })
          (.extensibleValue none none nofun nofun tlv.value)
  | @extensibleRule rule present =>
      have given : some rule ≠ some "" := fun empty => present (Option.some.inj empty)
      refine ⟨.field (Content.nonEmptyText _) (fun _ => rfl) fun description nonempty => ?_,
        .octets fun tlv => ?_, trivial⟩
      · exact advance host editing
          (.updateExtensible _ fun condition => { condition with description := some description })
          (.extensibleType (some rule) given nonempty)
      · exact advance host editing
          (.updateExtensible _ fun condition => { condition with value := tlv.value })
          (.extensibleValue (some rule) none given nofun tlv.value)
  | @extensibleType rule given description nonempty =>
      refine ⟨.octets fun tlv => ?_, trivial⟩
      have described : some description ≠ some "" := fun empty => nonempty (Option.some.inj empty)
      refine advance host editing
        (.updateExtensible _ fun condition => { condition with value := tlv.value }) ?_
      have reached : LeafReading after outer _ _ _ :=
        .extensibleValue rule (some description) given described tlv.value
      simp only [ExtensibleMatch.components, Bool.false_eq_true, if_false,
        List.append_nil] at reached
      exact reached
  | extensibleValue rule description rule_given description_given value =>
      refine ⟨.flag (OpenElement.not_isConnective nofun) (fun _ => rfl) fun dnAttributes => ?_,
        trivial⟩
      refine advance host editing
        (.updateExtensible _ fun condition => { condition with dnAttributes }) ?_
      have reached : LeafReading after outer _ _ _ :=
        .extensible { rule, description, value, dnAttributes } rule_given description_given
      simpa only [OpenElement.add, ExtensibleMatch.components, Bool.false_eq_true, if_false,
        List.append_nil] using reached
  | extensible => exact trivial

theorem checkExtensible_eq (draft : Draft) {condition : ExtensibleMatch}
    (editing : Editing levels (.extensible condition) builder) :
    Draft.checkExtensible { draft with filter := builder } =
      if condition.rule.isNone && condition.description.isNone then
        .error (.violation .unconstrainedMatch) { draft with filter := builder }
      else .ok () { draft with filter := builder } := by
  simp only [Draft.checkExtensible, Draft.onFilter, Step.bind_apply, editing.currentLeaf]
  cases condition.rule.isNone && condition.description.isNone <;> rfl

/-- A match that names a rule or an attribute is accepted at its end. -/
theorem closeExtensible {condition : ExtensibleMatch}
    (editing : Editing levels (.extensible condition) builder)
    (rule_given : condition.rule ≠ some "") (description_given : condition.description ≠ some "") :
    Draft.checkExtensible.Meets { draft with filter := builder }
      (fun _ after => (Filter.extensible condition).WellFormed
        ∧ after = { draft with filter := builder })
      (CodecError.Blameless registry) := by
  have ran := checkExtensible_eq draft editing
  split at ran
  · exact Step.Meets.of_error ran (CodecError.blameless_of_eq_false rfl)
  · rename_i constrained
    refine Step.Meets.of_ok ran ⟨?_, rfl⟩
    rw [Filter.WellFormed]
    refine ⟨?_, rule_given, description_given⟩
    cases rule : condition.rule with
    | some rule => exact .inl rfl
    | none =>
        cases description : condition.description with
        | some description => exact .inr rfl
        | none => simp [rule, description] at constrained

/-- The end of an element inside a leaf leads on, and so does the end of the leaf
itself, provided that a situation may hold the leaf once it is finished. -/
theorem ending (host : LeafHost S after outer levels draft)
    (lands : ∀ {leaf builder}, Editing levels leaf builder → leaf.WellFormed →
      S after { draft with filter := builder } (OpenElement.add [leaf.layout] outer))
    {state : State} {top : OpenElement} {rest : List OpenElement}
    (reading : LeafReading after outer state leaf (top :: rest))
    (editing : Editing levels leaf builder) (canEnd : state.canEnd = true) :
    S.Ends registry { draft with filter := builder } top rest := by
  cases reading with
  | comparison comparison inner =>
      cases inner with
      | description | value => cases canEnd
      | @finished description nonempty value =>
          refine .wrapper comparison.tag ?_
          have reached := lands editing (by rw [Filter.WellFormed]; exact nonempty)
          rw [Filter.layout, Assertion.layouts_eq nonempty] at reached
          exact reached
  | substringsType | substringsSequence | substringsFirst => cases canEnd
  | substringsAny pattern valid =>
      exact .wrapper Tag.sequence (host.holds (.substrings pattern valid) editing)
  | substringsFinal pattern valid =>
      exact .wrapper Tag.sequence (host.holds (.substrings pattern valid) editing)
  | substrings pattern valid =>
      refine .wrapper 0xA4 ?_
      have reached := lands editing valid
      rw [Filter.layout, Substrings.layout_eq valid] at reached
      exact reached
  | extensibleFirst | extensibleRule | extensibleType => cases canEnd
  | extensibleValue rule description rule_given description_given value =>
      refine .actionMeets 0xA9 fun tlv => ?_
      refine (closeExtensible editing rule_given description_given).mono fun _ reached ended => ?_
      obtain ⟨valid, rfl⟩ := ended
      have reached := lands editing valid
      rw [Filter.layout, ExtensibleMatch.layout_eq valid] at reached
      exact reached
  | extensible condition rule_given description_given =>
      refine .actionMeets 0xA9 fun tlv => ?_
      refine (closeExtensible editing rule_given description_given).mono fun _ reached ended => ?_
      obtain ⟨valid, rfl⟩ := ended
      have reached := lands editing valid
      rw [Filter.layout, ExtensibleMatch.layout_eq valid] at reached
      exact reached

end LeafReading

end LdapWire
