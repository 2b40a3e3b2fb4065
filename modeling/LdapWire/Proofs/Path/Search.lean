import LdapWire.Proofs.Path.Leaf
import LdapWire.Proofs.Path.Operation
import LdapWire.Proofs.Reading.Search

/-!
# Paths through searches

A well-formed filter is a path in every place where a filter may begin, however
deep it is nested (`Filter.path`), and the builder holds it at the end of that
path. A search request is a path around its filter.
-/

set_option autoImplicit false

namespace LdapWire

open Ber
open FilterBuilder (OpenConnective Walk)
open FilterBuilder.Walk (Editing)
open Grammar (Action Rule State)
open OpenConnective (filterState nextState)

variable {registry : Registry} {draft : Draft} {request : SearchRequest}
  {levels : List OpenConnective} {builder : FilterBuilder}

namespace Filter

/-- Whether layouts lead from the place of a filter to the place behind it, and
leave a builder that holds a walk with the filter in it. -/
def Lands (registry : Registry) (draft : Draft) (levels : List OpenConnective)
    (builder : FilterBuilder) (filter : Filter) : Prop :=
  ∃ after, (Walk.after levels filter).Built after
    ∧ Path registry [filter.layout] (filterState levels) { draft with filter := builder }
        (nextState levels) { draft with filter := after }

/-! ## Leaves -/

/-- A leaf that is opened blank, up to the end of its content. -/
theorem exists_leaf (searching : draft.operation = some (.searchRequest request))
    (built : (Walk.inside levels).Built builder) (room : Walk.HasRoom levels) {blank leaf : Filter}
    (kind : blank.nodeKind = .leaf blank) {parts : List Layout} {inner last : State}
    (content : LeafPath registry parts inner blank last leaf) :
    ∃ opened after, Draft.onFilter (FilterBuilder.addLeaf blank) { draft with filter := builder }
        = .ok () { draft with filter := opened }
      ∧ Editing levels leaf after
      ∧ Path registry parts inner { draft with filter := opened } last
          { draft with filter := after } := by
  obtain ⟨opened, ran, editing⟩ := built.addLeaf room kind
  obtain ⟨after, editing, path⟩ := content draft request levels opened searching editing
  exact ⟨opened, after, SearchReading.onFilter_ok draft ran, editing, path⟩

theorem lands_compare (searching : draft.operation = some (.searchRequest request))
    (built : (Walk.inside levels).Built builder) (room : Walk.HasRoom levels)
    (comparison : Comparison) {assertion : Assertion}
    (valid : (Filter.compare comparison assertion).WellFormed) :
    Lands registry draft levels builder (.compare comparison assertion) := by
  rw [Filter.WellFormed] at valid
  obtain ⟨opened, after, ran, editing, path⟩ :=
    @exists_leaf registry draft request levels builder searching built room _ _ rfl _ _ _
      (LeafPath.comparison comparison valid)
  refine ⟨after, editing.built, ?_⟩
  rw [Filter.layout]
  have found : (filterState levels).transition? comparison.tag = some (Rule.opening comparison.tag
      (.openComparison comparison) .avaDesc (nextState levels)).transition := by
    cases levels <;> cases comparison <;> rfl
  exact .opening found (fun _ => ran) path rfl .done

theorem lands_substrings (searching : draft.operation = some (.searchRequest request))
    (built : (Walk.inside levels).Built builder) (room : Walk.HasRoom levels)
    {pattern : Substrings} (valid : (Filter.substrings pattern).WellFormed) :
    Lands registry draft levels builder (.substrings pattern) := by
  obtain ⟨opened, after, ran, editing, path⟩ :=
    @exists_leaf registry draft request levels builder searching built room _ _ rfl _ _ _
      (LeafPath.substrings valid)
  refine ⟨after, editing.built, ?_⟩
  rw [Filter.layout, Substrings.layout_eq valid]
  have found : (filterState levels).transition? 0xA4 = some (Rule.opening 0xA4
      .openSubstrings .substringsType (nextState levels)).transition := by
    cases levels <;> rfl
  exact .opening found (fun _ => ran) path rfl .done

theorem lands_present (built : (Walk.inside levels).Built builder) (room : Walk.HasRoom levels)
    {description : String} (valid : (Filter.present description).WellFormed) :
    Lands registry draft levels builder (.present description) := by
  rw [Filter.WellFormed] at valid
  have kind : (Filter.present description).nodeKind = .leaf (.present description) := rfl
  obtain ⟨after, ran, editing⟩ := built.addLeaf room kind
  refine ⟨after, editing.built, ?_⟩
  rw [Filter.layout, Layout.attributeName_eq valid]
  have found : (filterState levels).transition? 0x87
      = some (Rule.primitive 0x87 .addPresent (nextState levels)).transition := by
    cases levels <;> rfl
  exact .field (Content.nonEmptyText _) valid (fun _ => rfl) found
    (SearchReading.onFilter_ok draft ran) .done

theorem lands_extensible (searching : draft.operation = some (.searchRequest request))
    (built : (Walk.inside levels).Built builder) (room : Walk.HasRoom levels)
    {condition : ExtensibleMatch} (valid : (Filter.extensible condition).WellFormed) :
    Lands registry draft levels builder (.extensible condition) := by
  obtain ⟨last, complete, content⟩ := @LeafPath.extensible registry condition valid
  obtain ⟨opened, after, ran, editing, path⟩ :=
    @exists_leaf registry draft request levels builder searching built room _ _ rfl _ _ _ content
  refine ⟨after, editing.built, ?_⟩
  rw [Filter.layout, ExtensibleMatch.layout_eq valid]
  have found : (filterState levels).transition? 0xA9 = some (Rule.bracket 0xA9
      .openExtensible .extensibleFirst .closeExtensible (nextState levels)).transition := by
    cases levels <;> rfl
  have checked := LeafReading.checkExtensible_eq draft editing
  rw [ExtensibleMatch.constrained valid] at checked
  exact .bracket found (fun _ _ => ran) path (fun _ => checked) complete .done

/-! ## Connectives -/

/-- A connective around filters that the builder takes one after another. -/
theorem lands_connective (built : (Walk.inside levels).Built builder) (room : Walk.HasRoom levels)
    {connective : Connective} {first : Filter} {rest : List Filter} {filter : Filter}
    (kind : filter.nodeKind = .connective connective) (children : filter.children = first :: rest)
    {tag : UInt8} (layout : filter.layout = .constructed tag (Filter.layouts (first :: rest)))
    (found : (filterState levels).transition? tag = some (Rule.bracket tag
      (.openConnective connective) .filterChildren .closeConnective (nextState levels)).transition)
    (inside : ∀ {opened}, (Walk.inside ({ connective } :: levels)).Built opened →
      ∃ held, (Walk.inside ({ connective, children := first :: rest } :: levels)).Built held
        ∧ Path registry (Filter.layouts (first :: rest)) .filterChildren
            { draft with filter := opened } .filterChildren { draft with filter := held }) :
    Lands registry draft levels builder filter := by
  obtain ⟨opened, ran, built⟩ := built.openConnective room connective
  obtain ⟨held, built, path⟩ := inside built
  obtain ⟨after, closed, built⟩ := built.closeConnective kind children (List.cons_ne_nil _ _)
  refine ⟨after, built, ?_⟩
  have some_octet : 0 < Layout.sizeAll (Filter.layouts (first :: rest)) := by
    have sound := path.sound
    rw [Filter.layouts, Layout.AllSound] at sound
    have positive := Layout.size_pos sound.1
    rw [Filter.layouts, Layout.sizeAll_cons]
    omega
  rw [layout]
  refine .bracket found (fun tlv size => ?_) path
    (fun _ => SearchReading.onFilter_ok draft closed) rfl .done
  have filled : tlv.length ≠ 0 := by omega
  have opens : Draft.act registry (.openConnective connective) tlv
      = Draft.onFilter (FilterBuilder.openConnective connective) := if_neg filled
  rw [opens]
  exact SearchReading.onFilter_ok draft ran

mutual

/-- **Every well-formed filter** is a path wherever there is room for it. -/
theorem lands (searching : draft.operation = some (.searchRequest request)) :
    ∀ {filter : Filter} {levels : List OpenConnective} {builder : FilterBuilder},
      filter.WellFormed → (Walk.inside levels).Built builder → Walk.HasRoom levels →
        Lands registry draft levels builder filter
  | .and [], _, _, valid, _, _ => by
      rw [WellFormed] at valid
      exact absurd rfl valid.1
  | .or [], _, _, valid, _, _ => by
      rw [WellFormed] at valid
      exact absurd rfl valid.1
  | .and (first :: rest), levels, _, valid, built, room => by
      rw [WellFormed] at valid
      refine lands_connective built room rfl rfl (by rw [layout, layouts])
        (by cases levels <;> rfl) fun built => ?_
      exact landsAll searching valid.2 built nofun
  | .or (first :: rest), levels, _, valid, built, room => by
      rw [WellFormed] at valid
      refine lands_connective built room rfl rfl (by rw [layout, layouts])
        (by cases levels <;> rfl) fun built => ?_
      exact landsAll searching valid.2 built nofun
  | .not child, levels, _, valid, built, room => by
      rw [WellFormed] at valid
      refine lands_connective built room rfl rfl (by rw [layout, layouts, layouts])
        (by cases levels <;> rfl) fun built => ?_
      exact lands searching valid built fun _ => rfl
  | .compare comparison _, _, _, valid, built, room =>
      lands_compare searching built room comparison valid
  | .substrings _, _, _, valid, built, room => lands_substrings searching built room valid
  | .present _, _, _, valid, built, room => lands_present built room valid
  | .extensible _, _, _, valid, built, room => lands_extensible searching built room valid

/-- Filters one after another inside a connective that holds any number of them. -/
theorem landsAll (searching : draft.operation = some (.searchRequest request)) :
    ∀ {filters : List Filter} {level : OpenConnective} {outer : List OpenConnective}
      {builder : FilterBuilder}, AllWellFormed filters →
        (Walk.inside (level :: outer)).Built builder → level.connective ≠ .not →
          ∃ held,
            (Walk.inside ({ level with children := level.children ++ filters } :: outer)).Built held
            ∧ Path registry (layouts filters) .filterChildren { draft with filter := builder }
                .filterChildren { draft with filter := held }
  | [], level, outer, builder, _, built, _ => by
      refine ⟨builder, ?_, by rw [layouts]; exact .done⟩
      rw [List.append_nil]
      exact built
  | filter :: rest, level, outer, builder, valid, built, many => by
      rw [AllWellFormed] at valid
      obtain ⟨middle, built, first⟩ :=
        lands searching valid.1 built fun negation => absurd negation many
      have longer : (Walk.inside
          ({ level with children := level.children ++ [filter] } :: outer)).Built middle := built
      obtain ⟨held, built, others⟩ := landsAll searching valid.2 longer many
      rw [List.append_assoc] at built
      refine ⟨held, built, ?_⟩
      rw [layouts]
      exact first.append others

end

end Filter

/-! ## Search requests -/

theorem SearchRequest.route {id : Int32} (valid : request.WellFormed) :
    Operation.Route registry id .searchBase (.searchRequest request) := by
  obtain ⟨base, scope, aliases, sizeLimit, timeLimit, typesOnly, filter, selection⟩ := request
  obtain ⟨builder, built, filtered⟩ := @Filter.lands registry
    { id := some id,
      operation := some (.searchRequest
        { base, scope, aliases, sizeLimit, timeLimit, typesOnly }) }
    { base, scope, aliases, sizeLimit, timeLimit, typesOnly } rfl filter [] {} valid.filter
    Walk.built_empty trivial
  have stored := @SearchReading.storeSearchFilter id
    { base, scope, aliases, sizeLimit, timeLimit, typesOnly } builder filter built registry
  have selected : Path registry (selection.map (Layout.text Tag.octetString)) .attributeSelection
      { id := some id,
        operation := some (.searchRequest
          { base, scope, aliases, sizeLimit, timeLimit, typesOnly, filter }) }
      .attributeSelection
      { id := some id,
        operation := some (.searchRequest
          { base, scope, aliases, sizeLimit, timeLimit, typesOnly, filter, selection }) } :=
    .each (fun selection =>
        { id := some id,
          operation := some (.searchRequest
            { base, scope, aliases, sizeLimit, timeLimit, typesOnly, filter, selection }) })
      (fun _ _ _ => .field (Content.text _) trivial (fun _ => rfl) rfl rfl .done) []
  refine ⟨.searchEnd, rfl, ?_⟩
  rw [Operation.parts, SearchReading.layouts_eq valid]
  refine .append (.field (Content.text _) trivial (fun _ => rfl) rfl rfl ?_)
    (filtered.append (.opening rfl stored selected rfl .done))
  refine .field Content.searchScope trivial (fun _ => rfl) rfl rfl ?_
  refine .field Content.aliasPolicy trivial (fun _ => rfl) rfl rfl ?_
  refine .field (Content.nonNegative _) valid.sizeLimit (fun _ => rfl) rfl rfl ?_
  refine .field (Content.nonNegative _) valid.timeLimit (fun _ => rfl) rfl rfl ?_
  exact .field Content.truth trivial (fun _ => rfl) rfl rfl .done

end LdapWire
