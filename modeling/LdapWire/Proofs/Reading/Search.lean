import LdapWire.Proofs.Reading.Leaf

/-!
# Reading a search request

The filter of a search may nest without bound. While it is read, every open
connective of the filter builder is the connective of one open element, and the
filters finished in it are the parts read in that element (`connectives`).
-/

set_option autoImplicit false

namespace LdapWire

open Ber
open FilterBuilder (OpenConnective Walk)
open FilterBuilder.Walk (Editing)
open Grammar (Rule State)

namespace SearchRequest

/-- What the encoder writes before the filter. -/
def headLayouts (request : SearchRequest) : List Layout :=
  [Layout.text Tag.octetString request.base,
   Layout.integer Tag.enumerated request.scope.code,
   Layout.integer Tag.enumerated request.aliases.code,
   Layout.integer Tag.integer request.sizeLimit.toInt,
   Layout.integer Tag.integer request.timeLimit.toInt,
   Layout.boolean Tag.boolean request.typesOnly]

/-- Whether a request has what comes before the filter, and nothing after it. -/
structure Headed (request : SearchRequest) : Prop where
  sizeLimit : 0 ≤ request.sizeLimit
  timeLimit : 0 ≤ request.timeLimit
  selection : request.selection = []

end SearchRequest

/-! ## Open connectives -/

namespace OpenConnective

/-- The state in which the next filter may begin. -/
def filterState : List OpenConnective → State
  | [] => .searchFilter
  | _ :: _ => .filterChildren

/-- The state after a filter. -/
def nextState : List OpenConnective → State
  | [] => .searchAttributes
  | _ :: _ => .filterChildren

/-- The open elements of open connectives, inside others. -/
def elements (outside : List OpenElement) : List OpenConnective → List OpenElement
  | [] => outside
  | level :: outer =>
      { close := { action := some .closeConnective, resume := nextState outer },
        parts := Filter.layouts level.children } :: elements outside outer

/-- Whether the filters in some connectives are well formed, and a NOT holds one
of them at most, the connective inside it included. -/
def Sound : List OpenConnective → Prop
  | [] => True
  | level :: outer =>
      Filter.AllWellFormed level.children
        ∧ (level.connective = .not → level.children.length ≤ 1)
        ∧ Walk.HasRoom outer ∧ Sound outer

theorem rules_filterState (levels : List OpenConnective) :
    (filterState levels).rules = Rule.filters (nextState levels) := by
  cases levels <;> rfl

end OpenConnective

open OpenConnective (filterState nextState elements Sound)

/-! ## Situations -/

/-- The situations inside a search request. -/
inductive SearchReading (id : Int32) : Situation where
  | base :
      SearchReading id .searchBase { id := some id, operation := some (.searchRequest {}) }
        [{ close := .afterOperation }]
  | scope (base : String) :
      SearchReading id .searchScope { id := some id, operation := some (.searchRequest { base }) }
        [{ close := .afterOperation, parts := [Layout.text Tag.octetString base] }]
  | aliases (base : String) (scope : SearchScope) :
      SearchReading id .searchDeref
        { id := some id, operation := some (.searchRequest { base, scope }) }
        [{ close := .afterOperation,
           parts := [Layout.text Tag.octetString base, Layout.integer Tag.enumerated scope.code] }]
  | sizeLimit (base : String) (scope : SearchScope) (aliases : AliasPolicy) :
      SearchReading id .searchSizeLimit
        { id := some id, operation := some (.searchRequest { base, scope, aliases }) }
        [{ close := .afterOperation,
           parts := [Layout.text Tag.octetString base, Layout.integer Tag.enumerated scope.code,
            Layout.integer Tag.enumerated aliases.code] }]
  | timeLimit (base : String) (scope : SearchScope) (aliases : AliasPolicy) {sizeLimit : Int32}
      (bounded : 0 ≤ sizeLimit) :
      SearchReading id .searchTimeLimit
        { id := some id, operation := some (.searchRequest { base, scope, aliases, sizeLimit }) }
        [{ close := .afterOperation,
           parts := [Layout.text Tag.octetString base, Layout.integer Tag.enumerated scope.code,
            Layout.integer Tag.enumerated aliases.code,
            Layout.integer Tag.integer sizeLimit.toInt] }]
  | typesOnly (base : String) (scope : SearchScope) (aliases : AliasPolicy)
      {sizeLimit timeLimit : Int32} (bounded : 0 ≤ sizeLimit) (timely : 0 ≤ timeLimit) :
      SearchReading id .searchTypesOnly
        { id := some id,
          operation := some (.searchRequest { base, scope, aliases, sizeLimit, timeLimit }) }
        [{ close := .afterOperation,
           parts := [Layout.text Tag.octetString base, Layout.integer Tag.enumerated scope.code,
            Layout.integer Tag.enumerated aliases.code,
            Layout.integer Tag.integer sizeLimit.toInt,
            Layout.integer Tag.integer timeLimit.toInt] }]
  | filter {request : SearchRequest} (headed : request.Headed)
      {levels : List OpenConnective} {builder : FilterBuilder} (sound : Sound levels)
      (built : (Walk.inside levels).Built builder) :
      SearchReading id (filterState levels)
        { id := some id, operation := some (.searchRequest request), filter := builder }
        (elements [{ close := .afterOperation, parts := request.headLayouts }] levels)
  | leaf {request : SearchRequest} (headed : request.Headed)
      {levels : List OpenConnective} {builder : FilterBuilder} (sound : Sound levels)
      (room : Walk.HasRoom levels) {state : State} {leaf : Filter} {inside : List OpenElement}
      (inner : LeafReading (nextState levels)
        (elements [{ close := .afterOperation, parts := request.headLayouts }] levels)
        state leaf inside)
      (editing : Editing levels leaf builder) :
      SearchReading id state
        { id := some id, operation := some (.searchRequest request), filter := builder } inside
  | filtered {request : SearchRequest} (headed : request.Headed)
      {filter : Filter} {builder : FilterBuilder} (valid : filter.WellFormed)
      (built : (Walk.finished filter).Built builder) :
      SearchReading id .searchAttributes
        { id := some id, operation := some (.searchRequest request), filter := builder }
        [{ close := .afterOperation, parts := request.headLayouts ++ [filter.layout] }]
  | selection {request : SearchRequest} (valid : request.WellFormed) :
      SearchReading id .attributeSelection
        { id := some id, operation := some (.searchRequest request) }
        [{ close := { action := none, resume := .searchEnd },
           parts := request.selection.map (Layout.text Tag.octetString) },
         { close := .afterOperation, parts := request.headLayouts ++ [request.filter.layout] }]
  | finished {request : SearchRequest} (valid : request.WellFormed) :
      SearchReading id .searchEnd { id := some id, operation := some (.searchRequest request) }
        [{ close := .afterOperation,
           parts := request.headLayouts ++ [request.filter.layout,
            Layout.constructed Tag.sequence
              (request.selection.map (Layout.text Tag.octetString))] }]

namespace SearchReading

variable {id : Int32} {registry : Registry} {request : SearchRequest}
  {levels : List OpenConnective} {builder : FilterBuilder}

/-! ### Filters -/

theorem allWellFormed_append {front back : List Filter} (first : Filter.AllWellFormed front)
    (second : Filter.AllWellFormed back) : Filter.AllWellFormed (front ++ back) := by
  induction front with
  | nil => exact second
  | cons filter rest further =>
      rw [Filter.AllWellFormed] at first
      rw [List.cons_append, Filter.AllWellFormed]
      exact ⟨first.1, further first.2⟩

theorem layouts_append (front back : List Filter) :
    Filter.layouts (front ++ back) = Filter.layouts front ++ Filter.layouts back := by
  induction front with
  | nil => simp [Filter.layouts]
  | cons filter rest further => simp [Filter.layouts, further]

/-- A finished filter becomes the filter of the search, or a child of the
innermost connective. -/
theorem lands (headed : request.Headed) (sound : Sound levels) (room : Walk.HasRoom levels)
    {filter : Filter} (valid : filter.WellFormed)
    (built : (Walk.after levels filter).Built builder) :
    SearchReading id (nextState levels)
      { id := some id, operation := some (.searchRequest request), filter := builder }
      (OpenElement.add [filter.layout]
        (elements [{ close := .afterOperation, parts := request.headLayouts }] levels)) := by
  cases levels with
  | nil => exact filtered headed valid built
  | cons level outer =>
      obtain ⟨allValid, _, outerRoom, outerSound⟩ := sound
      have extended :
          Sound ({ level with children := level.children ++ [filter] } :: outer) := by
        refine ⟨allWellFormed_append allValid ?_, fun negation => ?_, outerRoom, outerSound⟩
        · rw [Filter.AllWellFormed, Filter.AllWellFormed]
          exact ⟨valid, trivial⟩
        · simp [room negation]
      have reached : SearchReading id _ _ _ :=
        SearchReading.filter headed extended built
      rw [elements, layouts_append, Filter.layouts, Filter.layouts] at reached
      exact reached

/-- The leaves that may be read below some connectives. -/
theorem leafHost (headed : request.Headed) (sound : Sound levels) (room : Walk.HasRoom levels) :
    LeafHost (SearchReading id) (nextState levels)
      (elements [{ close := .afterOperation, parts := request.headLayouts }] levels) levels
      { id := some id, operation := some (.searchRequest request) } where
  searching := ⟨request, rfl⟩
  holds := .leaf headed sound room

/-- A step of the filter builder within the draft of a search. -/
theorem onFilter_ok {α : Type} {step : Step FilterBuilder α} {value : α} {after : FilterBuilder}
    (draft : Draft) (ran : step builder = .ok value after) :
    Draft.onFilter step { draft with filter := builder }
      = .ok value { draft with filter := after } := by
  simp only [Draft.onFilter, ran]

/-- A filter more than a NOT can hold is refused. -/
theorem meets_of_full {step : Step FilterBuilder Unit} {post : Unit → Draft → Prop} (draft : Draft)
    (refused : step builder = .error (.violation .secondChild) builder) :
    (Draft.onFilter step).Meets { draft with filter := builder } post
      (CodecError.Blameless registry) := by
  simp only [Step.Meets, Draft.onFilter, refused]
  exact CodecError.blameless_of_eq_false rfl

/-- A leaf is opened, unless the connective around it is a NOT that is full. -/
theorem openLeaf (headed : request.Headed) (sound : Sound levels)
    (built : (Walk.inside levels).Built builder) {leaf : Filter} (kind : leaf.nodeKind = .leaf leaf)
    {state : State} {inside : List OpenElement}
    (inner : LeafReading (nextState levels)
      (elements [{ close := .afterOperation, parts := request.headLayouts }] levels)
      state leaf inside) :
    Step.Meets (Draft.onFilter (FilterBuilder.addLeaf leaf))
      { id := some id, operation := some (.searchRequest request), filter := builder }
      (fun _ after => SearchReading id state after inside) (CodecError.Blameless registry) := by
  by_cases room : Walk.HasRoom levels
  · obtain ⟨added, ran, editing⟩ := built.addLeaf room kind
    exact Step.Meets.of_ok
      (onFilter_ok { id := some id, operation := some (.searchRequest request) } ran)
      (.leaf headed sound room inner editing)
  · exact meets_of_full { id := some id, operation := some (.searchRequest request) }
      (built.addLeaf_of_full room leaf)

/-- A connective is opened, unless it is empty or has no room. -/
theorem openConnective (headed : request.Headed) (sound : Sound levels)
    (built : (Walk.inside levels).Built builder) (tag : UInt8) (connective : Connective) :
    (SearchReading id).Reads registry
      { id := some id, operation := some (.searchRequest request), filter := builder }
      (elements [{ close := .afterOperation, parts := request.headLayouts }] levels)
      (.bracket tag (.openConnective connective) .filterChildren .closeConnective
        (nextState levels)) := by
  intro tlv
  change Step.Meets (Draft.act registry (.openConnective connective) tlv) _ _ _
  by_cases empty : tlv.length = 0
  · have refused : Draft.act registry (.openConnective connective) tlv
        = throw (.violation (.emptyConnective connective)) := if_pos empty
    rw [refused]
    exact Step.Meets.of_error rfl (CodecError.blameless_of_eq_false rfl)
  · have opens : Draft.act registry (.openConnective connective) tlv
        = Draft.onFilter (FilterBuilder.openConnective connective) := if_neg empty
    rw [opens]
    by_cases room : Walk.HasRoom levels
    · obtain ⟨opened, ran, built'⟩ := built.openConnective room connective
      refine Step.Meets.of_ok
        (onFilter_ok { id := some id, operation := some (.searchRequest request) } ran)
        ⟨?_, fun _ => empty⟩
      have extended : Sound ({ connective } :: levels) :=
        ⟨by rw [Filter.AllWellFormed]; trivial, fun _ => Nat.zero_le _, room, sound⟩
      exact SearchReading.filter headed extended built'
    · exact meets_of_full { id := some id, operation := some (.searchRequest request) }
        (built.openConnective_of_full room connective)

/-- Where a filter may begin, each of them leads on. -/
theorem filters (headed : request.Headed) (sound : Sound levels)
    (built : (Walk.inside levels).Built builder) :
    (SearchReading id).ReadsAll registry
      { id := some id, operation := some (.searchRequest request), filter := builder }
      (elements [{ close := .afterOperation, parts := request.headLayouts }] levels)
      (Rule.filters (nextState levels)) := by
  refine ⟨?_, ?_, ?_, ?_, ?_, ?_, ?_, ?_, ?_, ?_, trivial⟩
  · refine .fieldMeets (Content.nonEmptyText _) (fun _ => rfl) fun description nonempty => ?_
    by_cases room : Walk.HasRoom levels
    · have leaf : (Filter.present description).nodeKind = .leaf (.present description) := rfl
      have valid : (Filter.present description).WellFormed := by
        rw [Filter.WellFormed]
        exact nonempty
      obtain ⟨added, ran, editing⟩ := built.addLeaf room leaf
      refine Step.Meets.of_ok
        (onFilter_ok { id := some id, operation := some (.searchRequest request) } ran) ?_
      have reached : SearchReading id _ _ _ := lands headed sound room valid editing.built
      rw [Filter.layout, Layout.attributeName_eq nonempty] at reached
      exact reached
    · exact meets_of_full { id := some id, operation := some (.searchRequest request) }
        (built.addLeaf_of_full room _)
  · exact openConnective headed sound built 0xA0 .and
  · exact openConnective headed sound built 0xA1 .or
  · exact openConnective headed sound built 0xA2 .not
  · exact .openingMeets fun tlv =>
      openLeaf headed sound built rfl (.comparison .equality .description)
  · exact .openingMeets fun tlv => openLeaf headed sound built rfl .substringsType
  · exact .openingMeets fun tlv =>
      openLeaf headed sound built rfl (.comparison .greaterOrEqual .description)
  · exact .openingMeets fun tlv =>
      openLeaf headed sound built rfl (.comparison .lessOrEqual .description)
  · exact .openingMeets fun tlv =>
      openLeaf headed sound built rfl (.comparison .approx .description)
  · exact .bracket (by decide) fun tlv => openLeaf headed sound built rfl .extensibleFirst

/-- A connective that has been read is a filter with a node of the same kind. -/
theorem exists_connective {level : OpenConnective} (nonempty : level.children ≠ [])
    (allValid : Filter.AllWellFormed level.children)
    (single : level.connective = .not → level.children.length ≤ 1) :
    ∃ filter : Filter, filter.nodeKind = .connective level.connective
      ∧ filter.children = level.children ∧ filter.WellFormed
      ∧ ∃ tag, filter.layout = .constructed tag (Filter.layouts level.children) := by
  obtain ⟨connective, children⟩ := level
  cases children with
  | nil => exact absurd rfl nonempty
  | cons first rest =>
      cases connective with
      | and =>
          refine ⟨.and (first :: rest), rfl, rfl, ?_, 0xA0, by rw [Filter.layout, Filter.layouts]⟩
          rw [Filter.WellFormed]
          exact ⟨List.cons_ne_nil _ _, allValid⟩
      | or =>
          refine ⟨.or (first :: rest), rfl, rfl, ?_, 0xA1, by rw [Filter.layout, Filter.layouts]⟩
          rw [Filter.WellFormed]
          exact ⟨List.cons_ne_nil _ _, allValid⟩
      | not =>
          have alone : rest = [] := by
            have size := single rfl
            rw [List.length_cons] at size
            exact List.length_eq_zero_iff.1 (by omega)
          subst alone
          refine ⟨.not first, rfl, rfl, ?_, 0xA2,
            by rw [Filter.layout, Filter.layouts, Filter.layouts]⟩
          rw [Filter.AllWellFormed] at allValid
          rw [Filter.WellFormed]
          exact allValid.1

/-- The end of a connective that holds filters makes it a filter itself. -/
theorem closeConnective (headed : request.Headed) {level : OpenConnective}
    {outer : List OpenConnective} (sound : Sound (level :: outer))
    (built : (Walk.inside (level :: outer)).Built builder)
    (nonempty : level.children ≠ []) :
    (SearchReading id).Ends registry
      { id := some id, operation := some (.searchRequest request), filter := builder }
      { close := { action := some .closeConnective, resume := nextState outer },
        parts := Filter.layouts level.children }
      (elements [{ close := .afterOperation, parts := request.headLayouts }] outer) := by
  obtain ⟨allValid, single, room, outerSound⟩ := sound
  obtain ⟨filter, kind, children, valid, tag, layout⟩ := exists_connective nonempty allValid single
  obtain ⟨closed, ran, built'⟩ := built.closeConnective kind children nonempty
  refine .actionMeets tag fun tlv => Step.Meets.of_ok
    (onFilter_ok { id := some id, operation := some (.searchRequest request) } ran) ?_
  have reached : SearchReading id _ _ _ := lands headed outerSound room valid built'
  rw [layout] at reached
  exact reached

/-! ### All states -/

/-- The finished filter becomes that of the search. -/
theorem storeSearchFilter {filter : Filter} (built : (Walk.finished filter).Built builder)
    (registry : Registry) (tlv : Tlv) :
    Draft.act registry .storeSearchFilter tlv
        { id := some id, operation := some (.searchRequest request), filter := builder }
      = .ok () { id := some id, operation := some (.searchRequest { request with filter }) } :=
  Step.bind_of_ok _
    (onFilter_ok { id := some id, operation := some (.searchRequest request) } built.finish)

theorem element {state : State} {draft : Draft} {inside : List OpenElement}
    (reading : SearchReading id state draft inside) :
    (SearchReading id).ReadsAll registry draft inside state.rules := by
  cases reading with
  | base =>
      exact ⟨.field (Content.text _) (fun _ => rfl) fun base _ => ⟨_, rfl, .scope base⟩, trivial⟩
  | scope base =>
      exact ⟨.field Content.searchScope (fun _ => rfl) fun scope _ =>
        ⟨_, rfl, .aliases base scope⟩, trivial⟩
  | aliases base scope =>
      exact ⟨.field Content.aliasPolicy (fun _ => rfl) fun aliases _ =>
        ⟨_, rfl, .sizeLimit base scope aliases⟩, trivial⟩
  | sizeLimit base scope aliases =>
      exact ⟨.field (Content.nonNegative _) (fun _ => rfl) fun sizeLimit bounded =>
        ⟨_, rfl, .timeLimit base scope aliases bounded⟩, trivial⟩
  | timeLimit base scope aliases bounded =>
      exact ⟨.field (Content.nonNegative _) (fun _ => rfl) fun timeLimit timely =>
        ⟨_, rfl, .typesOnly base scope aliases bounded timely⟩, trivial⟩
  | @typesOnly base scope aliases sizeLimit timeLimit bounded timely =>
      refine ⟨.field Content.truth (fun _ => rfl) fun typesOnly _ => ⟨_, rfl, ?_⟩, trivial⟩
      have reached : SearchReading id (filterState []) _ _ :=
        @filter id { base, scope, aliases, sizeLimit, timeLimit, typesOnly }
          ⟨bounded, timely, rfl⟩ [] {} trivial Walk.built_empty
      exact reached
  | filter headed sound built =>
      rw [OpenConnective.rules_filterState]
      exact filters headed sound built
  | @leaf request headed levels builder sound room _ _ _ inner editing =>
      exact inner.element (leafHost headed sound room) editing
  | @filtered request headed filter builder valid built =>
      have reached : SearchReading id _ _ _ :=
        @selection id { request with filter } ⟨headed.sizeLimit, headed.timeLimit, valid⟩
      have unselected : request.selection.map (Layout.text Tag.octetString) = [] := by
        rw [headed.selection, List.map_nil]
      rw [unselected] at reached
      exact ⟨.opening (storeSearchFilter built registry) reached, trivial⟩
  | @selection request valid =>
      refine ⟨.field (Content.text _) (fun _ => rfl) fun selector _ => ⟨_, rfl, ?_⟩, trivial⟩
      have reached : SearchReading id _ _ _ :=
        @selection id { request with selection := request.selection ++ [selector] }
          ⟨valid.sizeLimit, valid.timeLimit, valid.filter⟩
      rw [List.map_append] at reached
      exact reached
  | finished => exact trivial

theorem ending {state : State} {draft : Draft} {top next : OpenElement}
    {outer inside : List OpenElement} (reading : SearchReading id state draft inside)
    (shape : inside = top :: next :: outer) (canEnd : state.canEnd = true)
    (nonempty : top.close.action = some .closeConnective → top.parts ≠ []) :
    (SearchReading id).Ends registry draft top (next :: outer) := by
  cases reading with
  | @filter request headed levels builder sound built =>
      cases levels with
      | nil => cases canEnd
      | cons level levels =>
          obtain ⟨rfl, rest⟩ := List.cons.inj shape
          rw [← rest]
          refine closeConnective headed sound built fun empty => ?_
          exact nonempty rfl (by rw [empty, Filter.layouts])
  | @leaf request headed levels builder sound room _ _ _ inner editing =>
      subst shape
      exact inner.ending (leafHost headed sound room)
        (fun editing valid => lands headed sound room valid editing.built) editing canEnd
  | @selection request valid =>
      cases shape
      refine .wrapper Tag.sequence ?_
      have reached : SearchReading id _ _ _ := finished valid
      exact reached
  | _ => cases shape

/-- What the encoder writes for a request that has been read. -/
theorem layouts_eq (valid : request.WellFormed) :
    request.layouts = request.headLayouts ++ [request.filter.layout,
      Layout.constructed Tag.sequence (request.selection.map (Layout.text Tag.octetString))] := by
  have bounded : request.negativeLimit? = none := by
    rw [SearchRequest.negativeLimit?, if_neg (Int32.not_lt.2 valid.sizeLimit),
      if_neg (Int32.not_lt.2 valid.timeLimit)]
  rw [SearchRequest.layouts, bounded]
  rfl

theorem elements_ne_nil (outside : OpenElement) (levels : List OpenConnective) :
    elements [outside] levels ≠ [] := by
  cases levels <;> exact List.cons_ne_nil _ _

theorem finish {state : State} {draft : Draft} {top : OpenElement} {inside : List OpenElement}
    (reading : SearchReading id state draft inside) (shape : inside = [top])
    (canEnd : state.canEnd = true) : draft.Completes id top := by
  cases reading with
  | @filter request headed levels builder sound built =>
      cases levels with
      | nil => cases canEnd
      | cons level levels =>
          exact absurd (List.cons.inj shape).2 (elements_ne_nil _ _)
  | leaf headed sound room inner editing =>
      subst shape
      have inside := inner.length_lt
      exact absurd (List.length_eq_zero_iff.1 (Nat.lt_one_iff.1 inside)) (elements_ne_nil _ _)
  | @finished request valid =>
      cases shape
      refine ⟨rfl, .searchRequest request, rfl, valid, ?_⟩
      simp only [Operation.layout, Operation.parts, layouts_eq valid]
  | selection => cases shape
  | _ => cases canEnd

theorem withinOperation : (SearchReading id).WithinOperation registry id where
  nonempty reading := by
    cases reading with
    | filter => exact elements_ne_nil _ _
    | leaf headed sound room inner editing =>
        intro empty
        have inside := inner.length_lt
        rw [empty] at inside
        cases inside
    | _ => exact List.cons_ne_nil _ _
  element := element
  ending reading canEnd nonempty := ending reading rfl canEnd nonempty
  finish reading canEnd := finish reading rfl canEnd

end SearchReading

end LdapWire
