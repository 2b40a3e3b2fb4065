import LdapWire.Proofs.Reading.Basic

/-!
# Reading attributes

An attribute is a sequence of a description and a set of values. It occurs in the
entries that a search finds or an addition makes, and in the changes of a
modification.
-/

set_option autoImplicit false

namespace LdapWire

open Ber
open Grammar (Close State)

/-! ## One attribute -/

/-- The states inside an attribute with what has been read of it. The element of
the attribute is followed by `close` and stands inside `outer`. -/
inductive AttributeReading (close : Close) (outer : List OpenElement) :
    State → Attribute → List OpenElement → Prop where
  | description : AttributeReading close outer .attrType {} ({ close } :: outer)
  | values {description : String} (nonempty : description ≠ "") :
      AttributeReading close outer .attrVals { description }
        ({ close, parts := [Layout.text Tag.octetString description] } :: outer)
  | value {description : String} (nonempty : description ≠ "") (values : List Bytes) :
      AttributeReading close outer .attrValue { description, values }
        ({ close := { action := none, resume := .attrEnd },
           parts := values.map (Layout.primitive Tag.octetString) }
          :: { close, parts := [Layout.text Tag.octetString description] } :: outer)
  | finished {description : String} (nonempty : description ≠ "") (values : List Bytes) :
      AttributeReading close outer .attrEnd { description, values }
        ({ close,
           parts := [Layout.text Tag.octetString description,
            Layout.constructed Tag.set (values.map (Layout.primitive Tag.octetString))] } :: outer)

theorem Attribute.layout_eq {listed : Attribute} (nonempty : listed.description ≠ "") :
    listed.layout = .constructed Tag.sequence
      [Layout.text Tag.octetString listed.description,
        .constructed Tag.set (listed.values.map (Layout.primitive Tag.octetString))] := by
  rw [Attribute.layout, Layout.attributeName_eq nonempty]

namespace AttributeReading

variable {S : Situation} {registry : Registry} {close : Close} {outer : List OpenElement}

/-- Elements inside an attribute lead on, in every situation that holds such
attributes in its draft. -/
theorem element (draft : Draft)
    (holds : ∀ {state current elements}, AttributeReading close outer state current elements →
      S state { draft with openAttribute := some current } elements)
    {state : State} {current : Attribute} {elements : List OpenElement}
    (reading : AttributeReading close outer state current elements) :
    S.ReadsAll registry { draft with openAttribute := some current } elements state.rules := by
  cases reading with
  | description =>
      exact ⟨.field (Content.nonEmptyText _) (fun _ => rfl) fun _ nonempty =>
        ⟨_, rfl, holds (.values nonempty)⟩, trivial⟩
  | values nonempty => exact ⟨.wrapper (holds (.value nonempty [])), trivial⟩
  | value nonempty values =>
      refine ⟨.octets fun tlv => ⟨_, rfl, holds ?_⟩, trivial⟩
      have reached : AttributeReading close outer _ _ _ := value nonempty (values ++ [tlv.value])
      rw [List.map_append] at reached
      exact reached
  | finished => exact trivial

end AttributeReading

/-! ## Entries -/

/-- The operations that consist of a name and attributes. -/
inductive EntryKind where
  | result
  | addition

namespace EntryKind

/-- The operation with the given name and attributes. -/
def operation : EntryKind → String → List Attribute → Operation
  | .result, name, attributes => .searchResultEntry { name, attributes }
  | .addition, entry, attributes => .addRequest { entry, attributes }

/-- Whether the operation may hold an attribute. -/
def Accepts : EntryKind → Attribute → Prop
  | .result, listed => listed.description ≠ ""
  | .addition, listed => listed.description ≠ "" ∧ listed.values ≠ []

def nameState : EntryKind → State
  | .result => .entryName
  | .addition => .addEntry

def attributesState : EntryKind → State
  | .result => .entryAttributes
  | .addition => .addAttributes

def endState : EntryKind → State
  | .result => .entryEnd
  | .addition => .addEnd

end EntryKind

theorem AddRequest.valueless?_eq_none {request : AddRequest}
    (valid : ∀ listed ∈ request.attributes, listed.description ≠ "" ∧ listed.values ≠ []) :
    request.valueless? = none := by
  rw [AddRequest.valueless?, Option.map_eq_none_iff, List.find?_eq_none]
  intro listed mem
  simpa using (valid listed mem).2

/-- The situations inside an entry that was found or is to be added. -/
inductive EntryReading (id : Int32) : Situation where
  | name (kind : EntryKind) :
      EntryReading id kind.nameState { id := some id, operation := some (kind.operation "" []) }
        [{ close := .afterOperation }]
  | attributes (kind : EntryKind) (name : String) :
      EntryReading id kind.attributesState
        { id := some id, operation := some (kind.operation name []) }
        [{ close := .afterOperation, parts := [Layout.text Tag.octetString name] }]
  | list (kind : EntryKind) (name : String) {attributes : List Attribute}
      (accepted : ∀ listed ∈ attributes, kind.Accepts listed) :
      EntryReading id .attributeList
        { id := some id, operation := some (kind.operation name attributes) }
        [{ close := { action := none, resume := kind.endState },
           parts := attributes.map Attribute.layout },
         { close := .afterOperation, parts := [Layout.text Tag.octetString name] }]
  | inside (kind : EntryKind) (name : String) {attributes : List Attribute}
      (accepted : ∀ listed ∈ attributes, kind.Accepts listed) {state : State}
      {current : Attribute} {elements : List OpenElement}
      (inner : AttributeReading { action := some .finishAttribute, resume := .attributeList }
        [{ close := { action := none, resume := kind.endState },
           parts := attributes.map Attribute.layout },
         { close := .afterOperation, parts := [Layout.text Tag.octetString name] }]
        state current elements) :
      EntryReading id state
        { id := some id, operation := some (kind.operation name attributes),
          openAttribute := some current }
        elements
  | finished (kind : EntryKind) (name : String) {attributes : List Attribute}
      (accepted : ∀ listed ∈ attributes, kind.Accepts listed) :
      EntryReading id kind.endState
        { id := some id, operation := some (kind.operation name attributes) }
        [{ close := .afterOperation,
           parts := [Layout.text Tag.octetString name, Attribute.layoutAll attributes] }]

theorem forall_mem_concat {α : Type} {valid : α → Prop} {values : List α} {last : α}
    (before : ∀ value ∈ values, valid value) (holds : valid last) :
    ∀ value ∈ values ++ [last], valid value := by
  intro value listed
  rcases List.mem_append.1 listed with earlier | final
  · exact before value earlier
  · rw [List.mem_singleton.1 final]
    exact holds

namespace EntryReading

variable {id : Int32} {registry : Registry}

theorem element {state : State} {draft : Draft} {elements : List OpenElement}
    (reading : EntryReading id state draft elements) :
    (EntryReading id).ReadsAll registry draft elements state.rules := by
  cases reading with
  | name kind =>
      cases kind with
      | result =>
          exact ⟨.field (Content.text _) (fun _ => rfl) fun name _ =>
            ⟨_, rfl, .attributes .result name⟩, trivial⟩
      | addition =>
          exact ⟨.field (Content.text _) (fun _ => rfl) fun name _ =>
            ⟨_, rfl, .attributes .addition name⟩, trivial⟩
  | attributes kind name =>
      have empty : ∀ listed ∈ ([] : List Attribute), kind.Accepts listed := nofun
      cases kind with
      | result => exact ⟨.wrapper (.list .result name empty), trivial⟩
      | addition => exact ⟨.wrapper (.list .addition name empty), trivial⟩
  | list kind name accepted =>
      refine ⟨.bracket nofun fun tlv => Step.Meets.of_ok rfl ?_, trivial⟩
      exact .inside kind name accepted .description
  | @inside kind name attributes accepted _ _ _ inner =>
      exact inner.element { id := some id, operation := some (kind.operation name attributes) }
        (.inside kind name accepted)
  | finished kind => cases kind <;> exact trivial

/-- A finished attribute becomes one of the operation, if that may hold it. -/
theorem finishAttribute (kind : EntryKind) (name : String) {attributes : List Attribute}
    {current : Attribute} (accepted : ∀ listed ∈ attributes, kind.Accepts listed)
    (nonempty : current.description ≠ "") :
    Draft.finishAttribute.Meets
      { id := some id, operation := some (kind.operation name attributes),
        openAttribute := some current }
      (fun _ after => kind.Accepts current ∧
        after = { id := some id,
                  operation := some (kind.operation name (attributes ++ [current])) })
      (CodecError.Blameless registry) := by
  cases kind with
  | result => exact Step.Meets.of_ok rfl ⟨nonempty, rfl⟩
  | addition =>
      by_cases empty : current.values = []
      · simp only [Step.Meets, Draft.finishAttribute, EntryKind.operation, Draft.addAttribute,
          if_pos empty]
        exact CodecError.blameless_of_eq_false rfl
      · simp only [Step.Meets, Draft.finishAttribute, EntryKind.operation, Draft.addAttribute,
          if_neg empty]
        exact ⟨⟨nonempty, empty⟩, trivial⟩

theorem ending {state : State} {draft : Draft} {top next : OpenElement}
    {outer : List OpenElement} (reading : EntryReading id state draft (top :: next :: outer))
    (canEnd : state.canEnd = true) :
    (EntryReading id).Ends registry draft top (next :: outer) := by
  cases reading with
  | list kind name accepted => exact .wrapper Tag.sequence (.finished kind name accepted)
  | inside kind name accepted inner =>
      cases inner with
      | value nonempty values =>
          exact .wrapper Tag.set (.inside kind name accepted (.finished nonempty values))
      | @finished description nonempty values =>
          refine .actionMeets Tag.sequence fun tlv => ?_
          refine (finishAttribute kind name accepted nonempty).mono fun _ after ended => ?_
          obtain ⟨valid, rfl⟩ := ended
          have reached : EntryReading id _ _ _ := list kind name (forall_mem_concat accepted valid)
          rw [List.map_append, List.map_singleton, Attribute.layout_eq nonempty] at reached
          exact reached
      | description | values => cases canEnd

theorem finish {state : State} {draft : Draft} {top : OpenElement}
    (reading : EntryReading id state draft [top]) (canEnd : state.canEnd = true) :
    draft.Completes id top := by
  cases reading with
  | name kind => cases kind <;> cases canEnd
  | attributes kind => cases kind <;> cases canEnd
  | inside kind name accepted inner => cases inner
  | @finished kind name attributes accepted =>
      cases kind with
      | result => exact ⟨rfl, _, rfl, accepted, rfl⟩
      | addition =>
          refine ⟨rfl, _, rfl, accepted, ?_⟩
          have valued := @AddRequest.valueless?_eq_none { entry := name, attributes } accepted
          simp only [Operation.layout, Operation.parts, EntryKind.operation, valued,
            Layout.checked]

theorem withinOperation : (EntryReading id).WithinOperation registry id where
  nonempty reading := by
    cases reading with
    | inside kind name accepted inner => cases inner <;> exact List.cons_ne_nil _ _
    | _ => exact List.cons_ne_nil _ _
  element := element
  ending reading canEnd _ := ending reading canEnd
  finish := finish

end EntryReading

/-! ## Modifications -/

/-- The situations inside a request to modify an entry. -/
inductive ModifyReading (id : Int32) : Situation where
  | object :
      ModifyReading id .modifyObject { id := some id, operation := some (.modifyRequest {}) }
        [{ close := .afterOperation }]
  | changes (object : String) :
      ModifyReading id .modifyChanges
        { id := some id, operation := some (.modifyRequest { object }) }
        [{ close := .afterOperation, parts := [Layout.text Tag.octetString object] }]
  | list (object : String) {changes : List Change}
      (accepted : ∀ change ∈ changes, change.modification.description ≠ "") :
      ModifyReading id .changeList
        { id := some id, operation := some (.modifyRequest { object, changes }) }
        [{ close := { action := none, resume := .modifyEnd }, parts := changes.map Change.layout },
         { close := .afterOperation, parts := [Layout.text Tag.octetString object] }]
  | change (object : String) {changes : List Change}
      (accepted : ∀ change ∈ changes, change.modification.description ≠ "") :
      ModifyReading id .changeOperation
        { id := some id, operation := some (.modifyRequest { object, changes }) }
        [{ close := { action := none, resume := .changeList } },
         { close := { action := none, resume := .modifyEnd }, parts := changes.map Change.layout },
         { close := .afterOperation, parts := [Layout.text Tag.octetString object] }]
  | modification (object : String) {changes : List Change}
      (accepted : ∀ change ∈ changes, change.modification.description ≠ "") (kind : ChangeKind) :
      ModifyReading id .changeModification
        { id := some id, operation := some (.modifyRequest { object, changes }),
          changeKind := some kind }
        [{ close := { action := none, resume := .changeList },
           parts := [Layout.integer Tag.enumerated kind.code] },
         { close := { action := none, resume := .modifyEnd }, parts := changes.map Change.layout },
         { close := .afterOperation, parts := [Layout.text Tag.octetString object] }]
  | inside (object : String) {changes : List Change}
      (accepted : ∀ change ∈ changes, change.modification.description ≠ "") (kind : ChangeKind)
      {state : State} {current : Attribute} {elements : List OpenElement}
      (inner : AttributeReading { action := some .finishAttribute, resume := .changeEnd }
        [{ close := { action := none, resume := .changeList },
           parts := [Layout.integer Tag.enumerated kind.code] },
         { close := { action := none, resume := .modifyEnd }, parts := changes.map Change.layout },
         { close := .afterOperation, parts := [Layout.text Tag.octetString object] }]
        state current elements) :
      ModifyReading id state
        { id := some id, operation := some (.modifyRequest { object, changes }),
          openAttribute := some current, changeKind := some kind }
        elements
  | changed (object : String) {changes : List Change} {last : Change}
      (accepted : ∀ change ∈ changes ++ [last], change.modification.description ≠ "") :
      ModifyReading id .changeEnd
        { id := some id,
          operation := some (.modifyRequest { object, changes := changes ++ [last] }) }
        [{ close := { action := none, resume := .changeList },
           parts := [Layout.integer Tag.enumerated last.kind.code, last.modification.layout] },
         { close := { action := none, resume := .modifyEnd }, parts := changes.map Change.layout },
         { close := .afterOperation, parts := [Layout.text Tag.octetString object] }]
  | finished (object : String) {changes : List Change}
      (accepted : ∀ change ∈ changes, change.modification.description ≠ "") :
      ModifyReading id .modifyEnd
        { id := some id, operation := some (.modifyRequest { object, changes }) }
        [{ close := .afterOperation,
           parts := [Layout.text Tag.octetString object,
            Layout.constructed Tag.sequence (changes.map Change.layout)] }]

namespace ModifyReading

variable {id : Int32} {registry : Registry}

theorem element {state : State} {draft : Draft} {elements : List OpenElement}
    (reading : ModifyReading id state draft elements) :
    (ModifyReading id).ReadsAll registry draft elements state.rules := by
  cases reading with
  | object =>
      exact ⟨.field (Content.text _) (fun _ => rfl) fun object _ =>
        ⟨_, rfl, .changes object⟩, trivial⟩
  | changes object => exact ⟨.wrapper (.list object nofun), trivial⟩
  | list object accepted => exact ⟨.wrapper (.change object accepted), trivial⟩
  | change object accepted =>
      exact ⟨.field Content.changeKind (fun _ => rfl) fun kind _ =>
        ⟨_, rfl, .modification object accepted kind⟩, trivial⟩
  | modification object accepted kind =>
      refine ⟨.bracket nofun fun tlv => Step.Meets.of_ok rfl ?_, trivial⟩
      exact .inside object accepted kind .description
  | @inside object changes accepted kind _ _ _ inner =>
      exact inner.element
        { id := some id, operation := some (.modifyRequest { object, changes }),
          changeKind := some kind }
        (.inside object accepted kind)
  | changed => exact trivial
  | finished => exact trivial

theorem ending {state : State} {draft : Draft} {top next : OpenElement}
    {outer : List OpenElement} (reading : ModifyReading id state draft (top :: next :: outer))
    (canEnd : state.canEnd = true) :
    (ModifyReading id).Ends registry draft top (next :: outer) := by
  cases reading with
  | list object accepted => exact .wrapper Tag.sequence (.finished object accepted)
  | change => cases canEnd
  | modification => cases canEnd
  | @inside object changes accepted kind _ _ _ inner =>
      cases inner with
      | value nonempty values =>
          exact .wrapper Tag.set (.inside object accepted kind (.finished nonempty values))
      | @finished description nonempty values =>
          refine .actionMeets Tag.sequence fun tlv => Step.Meets.of_ok rfl ?_
          have valid := @forall_mem_concat _ (fun change => change.modification.description ≠ "")
            changes ⟨kind, { description, values }⟩ accepted nonempty
          have reached := @changed id object _ _ valid
          rw [Attribute.layout_eq nonempty] at reached
          exact reached
      | description | values => cases canEnd
  | changed object accepted =>
      refine .wrapper Tag.sequence ?_
      have reached : ModifyReading id _ _ _ := list object accepted
      rw [List.map_append] at reached
      exact reached

theorem finish {state : State} {draft : Draft} {top : OpenElement}
    (reading : ModifyReading id state draft [top]) (canEnd : state.canEnd = true) :
    draft.Completes id top := by
  cases reading with
  | inside object accepted kind inner => cases inner
  | finished object accepted => exact ⟨rfl, _, rfl, accepted, rfl⟩
  | object | changes => cases canEnd

theorem withinOperation : (ModifyReading id).WithinOperation registry id where
  nonempty reading := by
    cases reading with
    | inside object accepted kind inner => cases inner <;> exact List.cons_ne_nil _ _
    | _ => exact List.cons_ne_nil _ _
  element := element
  ending reading canEnd _ := ending reading canEnd
  finish := finish

end ModifyReading

end LdapWire
