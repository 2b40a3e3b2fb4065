import LdapWire.Proofs.Session.Invariant

/-!
# The shape of a message under construction

The state of the grammar and what happens at the ends of the open elements tell
which operation a message under construction may have, whether it has a control
or an attribute open, and how far its filter has come (`Draft.Fits`). In every
situation the draft has that shape (`Reading.fits`).
-/

set_option autoImplicit false

namespace LdapWire

open FilterBuilder (OpenConnective Walk)
open Grammar (Close Flavor State)

/-! ## What a state tells -/

/-- Whether an operation of the given kind carries a result of a flavor. -/
def Grammar.Flavor.admits (kind : OperationKind) : Flavor → Bool
  | .bind => kind == .bindResponse
  | .extended => kind == .extendedResponse
  | .plain =>
      match kind with
      | .plain _ => true
      | _ => false

namespace Grammar.State

/-- Whether a message may have an operation of the given kind in a state, or when
a state is resumed. -/
def admits (kind : OperationKind) : State → Bool
  | .start | .messageId | .protocolOp | .afterOp | .afterControls
  | .controlsStart | .controlType | .controlCriticality | .controlValue | .controlEnd => true
  | .bindVersion | .bindName | .bindAuth | .saslMechanism | .saslCredentials | .saslEnd
  | .bindEnd => kind == .bindRequest
  | .resultCode flavor | .matchedDn flavor | .diagnosticMessage flavor | .resultTail flavor
  | .resultAfterReferral flavor | .resultDone flavor => flavor.admits kind
  | .resultAfterName => kind == .extendedResponse
  | .referralStart | .referralMore =>
      Flavor.plain.admits kind || Flavor.bind.admits kind || Flavor.extended.admits kind
  | .searchBase | .searchScope | .searchDeref | .searchSizeLimit | .searchTimeLimit
  | .searchTypesOnly | .searchFilter | .searchAttributes | .attributeSelection | .searchEnd
  | .filterChildren
  | .substringsType | .substringsSeq | .substringsFirst | .substringsAny | .substringsFinal
  | .substringsEnd
  | .extensibleFirst | .extensibleAfterRule | .extensibleAfterType | .extensibleAfterValue
  | .extensibleEnd => kind == .searchRequest
  | .avaDesc | .avaValue | .avaEnd => kind == .searchRequest || kind == .compareRequest
  | .entryName | .entryAttributes | .entryEnd => kind == .searchResultEntry
  | .addEntry | .addAttributes | .addEnd => kind == .addRequest
  | .attributeList => kind == .searchResultEntry || kind == .addRequest
  | .attrType | .attrVals | .attrValue | .attrEnd =>
      kind == .searchResultEntry || kind == .addRequest || kind == .modifyRequest
  | .modifyObject | .modifyChanges | .modifyEnd | .changeList | .changeOperation
  | .changeModification | .changeEnd => kind == .modifyRequest
  | .referenceUri | .referenceMore => kind == .searchResultReference
  | .modDnEntry | .modDnNewRdn | .modDnDeleteOld | .modDnNewSuperior | .modDnEnd =>
      kind == .modifyDnRequest
  | .compareEntry | .compareAva | .compareEnd => kind == .compareRequest
  | .extRequestName | .extRequestValue | .extRequestEnd => kind == .extendedRequest
  | .intermediateName | .intermediateValue | .intermediateEnd => kind == .intermediateResponse

/-- Whether the identifier of the message has been read. -/
def isIdentified : State → Bool
  | .start | .messageId => false
  | _ => true

/-- Whether the operation of the message has been started. -/
def hasOperation : State → Bool
  | .start | .messageId | .protocolOp => false
  | _ => true

/-- The filter items that a state sets the parts of. -/
def edits : State → Filter → Bool
  | .avaDesc, .compare .. | .avaValue, .compare .. | .avaEnd, .compare .. => true
  | .substringsType, .substrings _ | .substringsSeq, .substrings _
  | .substringsFirst, .substrings _ | .substringsAny, .substrings _
  | .substringsFinal, .substrings _ | .substringsEnd, .substrings _ => true
  | .extensibleFirst, .extensible _ | .extensibleAfterRule, .extensible _
  | .extensibleAfterType, .extensible _ | .extensibleAfterValue, .extensible _
  | .extensibleEnd, .extensible _ => true
  | _, _ => false

/-- Whether a state sets the parts of a filter item. -/
def isItem : State → Bool
  | .avaDesc | .avaValue | .avaEnd
  | .substringsType | .substringsSeq | .substringsFirst | .substringsAny | .substringsFinal
  | .substringsEnd
  | .extensibleFirst | .extensibleAfterRule | .extensibleAfterType | .extensibleAfterValue
  | .extensibleEnd => true
  | _ => false

end Grammar.State

/-! ## The shape of a draft -/

/-- Whether the content of a filter is being read. -/
def Grammar.Close.inFilter (closes : List Close) : Bool :=
  closes.any fun close => close.resume == .searchAttributes

/-- Whether a draft has the shape that the state and the open elements demand:

- the identifier and the operation are there once they have been read, and the
  operation is of a kind that the state and all states to be resumed admit;
- a control, an attribute and the kind of a change are open as long as the element
  is that will finish them, and behind the value of a control nothing may follow;
- the open connectives of the filter are the open elements that will close them,
  the current filter item is of the kind whose parts the state sets, and a filter
  is there only between its beginning and the attributes that a search selects. -/
structure Draft.Fits (draft : Draft) (state : State) (closes : List Close) : Prop where
  identifier : draft.id.isSome = state.isIdentified
  operation : draft.operation.isSome = state.hasOperation
  kind : ∀ operation, draft.operation = some operation →
    (state :: closes.map Close.resume).all (State.admits operation.kind) = true
  control : draft.openControl.isSome = closes.any fun close => close.action == some .finishControl
  value : (draft.openControl.all fun fields => fields.value.isNone || state == .controlEnd) = true
  openAttribute :
    draft.openAttribute.isSome = closes.any fun close => close.action == some .finishAttribute
  changeKind : draft.changeKind.isSome = (state == .changeModification
    || closes.any fun close => close == { action := some .finishAttribute, resume := .changeEnd })
  connectives :
    draft.filter.depth = closes.countP fun close => close.action == some .closeConnective
  item : state.isItem = true → Close.inFilter closes = true →
    ∃ filter, FilterBuilder.currentLeaf draft.filter = .ok filter draft.filter
      ∧ state.edits filter = true
  finished : state = .searchAttributes → ∃ filter, FilterBuilder.finish draft.filter = .ok filter {}
  blank : state ≠ .searchAttributes → Close.inFilter closes = false → draft.filter.isEmpty = true

/-- The ends of the elements that are open inside a message. -/
def OpenElement.closes (elements : List OpenElement) : List Close :=
  elements.map OpenElement.close ++ [{ action := none, resume := .start }]

/-- Whether a draft has that shape where no filter is being read. The check runs through the
clauses in the same order. -/
def Draft.fitsUnfiltered (draft : Draft) (state : State) (closes : List Close) : Bool :=
  draft.id.isSome == state.isIdentified
    && draft.operation.isSome == state.hasOperation
    && draft.operation.all (fun operation =>
      (state :: closes.map Close.resume).all (State.admits operation.kind))
    && draft.openControl.isSome == closes.any (fun close => close.action == some .finishControl)
    && draft.openControl.all (fun fields => fields.value.isNone || state == .controlEnd)
    && draft.openAttribute.isSome
      == closes.any (fun close => close.action == some .finishAttribute)
    && draft.changeKind.isSome == (state == .changeModification
      || closes.any fun close => close == { action := some .finishAttribute, resume := .changeEnd })
    && draft.filter.depth
      == closes.countP (fun close => close.action == some .closeConnective)
    && draft.filter.isEmpty && !(Close.inFilter closes || state == .searchAttributes)

theorem Draft.Fits.of_check {draft : Draft} {state : State} {closes : List Close}
    (checked : draft.fitsUnfiltered state closes = true) : draft.Fits state closes := by
  simp only [Draft.fitsUnfiltered, Bool.and_eq_true, beq_iff_eq, Bool.not_eq_true',
    Bool.or_eq_false_iff] at checked
  obtain ⟨⟨⟨⟨⟨⟨⟨⟨⟨identifier, operation⟩, kind⟩, control⟩, value⟩, openAttribute⟩, changeKind⟩,
    connectives⟩, empty⟩, outside, unfinished⟩ := checked
  refine ⟨identifier, operation, ?_, control, value, openAttribute, changeKind, connectives,
    ?_, ?_, ?_⟩
  · intro found known
    rw [known] at kind
    exact kind
  · intro _ inside
    rw [outside] at inside
    cases inside
  · intro reached
    rw [reached] at unfinished
    cases unfinished
  · exact fun _ _ => empty

/-! ## Operations without a filter -/

section WithoutFilter

variable {id : Int32} {state : State} {draft : Draft} {elements : List OpenElement}

theorem BindReading.fits (reading : BindReading id state draft elements) :
    draft.Fits state (OpenElement.closes elements) := by
  cases reading with
  | sasl valid name mechanism credentials =>
      cases credentials <;> exact .of_check rfl
  | _ => exact .of_check rfl

theorem ResultReading.fits (reading : ResultReading id state draft elements) :
    draft.Fits state (OpenElement.closes elements) := by
  cases reading with
  | code carries | matchedDn carries | diagnostic carries | tail carries | referred carries =>
      cases carries <;> exact .of_check rfl
  | referral carries =>
      split <;> cases carries <;> exact .of_check rfl
  | _ => exact .of_check rfl

theorem FlatReading.fits (reading : FlatReading id state draft elements) :
    draft.Fits state (OpenElement.closes elements) := by
  cases reading with
  | reference => split <;> exact .of_check rfl
  | superior entry nonempty deleteOldRdn newSuperior =>
      cases newSuperior <;> exact .of_check rfl
  | requestValue nonempty value =>
      cases value <;> exact .of_check rfl
  | intermediate name nonempty value =>
      cases name <;> cases value <;> exact .of_check rfl
  | _ => exact .of_check rfl

theorem EntryReading.fits (reading : EntryReading id state draft elements) :
    draft.Fits state (OpenElement.closes elements) := by
  cases reading with
  | inside kind name accepted inner =>
      cases kind <;> cases inner <;> exact .of_check rfl
  | name kind | attributes kind | list kind | finished kind =>
      cases kind <;> exact .of_check rfl

theorem ModifyReading.fits (reading : ModifyReading id state draft elements) :
    draft.Fits state (OpenElement.closes elements) := by
  cases reading with
  | inside object accepted kind inner =>
      cases inner <;> exact .of_check rfl
  | _ => exact .of_check rfl

theorem CompareReading.fits (reading : CompareReading id state draft elements) :
    draft.Fits state (OpenElement.closes elements) := by
  cases reading with
  | inside entry inner =>
      cases inner <;> exact .of_check rfl
  | _ => exact .of_check rfl

end WithoutFilter

/-! ## Searches -/

/-- The ends of open connectives, and of the search around them. -/
def OpenConnective.closes : List OpenConnective → List Close
  | [] => [.afterOperation, { action := none, resume := .start }]
  | _ :: outer =>
      { action := some .closeConnective, resume := OpenConnective.nextState outer } :: closes outer

namespace OpenConnective

theorem closes_elements (parts : List Layout) (levels : List OpenConnective) :
    OpenElement.closes (elements [{ close := .afterOperation, parts }] levels) = closes levels := by
  induction levels with
  | nil => rfl
  | cons level outer same => exact congrArg (_ :: ·) same

theorem nextState_admits (levels : List OpenConnective) :
    (nextState levels).admits .searchRequest = true := by
  cases levels <;> rfl

theorem closes_admit (levels : List OpenConnective) :
    ((closes levels).map Close.resume).all (State.admits .searchRequest) = true := by
  induction levels with
  | nil => rfl
  | cons level outer admitted =>
      rw [closes, List.map_cons, List.all_cons, nextState_admits, admitted]
      rfl

/-- None of them ends anything but a connective. -/
theorem all_closes (levels : List OpenConnective) :
    ∀ close ∈ closes levels, close.action = none ∨ close.action = some .closeConnective := by
  induction levels with
  | nil => simp [closes, Close.afterOperation]
  | cons level outer further =>
      rw [closes]
      exact List.forall_mem_cons.2 ⟨.inr rfl, further⟩

theorem countP_closes (levels : List OpenConnective) :
    ((closes levels).countP fun close => close.action == some .closeConnective)
      = levels.length := by
  induction levels with
  | nil => rfl
  | cons level outer same =>
      rw [closes, List.countP_cons_of_pos rfl, same, List.length_cons]

theorem inFilter_closes (level : OpenConnective) (outer : List OpenConnective) :
    Close.inFilter (closes (level :: outer)) = true := by
  induction outer generalizing level with
  | nil => rfl
  | cons next outer further =>
      have inner : ((closes (next :: outer)).any fun close => close.resume == .searchAttributes)
          = true := further next
      rw [closes, Close.inFilter, List.any_cons, inner, Bool.or_true]

end OpenConnective

/-- Whether a state and elements that are open in it are those of a filter item: a search admits
them, and they end nothing but the item. -/
def Grammar.Close.inItem (state : State) (front : List Close) : Bool :=
  (state :: front.map Close.resume).all (State.admits .searchRequest)
    && front.all (fun close => close.action == none || close.action == some .closeExtensible)
    && state.isIdentified && state.hasOperation && state != .changeModification

/-- A draft of a search within a filter, inside further elements that end nothing
but a filter item. -/
theorem Draft.Fits.inSearch {id : Int32} {request : SearchRequest} {builder : FilterBuilder}
    {state : State} {front : List Close} {levels : List OpenConnective}
    (checked : Close.inItem state front = true) (depth : builder.depth = levels.length)
    (item : state.isItem = true → Close.inFilter (front ++ OpenConnective.closes levels) = true →
      ∃ filter, FilterBuilder.currentLeaf builder = .ok filter builder
        ∧ state.edits filter = true)
    (finished : state = .searchAttributes → ∃ filter, FilterBuilder.finish builder = .ok filter {})
    (blank : state ≠ .searchAttributes →
      Close.inFilter (front ++ OpenConnective.closes levels) = false → builder.isEmpty = true) :
    Draft.Fits { id := some id, operation := some (.searchRequest request), filter := builder }
      state (front ++ OpenConnective.closes levels) := by
  simp only [Close.inItem, Bool.and_eq_true] at checked
  obtain ⟨⟨⟨⟨admitted, plain⟩, identified⟩, started⟩, unchanging⟩ := checked
  have quiet {ends : Close → Bool} (silent : ∀ close : Close, ends close = true →
      close.action ≠ none ∧ close.action ≠ some .closeExtensible
        ∧ close.action ≠ some .closeConnective) :
      (front ++ OpenConnective.closes levels).any ends = false := by
    refine List.any_eq_false.2 fun close listed ending => ?_
    obtain ⟨ends_something, no_item, no_connective⟩ := silent close ending
    rcases List.mem_append.1 listed with first | later
    · have harmless := List.all_eq_true.1 plain close first
      simp [ends_something, no_item] at harmless
    · have harmless := OpenConnective.all_closes levels close later
      simp [ends_something, no_connective] at harmless
  rw [List.all_cons, Bool.and_eq_true] at admitted
  refine ⟨identified.symm, started.symm, ?_, ?_, rfl, ?_, ?_, ?_, item, finished, blank⟩
  · intro operation known
    cases known
    rw [List.all_cons, List.map_append, List.all_append, Bool.and_eq_true, Bool.and_eq_true]
    exact ⟨admitted.1, admitted.2, OpenConnective.closes_admit levels⟩
  · exact (quiet (by simp +contextual)).symm
  · exact (quiet (by simp +contextual)).symm
  · have unkind : (state == .changeModification) = false := by simpa using unchanging
    rw [unkind, quiet (by simp +contextual)]
    rfl
  · have none : (front.countP fun close => close.action == some .closeConnective) = 0 := by
      refine List.countP_eq_zero.2 fun close listed connective => ?_
      have harmless := List.all_eq_true.1 plain close listed
      simp only [beq_iff_eq] at connective
      simp [connective] at harmless
    rw [List.countP_append, none, OpenConnective.countP_closes, Nat.zero_add]
    exact depth

/-- The elements of a filter item end nothing else, and a filter follows it. -/
theorem LeafReading.closes {levels : List OpenConnective} {parts : List Layout} {state : State}
    {leaf : Filter} {elements : List OpenElement}
    (reading : LeafReading (OpenConnective.nextState levels)
      (OpenConnective.elements [{ close := .afterOperation, parts }] levels) state leaf elements) :
    ∃ action further,
      OpenElement.closes elements = further
          ++ [{ action, resume := OpenConnective.nextState levels }]
          ++ OpenConnective.closes levels
        ∧ Close.inItem state (further
          ++ [{ action, resume := OpenConnective.nextState levels }]) = true
        ∧ (state.isItem && state.edits leaf) = true := by
  have ends {elements : List OpenElement} (front : List Close)
      (closes : OpenElement.closes elements
        = front ++ OpenElement.closes
          (OpenConnective.elements [{ close := .afterOperation, parts }] levels)) :
      OpenElement.closes elements = front ++ OpenConnective.closes levels :=
    closes.trans (congrArg (front ++ ·) (OpenConnective.closes_elements parts levels))
  cases reading with
  | comparison comparison inner =>
      cases inner <;> exact ⟨none, [], ends [_] rfl, by cases levels <;> rfl, rfl⟩
  | substringsFirst | substringsAny | substringsFinal =>
      exact ⟨none, [_], ends [_, _] rfl, by cases levels <;> rfl, rfl⟩
  | _ => exact ⟨_, [], ends [_] rfl, by cases levels <;> rfl, rfl⟩

theorem SearchReading.fits {id : Int32} {state : State} {draft : Draft}
    {elements : List OpenElement} (reading : SearchReading id state draft elements) :
    draft.Fits state (OpenElement.closes elements) := by
  cases reading with
  | @filter request headed levels builder sound built =>
      rw [OpenConnective.closes_elements]
      cases levels with
      | nil =>
          refine @Draft.Fits.inSearch id request builder .searchFilter [] [] rfl built.depth
            (fun item => by cases item) (fun reached => by cases reached) fun _ _ => ?_
          have laid : builder.nodes.toList = [] := built.laid
          rw [FilterBuilder.isEmpty, Array.toList_eq_nil_iff.1 laid]
          rfl
      | cons level outer =>
          refine @Draft.Fits.inSearch id request builder .filterChildren [] (level :: outer) rfl
            built.depth (fun item => by cases item) (fun reached => by cases reached)
            fun _ outside => ?_
          rw [List.nil_append, OpenConnective.inFilter_closes] at outside
          cases outside
  | @leaf request headed levels builder sound room state leaf inside inner editing =>
      obtain ⟨action, further, closes, checked, editable⟩ := inner.closes
      obtain ⟨isItem, edits⟩ := Bool.and_eq_true_iff.1 editable
      have inside : Close.inFilter (further
          ++ [{ action, resume := OpenConnective.nextState levels }]
          ++ OpenConnective.closes levels) = true := by
        cases levels with
        | nil => simp [Close.inFilter, OpenConnective.nextState]
        | cons level outer =>
            have around := OpenConnective.inFilter_closes level outer
            rw [Close.inFilter] at around ⊢
            rw [List.any_append, around, Bool.or_true]
      rw [closes]
      refine .inSearch checked editing.depth (fun _ _ => ⟨leaf, editing.currentLeaf, edits⟩) ?_
        fun _ outside => ?_
      · rintro rfl
        cases isItem
      · rw [inside] at outside
        cases outside
  | @filtered request headed filter builder valid built =>
      exact @Draft.Fits.inSearch id request builder .searchAttributes [] [] rfl built.depth
        (fun item => by cases item) (fun _ => ⟨filter, built.finish⟩)
        fun elsewhere => absurd rfl elsewhere
  | _ => exact .of_check rfl

/-! ## Messages -/

/-- **In every situation the draft has the shape that the state demands.** -/
theorem Reading.fits {registry : Registry} {state : State} {draft : Draft}
    {elements : List OpenElement} (reading : Reading registry state draft elements) :
    draft.Fits state (elements.map OpenElement.close) := by
  cases reading with
  | operation known inner =>
      rw [List.map_append]
      cases known with
      | bind => exact BindReading.fits inner
      | result => exact ResultReading.fits inner
      | flat => exact FlatReading.fits inner
      | entry => exact EntryReading.fits inner
      | modify => exact ModifyReading.fits inner
      | compare => exact CompareReading.fits inner
      | search => exact SearchReading.fits inner
  | controlFields id valid received nonempty critical value position =>
      rcases position with ⟨rfl, _, rfl⟩ | ⟨rfl, rfl⟩ | rfl
      · exact .of_check rfl
      · exact .of_check rfl
      · cases value <;> exact .of_check rfl
  | _ => exact .of_check rfl

theorem Tracks.map_close {decoder : Decoder} {octets charged read : Nat} {frames : List Frame}
    {elements : List OpenElement} (tracks : Tracks decoder octets charged read frames elements) :
    frames.map Frame.close = elements.map OpenElement.close := by
  induction tracks with
  | outermost => rfl
  | inside holds _ _ same => rw [List.map_cons, List.map_cons, holds.close, same]

theorem Machine.Consistent.fits {decoder : Decoder} {machine : Machine} {octets : Nat}
    (consistent : machine.Consistent decoder octets) :
    machine.draft.Fits machine.state (machine.frames.map Frame.close) := by
  obtain ⟨elements, charged, read, reading, tracks, _⟩ := consistent
  rw [tracks.map_close]
  exact reading.fits

end LdapWire
