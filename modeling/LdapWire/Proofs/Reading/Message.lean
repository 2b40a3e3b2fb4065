import LdapWire.Proofs.Reading.Assertion
import LdapWire.Proofs.Reading.Attribute
import LdapWire.Proofs.Reading.Bind
import LdapWire.Proofs.Reading.Control
import LdapWire.Proofs.Reading.Flat
import LdapWire.Proofs.Reading.Result
import LdapWire.Proofs.Reading.Search

/-!
# Reading a message

`Reading` holds all situations that a decoder may reach: those of the envelope and
of the controls, and those of the operations inside the envelope. Every element
that is accepted in a situation leads to another one (`Reading.element`), and so
does the end of every element (`Reading.ending`) up to that of the message itself,
where the draft is a message (`Reading.finish`).
-/

set_option autoImplicit false

namespace LdapWire

open Ber
open Grammar (Close Rule State)

/-! ## Operations -/

/-- The situations of the operations that are constructed elements. -/
inductive OperationSituation (id : Int32) : Situation → Prop where
  | bind : OperationSituation id (BindReading id)
  | result : OperationSituation id (ResultReading id)
  | flat : OperationSituation id (FlatReading id)
  | entry : OperationSituation id (EntryReading id)
  | modify : OperationSituation id (ModifyReading id)
  | compare : OperationSituation id (CompareReading id)
  | search : OperationSituation id (SearchReading id)

theorem OperationSituation.withinOperation {id : Int32} {S : Situation} {registry : Registry}
    (known : OperationSituation id S) : S.WithinOperation registry id := by
  cases known with
  | bind => exact BindReading.withinOperation
  | result => exact ResultReading.withinOperation
  | flat => exact FlatReading.withinOperation
  | entry => exact EntryReading.withinOperation
  | modify => exact ModifyReading.withinOperation
  | compare => exact CompareReading.withinOperation
  | search => exact SearchReading.withinOperation

/-! ## Situations -/

/-- What the encoder writes before the controls. -/
def Message.headLayouts (id : Int32) (operation : Operation) : List Layout :=
  [Layout.integer Tag.integer id.toInt, operation.layout]

/-- The element of a message. -/
def OpenElement.message (parts : List Layout) : OpenElement :=
  { close := { action := none, resume := .start }, parts }

/-- The element that holds controls. -/
def OpenElement.controls (received : List Control) : OpenElement :=
  { close := { action := none, resume := .afterControls },
    parts := received.map Control.layout }

/-- The element of a control, of which some fields have been read. -/
def OpenElement.control (fields : ControlDraft) : OpenElement :=
  { close := { action := some .finishControl, resume := .controlsStart },
    parts := fields.layouts }

/-- Whether a draft holds a message that is well formed but for its controls, which
the encoder writes as an element with the given parts. -/
structure Draft.Delivers (registry : Registry) (draft : Draft) (top : OpenElement) : Prop where
  close : top.close = { action := none, resume := .start }
  message : ∃ message, draft.toMessage = .ok message ∧ message.operation.WellFormed
    ∧ (∀ control ∈ message.controls, control.Received registry)
    ∧ message.layout = .constructed Tag.sequence top.parts

/-- The situations of a decoder. -/
inductive Reading (registry : Registry) : Situation where
  | start : Reading registry .start {} []
  | messageId : Reading registry .messageId {} [.message []]
  | protocolOp (id : Int32) :
      Reading registry .protocolOp { id := some id }
        [.message [Layout.integer Tag.integer id.toInt]]
  | operation {id : Int32} {S : Situation} (known : OperationSituation id S) {state : State}
      {draft : Draft} {elements : List OpenElement} (inner : S state draft elements) :
      Reading registry state draft
        (elements ++ [.message [Layout.integer Tag.integer id.toInt]])
  | afterOp (id : Int32) {operation : Operation} (valid : operation.WellFormed) :
      Reading registry .afterOp { id := some id, operation := some operation }
        [.message (Message.headLayouts id operation)]
  | controls (id : Int32) {operation : Operation} (valid : operation.WellFormed)
      {controls : List Control} (received : ∀ control ∈ controls, control.Received registry) :
      Reading registry .controlsStart { id := some id, operation := some operation, controls }
        [.controls controls, .message (Message.headLayouts id operation)]
  | control (id : Int32) {operation : Operation} (valid : operation.WellFormed)
      {controls : List Control} (received : ∀ control ∈ controls, control.Received registry) :
      Reading registry .controlType
        { id := some id, operation := some operation, controls, openControl := some {} }
        [{ close := { action := some .finishControl, resume := .controlsStart } },
         .controls controls, .message (Message.headLayouts id operation)]
  | controlFields (id : Int32) {operation : Operation} (valid : operation.WellFormed)
      {controls : List Control} (received : ∀ control ∈ controls, control.Received registry)
      {oid : String} (nonempty : oid ≠ "") (critical : Bool) (value : Option Bytes)
      {state : State}
      (position : state = .controlCriticality ∧ critical = false ∧ value = none
        ∨ state = .controlValue ∧ value = none ∨ state = .controlEnd) :
      Reading registry state
        { id := some id, operation := some operation, controls,
          openControl := some { oid, critical, value } }
        [.control { oid, critical, value }, .controls controls,
         .message (Message.headLayouts id operation)]
  | afterControls (id : Int32) {operation : Operation} (valid : operation.WellFormed)
      {controls : List Control} (received : ∀ control ∈ controls, control.Received registry) :
      Reading registry .afterControls { id := some id, operation := some operation, controls }
        [.message (Message.headLayouts id operation ++ Control.layoutAll controls)]

/-! ## Operations inside a message -/

namespace Situation

variable {S T : Situation} {registry : Registry} {draft : Draft} {first : OpenElement}
  {rest outer : List OpenElement}

/-- What is read inside some elements is also read where these are open inside
others. -/
theorem Reads.within {rule : Rule} (reads : S.Reads registry draft (first :: rest) rule)
    (carry : ∀ {state draft elements}, S state draft elements →
      T state draft (elements ++ outer)) :
    T.Reads registry draft (first :: rest ++ outer) rule := by
  unfold Reads at reads ⊢
  split
  · rename_i plain
    rw [plain] at reads
    intro tlv full
    refine (reads tlv full).mono fun _ after reached => ?_
    obtain ⟨further, holds, adds⟩ := reached
    exact ⟨further, carry holds, adds.size, adds.height, adds.visible⟩
  · rename_i close closing
    rw [closing] at reads
    intro tlv
    exact (reads tlv).mono fun _ after reached => ⟨carry reached.1, reached.2⟩

theorem ReadsAll.within {rules : List Rule}
    (reads : S.ReadsAll registry draft (first :: rest) rules)
    (carry : ∀ {state draft elements}, S state draft elements →
      T state draft (elements ++ outer)) :
    T.ReadsAll registry draft (first :: rest ++ outer) rules := by
  induction rules with
  | nil => trivial
  | cons rule rules further => exact ⟨reads.1.within carry, further reads.2⟩

theorem Ends.within {top : OpenElement} (ends : S.Ends registry draft top (first :: rest))
    (carry : ∀ {state draft elements}, S state draft elements →
      T state draft (elements ++ outer)) :
    T.Ends registry draft top (first :: rest ++ outer) := by
  intro tlv
  refine (ends tlv).mono fun _ after reached => ?_
  obtain ⟨further, holds, adds⟩ := reached
  exact ⟨further, carry holds, adds.size, adds.height, adds.visible⟩

end Situation

namespace Reading

variable {registry : Registry} {id : Int32}

/-! ## All states -/

/-- An operation that is a constructed element is opened blank. -/
theorem opensOperation (kind : OperationKind) {first : State}
    {S : Situation} (known : OperationSituation id S)
    (inner : S first { id := some id, operation := some (.blank kind) }
      [{ close := .afterOperation }]) :
    (Reading registry).Reads registry { id := some id }
      [.message [Layout.integer Tag.integer id.toInt]] (.operation kind first) :=
  .opening (fun _ => rfl) (operation known inner)

/-- An operation that is a primitive element is complete at once. -/
theorem readsOperation {α : Type} {read : Bytes → Codec α} {write : α → Bytes} {valid : α → Prop}
    (content : Content read write valid) {action : Grammar.Action} {kind : OperationKind}
    (make : α → Operation) (wellFormed : ∀ value, (make value).WellFormed)
    (layout : ∀ value, (make value).layout = .primitive kind.tag (write value))
    (acts : ∀ tlv, Draft.act registry action tlv =
      (do Draft.start (make (← Step.lift (read tlv.value))))) :
    (Reading registry).Reads registry { id := some id }
      [.message [Layout.integer Tag.integer id.toInt]] (.primitive kind.tag action .afterOp) := by
  refine .field content acts fun value _ =>
    ⟨_, rfl, ?_⟩
  have reached : Reading registry _ _ _ := afterOp id (wellFormed value)
  rw [Message.headLayouts, layout] at reached
  exact reached

/-- A request to end the session has no content. -/
theorem readsUnbind :
    (Reading registry).Reads registry { id := some id }
      [.message [Layout.integer Tag.integer id.toInt]]
      (.primitive OperationKind.unbindRequest.tag .setUnbindRequest .afterOp) := by
  intro tlv _
  change Step.Meets (Draft.act registry .setUnbindRequest tlv) _ _ _
  by_cases empty : tlv.length = 0
  · have acts : Draft.act registry .setUnbindRequest tlv = Draft.start .unbindRequest :=
      if_neg (not_not.2 empty)
    have reached : Reading registry _ _ _ := @afterOp registry id .unbindRequest trivial
    rw [acts]
    exact Step.Meets.of_ok rfl ⟨_, reached, Situation.adds_primitive (Nat.zero_le _)⟩
  · have refused : Draft.act registry .setUnbindRequest tlv
        = throw (.violation (.unbindNotEmpty tlv.length)) := if_pos empty
    rw [refused]
    exact Step.Meets.of_error rfl (CodecError.blameless_of_eq_false rfl)

theorem element {state : State} {draft : Draft} {elements : List OpenElement}
    (reading : Reading registry state draft elements) :
    (Reading registry).ReadsAll registry draft elements state.rules := by
  cases reading with
  | start => exact ⟨.wrapper messageId, trivial⟩
  | messageId =>
      exact ⟨.field Content.integer (fun _ => rfl) fun id _ => ⟨_, rfl, protocolOp id⟩, trivial⟩
  | protocolOp id =>
      have plain (response : PlainResponse) :
          (Reading registry).Reads registry { id := some id }
            [.message [Layout.integer Tag.integer id.toInt]] (.plainResponse response) :=
        opensOperation (.plain response) .result (.code (.plain response))
      exact ⟨readsUnbind,
        readsOperation (Content.text _) .delRequest (fun _ => trivial) (fun _ => rfl) fun _ => rfl,
        readsOperation Content.integer .abandonRequest (fun _ => trivial) (fun _ => rfl)
          fun _ => rfl,
        opensOperation .bindRequest .bind .version,
        opensOperation .bindResponse .result (.code .bind),
        opensOperation .searchRequest .search .base,
        opensOperation .searchResultEntry .entry (.name .result),
        plain .searchResultDone,
        opensOperation .modifyRequest .modify .object,
        plain .modify,
        opensOperation .addRequest .entry (.name .addition),
        plain .add,
        plain .del,
        opensOperation .modifyDnRequest .flat .renamed,
        plain .modifyDn,
        opensOperation .compareRequest .compare .entry,
        plain .compare,
        opensOperation .searchResultReference .flat (.reference [] nofun),
        opensOperation .extendedRequest .flat .requestName,
        opensOperation .extendedResponse .result (.code .extended),
        opensOperation .intermediateResponse .flat (.intermediate none nofun none),
        trivial⟩
  | @operation id S known state draft elements inner =>
      have inside : S.WithinOperation registry id := known.withinOperation
      obtain ⟨first, rest, rfl⟩ := List.exists_cons_of_ne_nil (inside.nonempty inner)
      exact (inside.element inner).within (operation known)
  | afterOp id valid => exact ⟨.wrapper (controls id valid nofun), trivial⟩
  | controls id valid received =>
      exact ⟨.bracket nofun fun tlv => Step.Meets.of_ok rfl (control id valid received), trivial⟩
  | control id valid received =>
      exact ⟨.field (Content.nonEmptyText _) (fun _ => rfl) fun oid nonempty =>
        ⟨_, rfl, controlFields id valid received nonempty false none (.inl ⟨rfl, rfl, rfl⟩)⟩,
        trivial⟩
  | @controlFields id operation valid controls received oid nonempty critical value state
      position =>
      have readsValue (critical : Bool) :
          (Reading registry).Reads registry
            { id := some id, operation := some operation, controls,
              openControl := some { oid, critical } }
            [.control { oid, critical }, .controls controls,
              .message (Message.headLayouts id operation)]
            (.primitive Tag.octetString .setControlValue .controlEnd) := by
        refine .octets fun tlv => ⟨_, rfl, ?_⟩
        have reached : Reading registry _ _ _ := controlFields id valid received nonempty critical
          (some tlv.value) (.inr (.inr rfl))
        rw [OpenElement.control, ControlDraft.layouts_value] at reached
        exact reached
      rcases position with ⟨rfl, rfl, rfl⟩ | ⟨rfl, rfl⟩ | rfl
      · refine ⟨.flag (OpenElement.not_isConnective nofun) (fun _ => rfl) fun critical =>
          ⟨_, rfl, ?_⟩, readsValue false, trivial⟩
        have reached : Reading registry _ _ _ := controlFields id valid received nonempty critical
          none (.inr (.inl ⟨rfl, rfl⟩))
        rw [OpenElement.control, ControlDraft.layouts_critical] at reached
        exact reached
      · exact ⟨readsValue critical, trivial⟩
      · exact trivial
  | afterControls => exact trivial

theorem ending {state : State} {draft : Draft} {top next : OpenElement}
    {outer elements : List OpenElement} (reading : Reading registry state draft elements)
    (shape : elements = top :: next :: outer) (canEnd : state.canEnd = true)
    (nonempty : top.close.action = some .closeConnective → top.parts ≠ []) :
    (Reading registry).Ends registry draft top (next :: outer) := by
  cases reading with
  | @operation id S known state draft elements inner =>
      have inside : S.WithinOperation registry id := known.withinOperation
      match elements with
      | [] => exact absurd rfl (inside.nonempty inner)
      | [only] =>
          cases shape
          obtain ⟨closes, operation, rfl, valid, layout⟩ := inside.finish inner canEnd
          obtain ⟨close, parts⟩ := top
          cases closes
          refine .wrapper operation.kind.tag ?_
          have reached : Reading registry _ _ _ := afterOp id valid
          rw [Message.headLayouts, layout] at reached
          exact reached
      | first :: second :: rest =>
          cases shape
          exact (inside.ending inner canEnd nonempty).within (operation known)
  | controls id valid received =>
      cases shape
      intro tlv
      exact Step.Meets.of_ok rfl ⟨_, afterControls id valid received, Control.adds_layoutAll _
        (OpenElement.not_isConnective nofun)⟩
  | @controlFields id operation valid controls received oid present critical value =>
      cases shape
      intro tlv
      change Step.Meets (Draft.finishControl registry) _ _ _
      cases read : registry.readControl oid critical value with
      | error error =>
          simp only [Step.Meets, Draft.finishControl, read]
          exact Registry.blameless_of_readControl read
      | ok control =>
          simp only [Step.Meets, Draft.finishControl, read]
          obtain ⟨sameOid, sameCriticality, _⟩ := Registry.readControl_eq_ok read
          have made : control.Received registry :=
            ⟨sameOid ▸ present, value, by rw [sameOid, sameCriticality, read]⟩
          have reached : Reading registry _ _ _ :=
            Reading.controls id valid (forall_mem_concat received made)
          rw [OpenElement.controls, List.map_append] at reached
          exact ⟨_, reached, Control.adds_layout present read⟩
  | control => cases canEnd
  | _ => cases shape

/-- At the end of a message the draft holds the whole of it. -/
theorem finish {state : State} {draft : Draft} {top : OpenElement} {elements : List OpenElement}
    (reading : Reading registry state draft elements) (shape : elements = [top])
    (canEnd : state.canEnd = true) : draft.Delivers registry top := by
  cases reading with
  | operation known inner =>
      obtain ⟨first, rest, rfl⟩ := List.exists_cons_of_ne_nil
        ((known.withinOperation : Situation.WithinOperation _ registry _).nonempty inner)
      exact absurd (List.cons.inj shape).2 (List.concat_ne_nil _ _)
  | afterOp id valid =>
      cases shape
      exact ⟨rfl, _, rfl, valid, nofun, rfl⟩
  | afterControls id valid received =>
      cases shape
      exact ⟨rfl, _, rfl, valid, received, rfl⟩
  | start | messageId | protocolOp => cases canEnd
  | _ => cases shape

end Reading

end LdapWire
