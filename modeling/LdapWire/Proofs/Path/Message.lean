import LdapWire.Proofs.Control.Builtin
import LdapWire.Proofs.Encode.Permission
import LdapWire.Proofs.Path.Search
import LdapWire.Proofs.Reading.Message

/-!
# Paths through messages

A message with a well-formed operation is a path from the start of the grammar back to
it, at the end of which the draft holds the message (`Message.path`), if the registry
makes each of its controls of what is sent for it. The built-in registry does so for
well-formed controls.
-/

set_option autoImplicit false

namespace LdapWire

open Ber
open Grammar (Rule State)

/-! ## Operations -/

namespace Operation

variable {registry : Registry} {id : Int32}

/-- An operation that is a constructed element. -/
theorem path_of_route {operation : Operation} {first : State}
    (route : Route registry id first operation)
    (layout : operation.layout = .constructed operation.kind.tag operation.parts)
    (found : State.protocolOp.transition? operation.kind.tag
      = some (Rule.operation operation.kind first).transition) :
    Path registry [operation.layout] .protocolOp { id := some id } .afterOp
      { id := some id, operation := some operation } := by
  obtain ⟨last, complete, inside⟩ := route
  rw [layout]
  exact .opening found (fun _ => rfl) inside complete .done

/-- **Every well-formed operation** is a path. -/
theorem path {operation : Operation} (valid : operation.WellFormed) :
    Path registry [operation.layout] .protocolOp { id := some id } .afterOp
      { id := some id, operation := some operation } := by
  cases operation with
  | unbindRequest =>
      refine .primitive rfl rfl (fun tlv _ size => ?_) .done
      have nothing : ¬ tlv.length ≠ 0 := not_not.2 size
      exact congrFun (if_neg nothing) _
  | delRequest entry => exact .field (Content.text _) trivial (fun _ => rfl) rfl rfl .done
  | abandonRequest target => exact .field Content.integer trivial (fun _ => rfl) rfl rfl .done
  | bindRequest request => exact path_of_route (BindRequest.route valid) rfl rfl
  | bindResponse response => exact path_of_route (BindResponse.route valid) rfl rfl
  | searchRequest request => exact path_of_route (SearchRequest.route valid) rfl rfl
  | searchResultEntry entry => exact path_of_route (SearchResultEntry.route valid) rfl rfl
  | searchResultReference uris =>
      exact path_of_route (route_searchResultReference valid.1 valid.2) rfl rfl
  | modifyRequest request => exact path_of_route (ModifyRequest.route valid) rfl rfl
  | addRequest request => exact path_of_route (AddRequest.route valid) rfl rfl
  | modifyDnRequest request => exact path_of_route (ModifyDnRequest.route valid) rfl rfl
  | compareRequest request => exact path_of_route (CompareRequest.route valid) rfl rfl
  | extendedRequest request => exact path_of_route (ExtendedRequest.route valid) rfl rfl
  | extendedResponse response =>
      exact path_of_route (ExtendedResponse.route valid.1 valid.2) rfl rfl
  | intermediateResponse response =>
      exact path_of_route (IntermediateResponse.route valid) rfl rfl
  | plain response result =>
      exact path_of_route (PlainResponse.route response valid) rfl (by cases response <;> rfl)

end Operation

/-! ## Controls -/

namespace Control

variable {registry : Registry} {draft : Draft} {control : Control}

/-- The value of a control, if it has one. -/
theorem path_value
    (honest : ∀ payload, control.value = .decoded payload →
      payload.bytes.length = payload.encodedLength)
    {state : State} (position : state = .controlCriticality ∨ state = .controlValue) :
    ∃ last : State, last.canEnd = true
      ∧ Path registry control.value.layouts state
          { draft with openControl := some { oid := control.oid, critical := control.critical } }
          last
          { draft with
            openControl := some
              { oid := control.oid, critical := control.critical,
                value := control.value.sent } } := by
  have found : state.transition? Tag.octetString
      = some (Rule.primitive Tag.octetString .setControlValue .controlEnd).transition := by
    rcases position with rfl | rfl <;> rfl
  cases carried : control.value with
  | absent => exact ⟨state, by rcases position with rfl | rfl <;> rfl, .done⟩
  | raw content =>
      exact ⟨.controlEnd, rfl, .octets (fun _ spelled => by subst spelled; rfl) found .done⟩
  | decoded payload =>
      refine ⟨.controlEnd, rfl, .payload (honest payload carried) found rfl
        (fun tlv spelled _ => ?_) .done⟩
      rw [ControlValue.sent, ← spelled]
      rfl

/-- The parts of a control, up to its end. What the registry makes of them does not
matter yet. -/
theorem path_fields (nonempty : control.oid ≠ "")
    (honest : ∀ payload, control.value = .decoded payload →
      payload.bytes.length = payload.encodedLength) :
    ∃ last : State, last.canEnd = true
      ∧ Path registry
          (Layout.text Tag.octetString control.oid
            :: (if control.critical then [Layout.boolean Tag.boolean true] else [])
            ++ control.value.layouts)
          .controlType { draft with openControl := some {} } last
          { draft with
            openControl := some
              { oid := control.oid, critical := control.critical,
                value := control.value.sent } } := by
  cases critical : control.critical with
  | false =>
      obtain ⟨last, complete, valued⟩ := @path_value registry draft control honest _ (.inl rfl)
      rw [critical] at valued
      exact ⟨last, complete,
        .field (Content.nonEmptyText _) nonempty (fun _ => rfl) rfl rfl valued⟩
  | true =>
      obtain ⟨last, complete, valued⟩ := @path_value registry draft control honest _ (.inr rfl)
      rw [critical] at valued
      exact ⟨last, complete,
        .field (Content.nonEmptyText _) nonempty (fun _ => rfl) rfl rfl
          (.field Content.truth trivial (fun _ => rfl) rfl rfl valued)⟩

/-- A control among the controls of a message. -/
theorem path (sound : control.layout.Sound) (made : registry.reread control = .ok control)
    (idle : draft.openControl = none) :
    Path registry [control.layout] .controlsStart draft .controlsStart
      { draft with controls := draft.controls ++ [control] } := by
  obtain ⟨permitted, honest⟩ := Layout.sound_iff.1 sound
  obtain ⟨nonempty, matching⟩ := permitted_layout_iff.1 permitted
  have finished (tlv : Tlv) : Draft.act registry .finishControl tlv
        { draft with
          openControl := some
            { oid := control.oid, critical := control.critical, value := control.value.sent } }
      = .ok () { draft with controls := draft.controls ++ [control] } := by
    obtain ⟨id, operation, controls, openControl, openAttribute, changeKind, filter⟩ := draft
    cases idle
    rw [Registry.reread] at made
    simp only [Draft.act, Draft.finishControl, made]
  obtain ⟨last, complete, fields⟩ :=
    @path_fields registry draft control nonempty fun payload carried =>
      honest payload ((mem_payloads_iff permitted).2 carried)
  rw [layout_eq nonempty matching]
  exact .bracket rfl (fun _ _ => rfl) fields finished complete .done

/-- Controls one after another. -/
theorem path_all {id : Int32} {operation : Operation} {controls : List Control}
    (sound : ∀ control ∈ controls, control.layout.Sound)
    (made : ∀ control ∈ controls, registry.reread control = .ok control) :
    Path registry (controls.map layout) .controlsStart
      { id := some id, operation := some operation } .controlsStart
      { id := some id, operation := some operation, controls } :=
  .each (fun controls => { id := some id, operation := some operation, controls })
    (fun _ control listed => path (sound control listed) (made control listed) rfl) []

/-- A well-formed control refuses nothing, whatever its size. -/
theorem sound (valid : control.WellFormed) : control.layout.Sound := by
  rw [layout_eq valid.oid (mismatch?_eq_none valid)]
  have valued : Layout.AllSound control.value.layouts := by
    cases carried : control.value with
    | absent => simp only [ControlValue.layouts, Layout.AllSound]
    | raw content => simp only [ControlValue.layouts, Layout.AllSound, Layout.Sound, and_self]
    | decoded payload =>
        simp only [ControlValue.layouts, Layout.AllSound, Layout.Sound, and_true]
        exact honest valid carried
  cases control.critical with
  | false => simpa [Layout.Sound, Layout.AllSound, Layout.text] using valued
  | true => simpa [Layout.Sound, Layout.AllSound, Layout.text, Layout.boolean] using valued

theorem allSound {controls : List Control}
    (sound : ∀ control ∈ controls, control.layout.Sound) :
    Layout.AllSound (layoutAll controls) := by
  have inside : Layout.AllSound (controls.map layout) := by
    induction controls with
    | nil => simp only [List.map_nil, Layout.AllSound]
    | cons first others further =>
        rw [List.map_cons, Layout.AllSound]
        exact ⟨sound first List.mem_cons_self,
          further fun other later => sound other (List.mem_cons_of_mem _ later)⟩
  unfold layoutAll
  split
  · simp only [Layout.AllSound]
  · simpa only [Layout.AllSound, Layout.Sound, and_true] using inside

end Control

/-! ## Messages -/

namespace Message

variable {registry : Registry} {message : Message}

theorem path_controls (id : Int32) (operation : Operation) {controls : List Control}
    (sound : ∀ control ∈ controls, control.layout.Sound)
    (made : ∀ control ∈ controls, registry.reread control = .ok control) :
    ∃ last : State, last.canEnd = true
      ∧ Path registry (Control.layoutAll controls) .afterOp
          { id := some id, operation := some operation } last
          { id := some id, operation := some operation, controls } := by
  cases controls with
  | nil => exact ⟨.afterOp, rfl, .done⟩
  | cons first others =>
      exact ⟨.afterControls, rfl, .wrapper rfl (Control.path_all sound made) rfl .done⟩

/-- **Every message with a well-formed operation** is a path for a registry that makes its
controls. -/
theorem path (valid : message.operation.WellFormed)
    (sound : ∀ control ∈ message.controls, control.layout.Sound)
    (made : ∀ control ∈ message.controls, registry.reread control = .ok control) :
    ∃ last : State, last.canEnd = true
      ∧ Path registry
          (Message.headLayouts message.id message.operation ++ Control.layoutAll message.controls)
          .messageId {} last
          { id := some message.id, operation := some message.operation,
            controls := message.controls } := by
  obtain ⟨last, complete, controls⟩ := path_controls message.id message.operation sound made
  refine ⟨last, complete, .append ?_ controls⟩
  exact .field Content.integer trivial (fun _ => rfl) rfl rfl (Operation.path valid)

theorem sound_of_controls (valid : message.operation.WellFormed)
    (controls : ∀ control ∈ message.controls, control.layout.Sound) : message.layout.Sound := by
  have operation := (@Operation.path .builtin message.id _ valid).sound
  rw [Layout.AllSound] at operation
  rw [Message.layout, Layout.Sound, Layout.AllSound, Layout.AllSound, Layout.integer, Layout.Sound]
  exact ⟨trivial, operation.1, Control.allSound controls⟩

/-- A well-formed message refuses nothing, whatever its size. -/
theorem sound (valid : message.WellFormed) : message.layout.Sound :=
  sound_of_controls valid.operation fun control listed =>
    Control.sound (valid.controls control listed)

end Message

end LdapWire
