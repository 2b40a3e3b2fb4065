import LdapWire.Proofs.Reading.Basic

/-!
# Reading assertions

An assertion is an attribute description and a value. It is what a compare
request asks about, and what the four comparisons of a search filter hold.
-/

set_option autoImplicit false

namespace LdapWire

open Ber
open Grammar (Close State)

/-- The states inside an assertion with what has been read of it. The element of
the assertion is followed by `close` and stands inside `outer`. -/
inductive AssertionReading (close : Close) (outer : List OpenElement) :
    State → Assertion → List OpenElement → Prop where
  | description : AssertionReading close outer .avaDesc {} ({ close } :: outer)
  | value {description : String} (nonempty : description ≠ "") :
      AssertionReading close outer .avaValue { description }
        ({ close, parts := [Layout.text Tag.octetString description] } :: outer)
  | finished {description : String} (nonempty : description ≠ "") (value : Bytes) :
      AssertionReading close outer .avaEnd { description, value }
        ({ close,
           parts := [Layout.text Tag.octetString description,
            Layout.primitive Tag.octetString value] } :: outer)

theorem Assertion.layouts_eq {assertion : Assertion} (nonempty : assertion.description ≠ "") :
    assertion.layouts = [Layout.text Tag.octetString assertion.description,
      .primitive Tag.octetString assertion.value] := by
  rw [Assertion.layouts, Layout.attributeName_eq nonempty]

/-- Elements inside an assertion lead on, in every situation whose drafts hold an
assertion that can be changed. -/
theorem AssertionReading.element {S : Situation} {registry : Registry} {close : Close}
    {outer : List OpenElement} (Holds : Assertion → Draft → Prop)
    (reads : ∀ {state assertion draft elements},
      AssertionReading close outer state assertion elements → Holds assertion draft →
        S state draft elements)
    (updates : ∀ {assertion draft} (change : Assertion → Assertion), Holds assertion draft →
      ∃ after, Draft.updateAssertion change draft = .ok () after ∧ Holds (change assertion) after)
    {state : State} {assertion : Assertion} {draft : Draft} {elements : List OpenElement}
    (reading : AssertionReading close outer state assertion elements)
    (holds : Holds assertion draft) : S.ReadsAll registry draft elements state.rules := by
  cases reading with
  | description =>
      refine ⟨.field (Content.nonEmptyText _) (fun _ => rfl) fun description nonempty => ?_,
        trivial⟩
      obtain ⟨after, ran, changed⟩ :=
        updates (fun assertion => { assertion with description }) holds
      exact ⟨after, ran, reads (.value nonempty) changed⟩
  | value nonempty =>
      refine ⟨.octets fun tlv => ?_, trivial⟩
      obtain ⟨after, ran, changed⟩ :=
        updates (fun assertion => { assertion with value := tlv.value }) holds
      exact ⟨after, ran, reads (.finished nonempty tlv.value) changed⟩
  | finished => exact trivial

/-! ## Compare requests -/

/-- The situations inside a compare request. -/
inductive CompareReading (id : Int32) : Situation where
  | entry :
      CompareReading id .compareEntry { id := some id, operation := some (.compareRequest {}) }
        [{ close := .afterOperation }]
  | ava (entry : String) :
      CompareReading id .compareAva
        { id := some id, operation := some (.compareRequest { entry }) }
        [{ close := .afterOperation, parts := [Layout.text Tag.octetString entry] }]
  | inside (entry : String) {state : State} {assertion : Assertion} {elements : List OpenElement}
      (inner : AssertionReading { action := none, resume := .compareEnd }
        [{ close := .afterOperation, parts := [Layout.text Tag.octetString entry] }]
        state assertion elements) :
      CompareReading id state
        { id := some id, operation := some (.compareRequest { entry, assertion }) } elements
  | finished (entry : String) {assertion : Assertion} (nonempty : assertion.description ≠ "") :
      CompareReading id .compareEnd
        { id := some id, operation := some (.compareRequest { entry, assertion }) }
        [{ close := .afterOperation,
           parts := [Layout.text Tag.octetString entry,
            Layout.constructed Tag.sequence assertion.layouts] }]

namespace CompareReading

variable {id : Int32} {registry : Registry}

theorem element {state : State} {draft : Draft} {elements : List OpenElement}
    (reading : CompareReading id state draft elements) :
    (CompareReading id).ReadsAll registry draft elements state.rules := by
  cases reading with
  | entry =>
      exact ⟨.field (Content.text _) (fun _ => rfl) fun entry _ => ⟨_, rfl, .ava entry⟩, trivial⟩
  | ava entry => exact ⟨.wrapper (.inside entry .description), trivial⟩
  | inside entry inner =>
      refine AssertionReading.element
        (fun assertion draft =>
          draft = { id := some id, operation := some (.compareRequest { entry, assertion }) })
        ?_ ?_ inner rfl
      · rintro _ _ _ _ inner rfl
        exact .inside entry inner
      · rintro _ _ change rfl
        exact ⟨_, rfl, rfl⟩
  | finished => exact trivial

theorem ending {state : State} {draft : Draft} {top next : OpenElement}
    {outer : List OpenElement} (reading : CompareReading id state draft (top :: next :: outer))
    (canEnd : state.canEnd = true) :
    (CompareReading id).Ends registry draft top (next :: outer) := by
  cases reading with
  | inside entry inner =>
      cases inner with
      | description | value => cases canEnd
      | @finished description nonempty value =>
          refine .wrapper Tag.sequence ?_
          have reached : CompareReading id _ _ _ :=
            @finished id entry { description, value } nonempty
          rw [Assertion.layouts_eq nonempty] at reached
          exact reached

theorem finish {state : State} {draft : Draft} {top : OpenElement}
    (reading : CompareReading id state draft [top]) (canEnd : state.canEnd = true) :
    draft.Completes id top := by
  cases reading with
  | inside entry inner => cases inner
  | finished entry nonempty => exact ⟨rfl, _, rfl, nonempty, rfl⟩
  | entry | ava => cases canEnd

theorem withinOperation : (CompareReading id).WithinOperation registry id where
  nonempty reading := by
    cases reading with
    | inside entry inner => cases inner <;> exact List.cons_ne_nil _ _
    | _ => exact List.cons_ne_nil _ _
  element := element
  ending reading canEnd _ := ending reading canEnd
  finish := finish

end CompareReading

end LdapWire
