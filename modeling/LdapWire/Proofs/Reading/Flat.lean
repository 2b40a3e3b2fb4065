import LdapWire.Proofs.Reading.Basic

/-!
# Reading operations without inner elements

Search result references, requests to modify a DN, extended requests and
intermediate responses are sequences of primitive elements.
-/

set_option autoImplicit false

namespace LdapWire

open Ber
open Grammar (State)

/-- The situations inside a search result reference, a modify DN request, an extended request or
an intermediate response. -/
inductive FlatReading (id : Int32) : Situation where
  | reference (uris : List String) (nonempty : "" ∉ uris) :
      FlatReading id (if uris = [] then .referenceUri else .referenceMore)
        { id := some id, operation := some (.searchResultReference uris) }
        [{ close := .afterOperation, parts := uris.map (Layout.text Tag.octetString) }]
  | renamed :
      FlatReading id .modDnEntry { id := some id, operation := some (.modifyDnRequest {}) }
        [{ close := .afterOperation }]
  | newRdn (entry : String) :
      FlatReading id .modDnNewRdn { id := some id, operation := some (.modifyDnRequest { entry }) }
        [{ close := .afterOperation, parts := [Layout.text Tag.octetString entry] }]
  | deleteOld (entry : String) {newRdn : String} (nonempty : newRdn ≠ "") :
      FlatReading id .modDnDeleteOld
        { id := some id, operation := some (.modifyDnRequest { entry, newRdn }) }
        [{ close := .afterOperation,
           parts := [Layout.text Tag.octetString entry, Layout.text Tag.octetString newRdn] }]
  | superior (entry : String) {newRdn : String} (nonempty : newRdn ≠ "") (deleteOldRdn : Bool)
      (newSuperior : Option String) :
      FlatReading id (if newSuperior.isSome then .modDnEnd else .modDnNewSuperior)
        { id := some id,
          operation := some (.modifyDnRequest { entry, newRdn, deleteOldRdn, newSuperior }) }
        [{ close := .afterOperation,
           parts := [Layout.text Tag.octetString entry, Layout.text Tag.octetString newRdn,
              Layout.boolean Tag.boolean deleteOldRdn]
            ++ Layout.optional (Layout.text 0x80) newSuperior }]
  | requestName :
      FlatReading id .extRequestName { id := some id, operation := some (.extendedRequest {}) }
        [{ close := .afterOperation }]
  | requestValue {name : String} (nonempty : name ≠ "") (value : Option Bytes) :
      FlatReading id (if value.isSome then .extRequestEnd else .extRequestValue)
        { id := some id, operation := some (.extendedRequest { name, value }) }
        [{ close := .afterOperation,
           parts := Layout.text 0x80 name :: Layout.optional (Layout.primitive 0x81) value }]
  | intermediate (name : Option String) (nonempty : name ≠ some "") (value : Option Bytes) :
      FlatReading id
        (if value.isSome then .intermediateEnd
          else if name.isSome then .intermediateValue else .intermediateName)
        { id := some id, operation := some (.intermediateResponse { name, value }) }
        [{ close := .afterOperation,
           parts := Layout.optional (Layout.text 0x80) name
            ++ Layout.optional (Layout.primitive 0x81) value }]

namespace FlatReading

variable {id : Int32} {registry : Registry}

/-- Another URI of a reference. -/
theorem anotherUri {uris : List String} (nonempty : "" ∉ uris) :
    (FlatReading id).Reads registry
      { id := some id, operation := some (.searchResultReference uris) }
      [{ close := .afterOperation, parts := uris.map (Layout.text Tag.octetString) }]
      (.primitive Tag.octetString .addReferenceUri .referenceMore) := by
  refine .field (Content.nonEmptyText _) (fun _ => rfl) fun uri present => ⟨_, rfl, ?_⟩
  have stillNonempty : "" ∉ uris ++ [uri] := by
    intro listed
    rcases List.mem_append.1 listed with before | last
    · exact nonempty before
    · exact present (List.mem_singleton.1 last).symm
  have reached : FlatReading id _ _ _ := reference _ stillNonempty
  have some_uri : uris ++ [uri] ≠ [] := by simp
  rw [if_neg some_uri, List.map_append] at reached
  exact reached

theorem element {state : State} {draft : Draft} {elements : List OpenElement}
    (reading : FlatReading id state draft elements) :
    (FlatReading id).ReadsAll registry draft elements state.rules := by
  cases reading with
  | reference uris nonempty => split <;> exact ⟨anotherUri nonempty, trivial⟩
  | renamed =>
      exact ⟨.field (Content.text _) (fun _ => rfl) fun entry _ => ⟨_, rfl, .newRdn entry⟩, trivial⟩
  | newRdn entry =>
      exact ⟨.field (Content.nonEmptyText _) (fun _ => rfl) fun _ nonempty =>
        ⟨_, rfl, .deleteOld entry nonempty⟩, trivial⟩
  | deleteOld entry nonempty =>
      exact ⟨.field Content.truth (fun _ => rfl) fun deleteOldRdn _ =>
        ⟨_, rfl, .superior entry nonempty deleteOldRdn none⟩, trivial⟩
  | superior entry nonempty deleteOldRdn newSuperior =>
      cases newSuperior with
      | none =>
          exact ⟨.field (Content.text _) (fun _ => rfl) fun newSuperior _ =>
            ⟨_, rfl, .superior entry nonempty deleteOldRdn (some newSuperior)⟩, trivial⟩
      | some newSuperior => exact trivial
  | requestName =>
      exact ⟨.field (Content.nonEmptyText _) (fun _ => rfl) fun _ nonempty =>
        ⟨_, rfl, .requestValue nonempty none⟩, trivial⟩
  | requestValue nonempty value =>
      cases value with
      | none =>
          exact ⟨.octets fun tlv => ⟨_, rfl, .requestValue nonempty (some tlv.value)⟩, trivial⟩
      | some value => exact trivial
  | intermediate name nonempty value =>
      cases value with
      | some value => exact trivial
      | none =>
          cases name with
          | none =>
              refine ⟨.field (Content.nonEmptyText _) (fun _ => rfl) fun name present =>
                ⟨_, rfl, ?_⟩, ?_, trivial⟩
              · exact .intermediate (some name)
                  (fun empty => present (Option.some.inj empty)) none
              · exact .octets fun tlv => ⟨_, rfl, .intermediate none nonempty (some tlv.value)⟩
          | some name =>
              exact ⟨.octets fun tlv =>
                ⟨_, rfl, .intermediate (some name) nonempty (some tlv.value)⟩, trivial⟩

theorem finish {state : State} {draft : Draft} {top : OpenElement}
    (reading : FlatReading id state draft [top]) (canEnd : state.canEnd = true) :
    draft.Completes id top := by
  cases reading with
  | reference uris nonempty =>
      by_cases none : uris = []
      · rw [if_pos none] at canEnd
        cases canEnd
      · refine ⟨rfl, _, rfl, ⟨none, nonempty⟩, ?_⟩
        have present : ¬ uris.isEmpty = true := by simpa using none
        simp only [Operation.layout, Operation.parts, if_neg present, Layout.checked,
          Layout.map_nonEmptyText nonempty]
  | superior entry nonempty deleteOldRdn newSuperior =>
      refine ⟨rfl, _, rfl, nonempty, ?_⟩
      simp only [Operation.layout, Operation.parts, ModifyDnRequest.layouts,
        Layout.nonEmptyText_eq nonempty]
  | requestValue nonempty value =>
      refine ⟨rfl, _, rfl, nonempty, ?_⟩
      simp only [Operation.layout, Operation.parts, Layout.nonEmptyText_eq nonempty]
  | intermediate name nonempty value =>
      refine ⟨rfl, _, rfl, nonempty, ?_⟩
      simp only [Operation.layout, Operation.parts, Layout.optional_nonEmptyText nonempty]
  | renamed | newRdn | deleteOld | requestName => cases canEnd

theorem withinOperation : (FlatReading id).WithinOperation registry id where
  nonempty reading := by cases reading <;> exact List.cons_ne_nil _ _
  element := element
  ending reading _ _ := by cases reading
  finish := finish

end FlatReading

end LdapWire
