import LdapWire.Proofs.Reading.Basic

/-!
# Reading a bind request
-/

set_option autoImplicit false

namespace LdapWire

open Ber
open Grammar (State)

/-- What the encoder writes for a request with a version in range. -/
theorem BindRequest.layouts_eq {request : BindRequest}
    (valid : 1 ≤ request.version ∧ request.version ≤ 127) :
    request.layouts = [Layout.integer Tag.integer request.version.toInt,
      Layout.text Tag.octetString request.name, request.authentication.layout] := by
  have inside : ¬ (request.version < 1 ∨ 127 < request.version) := by
    rw [not_or, Int32.not_lt, Int32.not_lt]
    exact valid
  simp only [BindRequest.layouts, Bool.or_eq_true, decide_eq_true_eq, if_neg inside, Layout.checked]

/-- The situations inside a bind request. -/
inductive BindReading (id : Int32) : Situation where
  | version :
      BindReading id .bindVersion { id := some id, operation := some (.bindRequest {}) }
        [{ close := .afterOperation }]
  | name {version : Int32} (valid : 1 ≤ version ∧ version ≤ 127) :
      BindReading id .bindName { id := some id, operation := some (.bindRequest { version }) }
        [{ close := .afterOperation, parts := [Layout.integer Tag.integer version.toInt] }]
  | authentication {version : Int32} (valid : 1 ≤ version ∧ version ≤ 127) (name : String) :
      BindReading id .bindAuth { id := some id, operation := some (.bindRequest { version, name }) }
        [{ close := .afterOperation,
           parts := [Layout.integer Tag.integer version.toInt, Layout.text Tag.octetString name] }]
  | mechanism {version : Int32} (valid : 1 ≤ version ∧ version ≤ 127) (name : String) :
      BindReading id .saslMechanism
        { id := some id,
          operation := some (.bindRequest
            { version, name, authentication := .sasl "" none }) }
        [{ close := { action := none, resume := .bindEnd } },
         { close := .afterOperation,
           parts := [Layout.integer Tag.integer version.toInt, Layout.text Tag.octetString name] }]
  | sasl {version : Int32} (valid : 1 ≤ version ∧ version ≤ 127) (name mechanism : String)
      (credentials : Option Bytes) :
      BindReading id (if credentials.isSome then .saslEnd else .saslCredentials)
        { id := some id,
          operation := some (.bindRequest
            { version, name, authentication := .sasl mechanism credentials }) }
        [{ close := { action := none, resume := .bindEnd },
           parts := Layout.text Tag.octetString mechanism
            :: Layout.optional (Layout.primitive Tag.octetString) credentials },
         { close := .afterOperation,
           parts := [Layout.integer Tag.integer version.toInt, Layout.text Tag.octetString name] }]
  | finished (request : BindRequest) (valid : 1 ≤ request.version ∧ request.version ≤ 127) :
      BindReading id .bindEnd { id := some id, operation := some (.bindRequest request) }
        [{ close := .afterOperation,
           parts := [Layout.integer Tag.integer request.version.toInt,
            Layout.text Tag.octetString request.name, request.authentication.layout] }]

namespace BindReading

variable {id : Int32} {registry : Registry}

theorem element {state : State} {draft : Draft} {elements : List OpenElement}
    (reading : BindReading id state draft elements) :
    (BindReading id).ReadsAll registry draft elements state.rules := by
  cases reading with
  | version =>
      exact ⟨.field Content.bindVersion (fun _ => rfl) fun _ valid =>
        ⟨_, rfl, .name valid⟩, trivial⟩
  | name valid =>
      exact ⟨.field (Content.text _) (fun _ => rfl) fun name _ =>
        ⟨_, rfl, .authentication valid name⟩, trivial⟩
  | @authentication version valid name =>
      exact ⟨.octets fun tlv =>
          ⟨_, rfl, .finished { version, name, authentication := .simple tlv.value } valid⟩,
        .opening (fun _ => rfl) (.mechanism valid name), trivial⟩
  | mechanism valid name =>
      exact ⟨.field (Content.text _) (fun _ => rfl) fun mechanism _ =>
        ⟨_, rfl, .sasl valid name mechanism none⟩, trivial⟩
  | sasl valid name mechanism credentials =>
      cases credentials with
      | none =>
          exact ⟨.octets fun tlv => ⟨_, rfl, .sasl valid name mechanism (some tlv.value)⟩, trivial⟩
      | some credentials => exact trivial
  | finished => exact trivial

theorem ending {state : State} {draft : Draft} {top next : OpenElement}
    {outer : List OpenElement} (reading : BindReading id state draft (top :: next :: outer))
    (canEnd : state.canEnd = true) :
    (BindReading id).Ends registry draft top (next :: outer) := by
  cases reading with
  | mechanism => cases canEnd
  | @sasl version valid name mechanism credentials =>
      exact .wrapper 0xA3
        (.finished { version, name, authentication := .sasl mechanism credentials } valid)

theorem finish {state : State} {draft : Draft} {top : OpenElement}
    (reading : BindReading id state draft [top]) (canEnd : state.canEnd = true) :
    draft.Completes id top := by
  cases reading with
  | finished request valid =>
      refine ⟨rfl, .bindRequest request, rfl, valid, ?_⟩
      simp only [Operation.layout, Operation.parts, BindRequest.layouts_eq valid]
  | _ => cases canEnd

theorem withinOperation : (BindReading id).WithinOperation registry id where
  nonempty reading := by cases reading <;> exact List.cons_ne_nil _ _
  element := element
  ending reading canEnd _ := ending reading canEnd
  finish := finish

end BindReading

end LdapWire
