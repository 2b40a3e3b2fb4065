import LdapWire.Control.Registry
import LdapWire.Filter.Builder
import LdapWire.Message

/-!
# Messages under construction

A `Draft` holds the parts of a message that have been read, and the pieces that
are complete only when the element around them ends: a control, an attribute,
the kind of a change and the filter of a search.

The steps below each touch one of these parts. A step that finds its part
missing fails and leaves the draft alone.
-/

set_option autoImplicit false

namespace LdapWire

/-- The fields of a control that have been read. -/
structure ControlDraft where
  oid : String := ""
  critical : Bool := false
  value : Option Bytes := none
deriving DecidableEq

/-- A message of which some parts have been read. -/
structure Draft where
  id : Option Int32 := none
  operation : Option Operation := none
  /-- The finished controls, in order. -/
  controls : List Control := []
  openControl : Option ControlDraft := none
  openAttribute : Option Attribute := none
  changeKind : Option ChangeKind := none
  filter : FilterBuilder := {}
deriving DecidableEq

namespace Draft

/-- Starts the operation of the message, which must not have one yet. -/
def start (operation : Operation) : Step Draft Unit := fun draft =>
  if draft.operation.isSome then .error (.violation .operationPresent) draft
  else .ok () { draft with operation := some operation }

/-- Changes the operation, which must be of the given kind. -/
def update (kind : OperationKind) (change : Operation → Option Operation) : Step Draft Unit :=
  fun draft =>
    match draft.operation.bind change with
    | some operation => .ok () { draft with operation := some operation }
    | none => .error (.violation (.expectedOperation kind)) draft

/-- Changes the result that the operation carries. -/
def updateResult (change : LdapResult → LdapResult) : Step Draft Unit := fun draft =>
  match draft.operation.bind (Operation.modifyResult? change) with
  | some operation => .ok () { draft with operation := some operation }
  | none => .error (.violation .resultMissing) draft

/-- Changes the open control. -/
def updateControl (change : ControlDraft → ControlDraft) : Step Draft Unit := fun draft =>
  match draft.openControl with
  | some control => .ok () { draft with openControl := some (change control) }
  | none => .error (.violation .controlMissing) draft

/-- Changes the open attribute. -/
def updateAttribute (change : Attribute → Attribute) : Step Draft Unit := fun draft =>
  match draft.openAttribute with
  | some current => .ok () { draft with openAttribute := some (change current) }
  | none => .error (.violation .attributeMissing) draft

/-- Takes a step in assembling the filter. -/
def onFilter {α : Type} (step : Step FilterBuilder α) : Step Draft α := fun draft =>
  match step draft.filter with
  | .ok value filter => .ok value { draft with filter }
  | .error error filter => .error error { draft with filter }

/-- Changes the current filter item, which must be of the kind that `change`
accepts. -/
def updateLeaf (mismatch : Violation) (change : Filter → Option Filter) : Step Draft Unit :=
  onFilter do
    match change (← FilterBuilder.currentLeaf) with
    | some filter => FilterBuilder.replaceLeaf filter
    | none => throw (.violation mismatch)

/-- Turns the open control into a control of the message. -/
def finishControl (registry : Registry) : Step Draft Unit := fun draft =>
  match draft.openControl with
  | none => .error (.violation .controlMissing) draft
  | some fields =>
      let closed := { draft with openControl := none }
      match registry.readControl fields.oid fields.critical fields.value with
      | .ok control => .ok () { closed with controls := closed.controls ++ [control] }
      | .error error => .error error closed

/-- Adds an attribute to the operation, as a change of the given kind if the
operation is a modification. -/
def addAttribute (addition : Attribute) (kind : Option ChangeKind) :
    Option Operation → Codec Operation
  | some (.searchResultEntry entry) =>
      .ok (.searchResultEntry { entry with attributes := entry.attributes ++ [addition] })
  | some (.addRequest request) =>
      if addition.values = [] then
        .error (.violation (.valuelessAttribute addition.description))
      else .ok (.addRequest { request with attributes := request.attributes ++ [addition] })
  | some (.modifyRequest request) =>
      match kind with
      | some kind =>
          .ok (.modifyRequest
            { request with changes := request.changes ++ [{ kind, modification := addition }] })
      | none => .error (.violation .changeOperationMissing)
  | _ => .error (.violation .attributeMisplaced)

/-- Turns the open attribute into one of the operation. -/
def finishAttribute : Step Draft Unit := fun draft =>
  match draft.openAttribute with
  | none => .error (.violation .attributeMissing) draft
  | some addition =>
      let closed := { draft with openAttribute := none, changeKind := none }
      match addAttribute addition draft.changeKind draft.operation with
      | .ok operation => .ok () { closed with operation := some operation }
      | .error error => .error error closed

/-- The message, once its identifier and its operation are there. -/
def toMessage (draft : Draft) : Codec Message :=
  match draft.id, draft.operation with
  | none, _ => .error (.violation .identifierMissing)
  | some _, none => .error (.violation .operationMissing)
  | some id, some operation => .ok { id, operation, controls := draft.controls }

end Draft

end LdapWire
