import LdapWire.Message
import LdapWire.Control.Registry

/-!
# Well-formed messages

The rules that a message must keep to be sent, and that a received message is
known to keep: fields that must not be empty, numbers with a range of their own,
and controls whose values are what the built-in registry makes of them.
-/

set_option autoImplicit false

namespace LdapWire

/-! ## Filters -/

namespace Filter

mutual

/-- Every connective has children, every attribute a description, and every
pattern and every rule something to match. -/
def WellFormed : Filter → Prop
  | .and children | .or children => children ≠ [] ∧ AllWellFormed children
  | .not child => WellFormed child
  | .compare _ assertion => assertion.description ≠ ""
  | .substrings pattern =>
      pattern.description ≠ "" ∧
        (pattern.initial.isSome ∨ pattern.any ≠ [] ∨ pattern.final.isSome)
  | .present description => description ≠ ""
  | .extensible condition =>
      (condition.rule.isSome ∨ condition.description.isSome)
        ∧ condition.rule ≠ some "" ∧ condition.description ≠ some ""

def AllWellFormed : List Filter → Prop
  | [] => True
  | filter :: rest => WellFormed filter ∧ AllWellFormed rest

end

end Filter

/-! ## Operations -/

/-- A result with a code that is not negative, and with referrals that lead somewhere. -/
structure LdapResult.WellFormed (result : LdapResult) : Prop where
  code : 0 ≤ result.code
  referrals : "" ∉ result.referrals

structure SearchRequest.WellFormed (request : SearchRequest) : Prop where
  sizeLimit : 0 ≤ request.sizeLimit
  timeLimit : 0 ≤ request.timeLimit
  filter : request.filter.WellFormed

def Operation.WellFormed : Operation → Prop
  | .bindRequest request => 1 ≤ request.version ∧ request.version ≤ 127
  | .bindResponse response => response.result.WellFormed
  | .unbindRequest | .delRequest _ | .abandonRequest _ => True
  | .searchRequest request => request.WellFormed
  | .searchResultEntry entry => ∀ listed ∈ entry.attributes, listed.description ≠ ""
  | .searchResultReference uris => uris ≠ [] ∧ "" ∉ uris
  | .modifyRequest request => ∀ change ∈ request.changes, change.modification.description ≠ ""
  | .addRequest request =>
      ∀ listed ∈ request.attributes, listed.description ≠ "" ∧ listed.values ≠ []
  | .modifyDnRequest request => request.newRdn ≠ ""
  | .compareRequest request => request.assertion.description ≠ ""
  | .extendedRequest request => request.name ≠ ""
  | .extendedResponse response => response.result.WellFormed ∧ response.name ≠ some ""
  | .intermediateResponse response => response.name ≠ some ""
  | .plain _ result => result.WellFormed

/-! ## Controls and messages -/

/-- Whether a control with the given OID may carry a value. A control that the
registry does not know is not critical and keeps its octets; one that it knows
has no value or its own payload. -/
def ControlValue.WellFormed (oid : String) (critical : Bool) : ControlValue → Prop
  | .absent => critical = true → Registry.builtin.isRegistered oid = true
  | .raw _ => critical = false ∧ Registry.builtin.isRegistered oid = false
  | .decoded (.paged paged) => oid = PagedResults.oid ∧ 0 ≤ paged.size
  | .decoded (.sync _) => oid = SyncRequest.oid
  | .decoded (.custom ..) => False

structure Control.WellFormed (control : Control) : Prop where
  oid : control.oid ≠ ""
  value : control.value.WellFormed control.oid control.critical

structure Message.WellFormed (message : Message) : Prop where
  operation : message.operation.WellFormed
  controls : ∀ control ∈ message.controls, control.WellFormed

end LdapWire
