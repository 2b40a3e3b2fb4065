import LdapWire.Control.Basic
import LdapWire.Operation.Basic

/-!
# Messages

A message is one operation under an identifier, with the controls that extend it.
-/

set_option autoImplicit false

namespace LdapWire

/-- A message of the protocol. -/
structure Message where
  id : Int32
  operation : Operation
  controls : List Control := []
deriving DecidableEq

namespace Message

/-- The first control with the given OID. -/
def control? (message : Message) (oid : String) : Option Control :=
  message.controls.find? (fun control => control.oid == oid)

/-- Adds a place to ask instead to the message's result, if it has one. -/
def addReferral (message : Message) (uri : String) : Message :=
  let extend (result : LdapResult) : LdapResult :=
    { result with referrals := result.referrals ++ [uri] }
  match message.operation.modifyResult? extend with
  | some operation => { message with operation }
  | none => message

end Message

end LdapWire
