import LdapWire.Control.Paged
import LdapWire.Control.SyncRequest

/-!
# Controls

A control extends an operation. It has an OID, tells whether the receiver must
know it, and may carry a value: a payload of a known shape, or octets that are
passed on as they are.
-/

set_option autoImplicit false

namespace LdapWire

open Ber (Writer)

/-- A control value of a known shape. -/
inductive Payload where
  | paged (value : PagedResults)
  | sync (value : SyncRequest)
  /-- A payload of some other shape, known by the length it claims and the octets
  it writes. -/
  | custom (oid : String) (claimedLength : Nat) (content : Bytes)
deriving DecidableEq

namespace Payload

/-- The OID of the control that the payload belongs to. -/
def oid : Payload → String
  | .paged _ => PagedResults.oid
  | .sync _ => SyncRequest.oid
  | .custom oid _ _ => oid

/-- The number of octets that the payload claims to write. -/
def encodedLength : Payload → Nat
  | .paged value => value.encodedLength
  | .sync value => value.encodedLength
  | .custom _ claimedLength _ => claimedLength

def encode : Payload → Step Writer Unit
  | .paged value => value.encode
  | .sync value => value.encode
  | .custom _ _ content => Writer.write content

end Payload

/-- What a control carries besides its OID. -/
inductive ControlValue where
  | absent
  /-- The octets of a control that nobody registered a reader for. -/
  | raw (content : Bytes)
  | decoded (payload : Payload)
deriving DecidableEq

/-- A control of a message. -/
structure Control where
  oid : String
  /-- Whether a receiver that does not know the control must refuse the message. -/
  critical : Bool := false
  value : ControlValue := .absent
deriving DecidableEq

namespace Control

/-- A control that carries a payload under the payload's own OID. -/
def ofPayload (critical : Bool) (payload : Payload) : Control :=
  { oid := payload.oid, critical, value := .decoded payload }

end Control

end LdapWire
