import LdapWire.Ber.Reader
import LdapWire.Ber.Writer
import LdapWire.Operation.Basic

/-!
# Cancelling an operation

The extended operation that asks a server to give up an outstanding operation.
Its value is a sequence of the identifier of that operation; the response is an
extended response with neither name nor value.
-/

set_option autoImplicit false

namespace LdapWire

open Ber

/-- A request to give up the operation with the given identifier. -/
structure CancelRequest where
  id : Int32
deriving DecidableEq

namespace CancelRequest

def oid : String := "1.3.6.1.1.8"

/-- Success, canceled, noSuchOperation, tooLate and cannotCancel: the codes that
a response may carry. -/
def resultCodes : List Int32 := [0, 118, 119, 120, 121]

/-- The number of octets inside the sequence. -/
def contentLength (request : CancelRequest) : Nat :=
  2 + Integer.byteWidth request.id.toInt

def encode (request : CancelRequest) : Step Writer Unit := do
  Writer.writeTag Tag.sequence
  Writer.writeLength request.contentLength
  Writer.writeInteger request.id.toInt

/-- The octets of the request's value, written into a buffer of the exact size. -/
def toValue (request : CancelRequest) : Codec Bytes :=
  match request.encode.run (Writer.ofBuffer (List.replicate (2 + request.contentLength) 0)) with
  | .ok _ writer => .ok writer.buffer
  | .error error _ => .error error

/-- The field inside the sequence. -/
def fields : Reader CancelRequest := do
  let id ← Reader.integer
  Reader.finish
  if id < 0 then throw (.violation (.invalid "cancelID" id.toInt))
  return { id }

def parse (value : Bytes) : Codec CancelRequest := Reader.soleSequence fields value

def toOperation (request : CancelRequest) : Codec Operation := do
  return .extendedRequest { name := oid, value := some (← request.toValue) }

/-- The cancel request inside an extended request, or nothing if that is of
another kind. -/
def ofRequest (request : ExtendedRequest) : Codec (Option CancelRequest) := do
  if request.name ≠ oid then return none
  match request.value with
  | none => throw (.violation .cancelWithoutValue)
  | some value => return some (← parse value)

/-- The response to a cancel request. -/
def response (code : Int32) (diagnostic : String) : Codec Operation :=
  if resultCodes.contains code then
    .ok (.extendedResponse { result := { code, diagnostic } })
  else .error (.violation (.cancelResultCode code.toInt))

end CancelRequest

end LdapWire
