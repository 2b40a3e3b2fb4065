import LdapWire.Message

/-!
# Batches

Rules for processing a sequence of messages. Responses that may come in any order
are told apart by their identifiers alone, so a request that runs in parallel
with others must then have a positive one. A response that reports a failed
operation ends the batch, unless the batch is to go on.
-/

set_option autoImplicit false

namespace LdapWire

namespace Batch

/-- Whether operations run one at a time. -/
inductive Processing where
  | sequential
  | parallel
deriving DecidableEq

/-- Whether responses come in the order of their requests. -/
inductive ResponseOrder where
  | sequential
  | unordered
deriving DecidableEq

/-- What a failed operation does to the batch. -/
inductive OnError where
  | exit
  | resume
deriving DecidableEq

/-- How a batch is processed. -/
structure Policy where
  processing : Processing := .sequential
  responseOrder : ResponseOrder := .sequential
  onError : OnError := .exit
deriving DecidableEq

/-- Why a batch stops. -/
inductive Failure where
  | missingRequestId (id : Int32)
  | operationFailed (id : Int32) (operation : OperationKind) (code : Int32)
deriving DecidableEq

namespace Failure

/-- The failure in words. -/
def message : Failure → String
  | .missingRequestId id =>
      s!"Message {id}: a positive request id is required when processing is parallel "
        ++ "and responses are unordered"
  | .operationFailed id operation code =>
      s!"Message {id}: {operation.name} failed with result code {code}"

end Failure

/-- The result codes of operations that have not failed: success, a comparison
that is false or true, and a referral. -/
def successCodes : List Int32 := [0, 5, 6, 10]

/-- The failure that a message reports of its operation. -/
def failure? (message : Message) : Option Failure :=
  match message.operation.result? with
  | none => none
  | some result =>
      if successCodes.contains result.code then none
      else some (.operationFailed message.id message.operation.kind result.code)

namespace Policy

def requiresPositiveId (policy : Policy) : Bool :=
  policy.processing == .parallel && policy.responseOrder == .unordered

def continuesOnError (policy : Policy) : Bool := policy.onError == .resume

/-- Checks the identifier of a message. -/
def checkId (policy : Policy) (message : Message) : Except Failure Unit :=
  if policy.requiresPositiveId && message.id ≤ 0 then .error (.missingRequestId message.id)
  else .ok ()

/-- Checks a message. The batch must stop at an error; a failure that it may go on
after is returned. -/
def process (policy : Policy) (message : Message) : Except Failure (Option Failure) := do
  policy.checkId message
  match failure? message with
  | none => return none
  | some failure =>
      if policy.continuesOnError then return some failure else throw failure

end Policy

end Batch

end LdapWire
