/-!
# Kinds of protocol operation

The twenty-one operations of the protocol, without their content. Six responses
carry a bare result and nothing else; they are told apart by `PlainResponse`.
-/

set_option autoImplicit false

namespace LdapWire

/-- The responses that consist of a result only. -/
inductive PlainResponse where
  | searchResultDone
  | modify
  | add
  | del
  | modifyDn
  | compare
deriving DecidableEq

/-- The operation that a message asks for or answers. -/
inductive OperationKind where
  | bindRequest
  | bindResponse
  | unbindRequest
  | searchRequest
  | searchResultEntry
  | searchResultReference
  | modifyRequest
  | addRequest
  | delRequest
  | modifyDnRequest
  | compareRequest
  | abandonRequest
  | extendedRequest
  | extendedResponse
  | intermediateResponse
  | plain (response : PlainResponse)
deriving DecidableEq

namespace PlainResponse

/-- The words that make up the name of the operation. -/
def words : PlainResponse → List String
  | .searchResultDone => ["search", "result", "done"]
  | .modify => ["modify", "response"]
  | .add => ["add", "response"]
  | .del => ["del", "response"]
  | .modifyDn => ["modify", "dn", "response"]
  | .compare => ["compare", "response"]

/-- The identifier octet, an application tag. -/
def tag : PlainResponse → UInt8
  | .searchResultDone => 0x65
  | .modify => 0x67
  | .add => 0x69
  | .del => 0x6B
  | .modifyDn => 0x6D
  | .compare => 0x6F

end PlainResponse

namespace OperationKind

/-- The words that make up the name of the operation. -/
def words : OperationKind → List String
  | .bindRequest => ["bind", "request"]
  | .bindResponse => ["bind", "response"]
  | .unbindRequest => ["unbind", "request"]
  | .searchRequest => ["search", "request"]
  | .searchResultEntry => ["search", "result", "entry"]
  | .searchResultReference => ["search", "result", "reference"]
  | .modifyRequest => ["modify", "request"]
  | .addRequest => ["add", "request"]
  | .delRequest => ["del", "request"]
  | .modifyDnRequest => ["modify", "dn", "request"]
  | .compareRequest => ["compare", "request"]
  | .abandonRequest => ["abandon", "request"]
  | .extendedRequest => ["extended", "request"]
  | .extendedResponse => ["extended", "response"]
  | .intermediateResponse => ["intermediate", "response"]
  | .plain response => response.words

/-- The name in lower case, its words joined by underscores. -/
def name (kind : OperationKind) : String := "_".intercalate kind.words

/-- The name with every word capitalised and nothing between them. -/
def title (kind : OperationKind) : String :=
  String.join (kind.words.map String.capitalize)

/-- The identifier octet, an application tag. Unbind, delete and abandon
requests are primitive elements, the others are constructed. -/
def tag : OperationKind → UInt8
  | .bindRequest => 0x60
  | .bindResponse => 0x61
  | .unbindRequest => 0x42
  | .searchRequest => 0x63
  | .searchResultEntry => 0x64
  | .searchResultReference => 0x73
  | .modifyRequest => 0x66
  | .addRequest => 0x68
  | .delRequest => 0x4A
  | .modifyDnRequest => 0x6C
  | .compareRequest => 0x6E
  | .abandonRequest => 0x50
  | .extendedRequest => 0x77
  | .extendedResponse => 0x78
  | .intermediateResponse => 0x79
  | .plain response => response.tag

/-- Whether a client sends the operation. -/
def isRequest : OperationKind → Bool
  | .bindRequest | .unbindRequest | .searchRequest | .modifyRequest | .addRequest | .delRequest
  | .modifyDnRequest | .compareRequest | .abandonRequest | .extendedRequest => true
  | _ => false

end OperationKind

end LdapWire
