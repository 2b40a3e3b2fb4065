import LdapWire.Error

/-!
# Protocol operations

The requests and responses of the protocol with their fields. `Operation` is the
closed sum of all of them; the six responses that are a result and nothing else
share one constructor.
-/

set_option autoImplicit false

namespace LdapWire

/-- The outcome of an operation, as every response that ends one reports it. -/
structure LdapResult where
  code : Int32 := 0
  matchedDn : String := ""
  diagnostic : String := ""
  /-- Where else to ask; empty when the field is absent. -/
  referrals : List String := []
deriving DecidableEq

/-- How a client proves who it is. -/
inductive Authentication where
  | simple (password : Bytes)
  | sasl (mechanism : String) (credentials : Option Bytes)
deriving DecidableEq

structure BindRequest where
  version : Int32 := 0
  name : String := ""
  authentication : Authentication := .simple []
deriving DecidableEq

structure BindResponse where
  result : LdapResult := {}
  serverCredentials : Option Bytes := none
deriving DecidableEq

/-- How far below its base a search reaches. -/
inductive SearchScope where
  | baseObject
  | singleLevel
  | wholeSubtree
deriving DecidableEq

namespace SearchScope

def code : SearchScope → Int
  | .baseObject => 0
  | .singleLevel => 1
  | .wholeSubtree => 2

def ofCode (code : Int) : Codec SearchScope :=
  match code with
  | 0 => .ok .baseObject
  | 1 => .ok .singleLevel
  | 2 => .ok .wholeSubtree
  | _ => .error (.violation (.invalid "search scope" code))

def title : SearchScope → String
  | .baseObject => "BaseObject"
  | .singleLevel => "SingleLevel"
  | .wholeSubtree => "WholeSubtree"

end SearchScope

/-- When a search follows alias entries. -/
inductive AliasPolicy where
  | never
  | inSearching
  | findingBase
  | always
deriving DecidableEq

namespace AliasPolicy

def code : AliasPolicy → Int
  | .never => 0
  | .inSearching => 1
  | .findingBase => 2
  | .always => 3

def ofCode (code : Int) : Codec AliasPolicy :=
  match code with
  | 0 => .ok .never
  | 1 => .ok .inSearching
  | 2 => .ok .findingBase
  | 3 => .ok .always
  | _ => .error (.violation (.invalid "derefAliases" code))

def title : AliasPolicy → String
  | .never => "NeverDerefAliases"
  | .inSearching => "DerefInSearching"
  | .findingBase => "DerefFindingBaseObj"
  | .always => "DerefAlways"

end AliasPolicy

structure SearchRequest where
  base : String := ""
  scope : SearchScope := .baseObject
  aliases : AliasPolicy := .never
  sizeLimit : Int32 := 0
  timeLimit : Int32 := 0
  typesOnly : Bool := false
  filter : Filter := .and []
  /-- The attributes that the results are to hold. -/
  selection : List String := []
deriving DecidableEq

/-- An attribute with its values. -/
structure Attribute where
  description : String := ""
  values : List Bytes := []
deriving DecidableEq

structure SearchResultEntry where
  name : String := ""
  attributes : List Attribute := []
deriving DecidableEq

/-- What a modification does with the values that it names. -/
inductive ChangeKind where
  | add
  | delete
  | replace
  | increment
deriving DecidableEq

namespace ChangeKind

def code : ChangeKind → Int
  | .add => 0
  | .delete => 1
  | .replace => 2
  | .increment => 3

def ofCode (code : Int) : Codec ChangeKind :=
  match code with
  | 0 => .ok .add
  | 1 => .ok .delete
  | 2 => .ok .replace
  | 3 => .ok .increment
  | _ => .error (.violation (.invalid "modify operation" code))

def title : ChangeKind → String
  | .add => "Add"
  | .delete => "Delete"
  | .replace => "Replace"
  | .increment => "Increment"

end ChangeKind

structure Change where
  kind : ChangeKind
  modification : Attribute
deriving DecidableEq

structure ModifyRequest where
  object : String := ""
  changes : List Change := []
deriving DecidableEq

structure AddRequest where
  entry : String := ""
  attributes : List Attribute := []
deriving DecidableEq

structure ModifyDnRequest where
  entry : String := ""
  newRdn : String := ""
  deleteOldRdn : Bool := false
  newSuperior : Option String := none
deriving DecidableEq

structure CompareRequest where
  entry : String := ""
  assertion : Assertion := {}
deriving DecidableEq

structure ExtendedRequest where
  name : String := ""
  value : Option Bytes := none
deriving DecidableEq

structure ExtendedResponse where
  result : LdapResult := {}
  name : Option String := none
  value : Option Bytes := none
deriving DecidableEq

structure IntermediateResponse where
  name : Option String := none
  value : Option Bytes := none
deriving DecidableEq

/-- A request or a response. -/
inductive Operation where
  | bindRequest (request : BindRequest)
  | bindResponse (response : BindResponse)
  | unbindRequest
  | searchRequest (request : SearchRequest)
  | searchResultEntry (entry : SearchResultEntry)
  | searchResultReference (uris : List String)
  | modifyRequest (request : ModifyRequest)
  | addRequest (request : AddRequest)
  | delRequest (entry : String)
  | modifyDnRequest (request : ModifyDnRequest)
  | compareRequest (request : CompareRequest)
  | abandonRequest (id : Int32)
  | extendedRequest (request : ExtendedRequest)
  | extendedResponse (response : ExtendedResponse)
  | intermediateResponse (response : IntermediateResponse)
  | plain (response : PlainResponse) (result : LdapResult)
deriving DecidableEq

namespace Operation

def kind : Operation → OperationKind
  | .bindRequest _ => .bindRequest
  | .bindResponse _ => .bindResponse
  | .unbindRequest => .unbindRequest
  | .searchRequest _ => .searchRequest
  | .searchResultEntry _ => .searchResultEntry
  | .searchResultReference _ => .searchResultReference
  | .modifyRequest _ => .modifyRequest
  | .addRequest _ => .addRequest
  | .delRequest _ => .delRequest
  | .modifyDnRequest _ => .modifyDnRequest
  | .compareRequest _ => .compareRequest
  | .abandonRequest _ => .abandonRequest
  | .extendedRequest _ => .extendedRequest
  | .extendedResponse _ => .extendedResponse
  | .intermediateResponse _ => .intermediateResponse
  | .plain response _ => .plain response

/-- An operation of the given kind of which no field has been set yet. -/
def blank : OperationKind → Operation
  | .bindRequest => .bindRequest {}
  | .bindResponse => .bindResponse {}
  | .unbindRequest => .unbindRequest
  | .searchRequest => .searchRequest {}
  | .searchResultEntry => .searchResultEntry {}
  | .searchResultReference => .searchResultReference []
  | .modifyRequest => .modifyRequest {}
  | .addRequest => .addRequest {}
  | .delRequest => .delRequest ""
  | .modifyDnRequest => .modifyDnRequest {}
  | .compareRequest => .compareRequest {}
  | .abandonRequest => .abandonRequest 0
  | .extendedRequest => .extendedRequest {}
  | .extendedResponse => .extendedResponse {}
  | .intermediateResponse => .intermediateResponse {}
  | .plain response => .plain response {}

def name (operation : Operation) : String := operation.kind.name

/-- Whether a client sends the operation. -/
def isRequest (operation : Operation) : Bool := operation.kind.isRequest

/-- The result that a response carries. -/
def result? : Operation → Option LdapResult
  | .bindResponse response => some response.result
  | .extendedResponse response => some response.result
  | .plain _ result => some result
  | _ => none

/-- Changes the result that a response carries, if it carries one. -/
def modifyResult? (change : LdapResult → LdapResult) : Operation → Option Operation
  | .bindResponse response =>
      some (.bindResponse { response with result := change response.result })
  | .extendedResponse response =>
      some (.extendedResponse { response with result := change response.result })
  | .plain response result => some (.plain response (change result))
  | _ => none

end Operation

end LdapWire
