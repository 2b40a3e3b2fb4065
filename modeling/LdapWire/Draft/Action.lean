import LdapWire.Ber.Primitive
import LdapWire.Ber.Tlv
import LdapWire.Draft.Basic
import LdapWire.Grammar.Action

/-!
# Actions on a draft

`Draft.act` carries out an action of the grammar: it reads the content of one
element and sets one part of the draft. The content is read before the part is
looked for, so a fault of the content is reported first.
-/

set_option autoImplicit false

namespace LdapWire

open Ber (Tlv)
open Grammar (Action)

namespace Draft

/-- A text that must not be empty. -/
def nonEmptyText (content : Bytes) (what : String) : Codec String := do
  let text ← Ber.Utf8.decode content what
  if text.isEmpty then throw (.violation (.empty what))
  return text

/-- An integer that must not be negative. -/
def nonNegative (content : Bytes) (what : String) : Codec Int32 := do
  let value ← Ber.Integer.decodeBounded content
  if value < 0 then throw (.violation (.negative what value.toInt))
  return value

/-- The version of a bind request, from 1 to 127. -/
def bindVersion (content : Bytes) : Codec Int32 := do
  let version ← Ber.Integer.decodeBounded content
  if version < 1 ∨ 127 < version then throw (.violation (.invalid "bind version" version.toInt))
  return version

/-- The code of a result, which is not negative. -/
def resultCode (content : Bytes) : Codec Int32 := do
  let code ← Ber.Integer.decodeEnumerated content
  if code < 0 then throw (.violation (.invalid "result code" code.toInt))
  return code.toInt32

/-- An enumerated value of one of the types that have codes. -/
def enumerated {α : Type} (ofCode : Int → Codec α) (content : Bytes) : Codec α := do
  ofCode (← Ber.Integer.decodeEnumerated content).toInt

/-! ## Changes of one operation -/

def updateBind (change : BindRequest → BindRequest) : Step Draft Unit :=
  update .bindRequest fun
    | .bindRequest request => some (.bindRequest (change request))
    | _ => none

def updateSearch (change : SearchRequest → SearchRequest) : Step Draft Unit :=
  update .searchRequest fun
    | .searchRequest request => some (.searchRequest (change request))
    | _ => none

def updateModifyDn (change : ModifyDnRequest → ModifyDnRequest) : Step Draft Unit :=
  update .modifyDnRequest fun
    | .modifyDnRequest request => some (.modifyDnRequest (change request))
    | _ => none

def updateExtendedRequest (change : ExtendedRequest → ExtendedRequest) : Step Draft Unit :=
  update .extendedRequest fun
    | .extendedRequest request => some (.extendedRequest (change request))
    | _ => none

def updateExtendedResponse (change : ExtendedResponse → ExtendedResponse) : Step Draft Unit :=
  update .extendedResponse fun
    | .extendedResponse response => some (.extendedResponse (change response))
    | _ => none

def updateIntermediate (change : IntermediateResponse → IntermediateResponse) : Step Draft Unit :=
  update .intermediateResponse fun
    | .intermediateResponse response => some (.intermediateResponse (change response))
    | _ => none

/-- Changes the mechanism and the credentials of a bind request that proves the
client's identity by them; another bind request stays as it is. -/
def updateSasl (change : String → Option Bytes → Authentication) : Step Draft Unit :=
  updateBind fun request =>
    match request.authentication with
    | .sasl mechanism credentials =>
        { request with authentication := change mechanism credentials }
    | .simple _ => request

/-! ## Changes of one filter item -/

/-- Changes the assertion of a compare request or else that of the current filter
item. -/
def updateAssertion (change : Assertion → Assertion) : Step Draft Unit := fun draft =>
  match draft.operation with
  | some (.compareRequest request) =>
      .ok () { draft with
        operation := some (.compareRequest { request with assertion := change request.assertion }) }
  | _ =>
      updateLeaf .notAssertion (fun
        | .compare comparison assertion => some (.compare comparison (change assertion))
        | _ => none) draft

def updateSubstrings (change : Substrings → Substrings) : Step Draft Unit :=
  updateLeaf .notSubstrings fun
    | .substrings pattern => some (.substrings (change pattern))
    | _ => none

def updateExtensible (change : ExtensibleMatch → ExtensibleMatch) : Step Draft Unit :=
  updateLeaf .notExtensible fun
    | .extensible condition => some (.extensible (change condition))
    | _ => none

/-- Refuses an extensible match that names neither a rule nor an attribute. -/
def checkExtensible : Step Draft Unit := onFilter do
  match ← FilterBuilder.currentLeaf with
  | .extensible condition =>
      if condition.rule.isNone && condition.description.isNone then
        throw (.violation .unconstrainedMatch)
  | _ => throw (.violation .notExtensible)

/-- Sets the name of the entry that the operation is about. -/
def setEntryName (name : String) : Step Draft Unit := fun draft =>
  match draft.operation with
  | some (.searchResultEntry entry) =>
      .ok () { draft with operation := some (.searchResultEntry { entry with name }) }
  | some (.addRequest request) =>
      .ok () { draft with operation := some (.addRequest { request with entry := name }) }
  | _ => .error (.violation .entryNameMisplaced) draft

/-! ## All actions -/

/-- Carries out an action for an element. -/
def act (registry : Registry) (action : Action) (tlv : Tlv) : Step Draft Unit :=
  let content := tlv.value
  let text (what : String) : Step Draft String := Step.lift (Ber.Utf8.decode content what)
  let nonEmpty (what : String) : Step Draft String := Step.lift (nonEmptyText content what)
  let truth : Step Draft Bool := Step.lift (Ber.Boolean.decode content)
  match action with
  | .setMessageId => do
      let id ← Step.lift (Ber.Integer.decodeBounded content)
      modify fun draft => { draft with id := some id }
  -- controls
  | .startControl => modify fun draft => { draft with openControl := some {} }
  | .setControlType => do
      let oid ← nonEmpty "control type"
      updateControl fun control => { control with oid }
  | .setControlCriticality => do
      let critical ← truth
      updateControl fun control => { control with critical }
  | .setControlValue => updateControl fun control => { control with value := some content }
  | .finishControl => finishControl registry
  -- operations
  | .openOperation kind => start (.blank kind)
  | .setUnbindRequest =>
      if tlv.length ≠ 0 then throw (.violation (.unbindNotEmpty tlv.length))
      else start .unbindRequest
  | .setDelRequest => do start (.delRequest (← text "entry DN"))
  | .setAbandonRequest => do
      start (.abandonRequest (← Step.lift (Ber.Integer.decodeBounded content)))
  -- bind request
  | .setBindVersion => do
      let version ← Step.lift (bindVersion content)
      updateBind fun request => { request with version }
  | .setBindName => do
      let name ← text "bind name"
      updateBind fun request => { request with name }
  | .setSimpleAuth => updateBind fun request => { request with authentication := .simple content }
  | .openSaslAuth => updateBind fun request => { request with authentication := .sasl "" none }
  | .setSaslMechanism => do
      let mechanism ← text "SASL mechanism"
      updateSasl fun _ credentials => .sasl mechanism credentials
  | .setSaslCredentials => updateSasl fun mechanism _ => .sasl mechanism (some content)
  -- results
  | .setResultCode => do
      let code ← Step.lift (resultCode content)
      updateResult fun result => { result with code }
  | .setMatchedDn => do
      let matchedDn ← text "matched DN"
      updateResult fun result => { result with matchedDn }
  | .setDiagnosticMessage => do
      let diagnostic ← text "diagnostic message"
      updateResult fun result => { result with diagnostic }
  | .addReferral => do
      let uri ← nonEmpty "referral URI"
      updateResult fun result => { result with referrals := result.referrals ++ [uri] }
  | .setServerSaslCreds =>
      update .bindResponse fun
        | .bindResponse response =>
            some (.bindResponse { response with serverCredentials := some content })
        | _ => none
  | .setExtendedResponseName => do
      let name ← nonEmpty "extended response name"
      updateExtendedResponse fun response => { response with name := some name }
  | .setExtendedResponseValue =>
      updateExtendedResponse fun response => { response with value := some content }
  -- search request
  | .setSearchBase => do
      let base ← text "search base"
      updateSearch fun request => { request with base }
  | .setSearchScope => do
      let scope ← Step.lift (enumerated SearchScope.ofCode content)
      updateSearch fun request => { request with scope }
  | .setSearchDeref => do
      let aliases ← Step.lift (enumerated AliasPolicy.ofCode content)
      updateSearch fun request => { request with aliases }
  | .setSearchSizeLimit => do
      let sizeLimit ← Step.lift (nonNegative content "size limit")
      updateSearch fun request => { request with sizeLimit }
  | .setSearchTimeLimit => do
      let timeLimit ← Step.lift (nonNegative content "time limit")
      updateSearch fun request => { request with timeLimit }
  | .setSearchTypesOnly => do
      let typesOnly ← truth
      updateSearch fun request => { request with typesOnly }
  | .storeSearchFilter => do
      let filter ← onFilter FilterBuilder.finish
      updateSearch fun request => { request with filter }
  | .addSelectedAttribute => do
      let selector ← text "attribute selector"
      updateSearch fun request => { request with selection := request.selection ++ [selector] }
  -- filters
  | .openConnective connective =>
      if tlv.length = 0 then throw (.violation (.emptyConnective connective))
      else onFilter (FilterBuilder.openConnective connective)
  | .closeConnective => onFilter FilterBuilder.closeConnective
  | .openComparison comparison => onFilter (FilterBuilder.addLeaf (.compare comparison {}))
  | .openSubstrings => onFilter (FilterBuilder.addLeaf (.substrings {}))
  | .openExtensible => onFilter (FilterBuilder.addLeaf (.extensible {}))
  | .closeExtensible => checkExtensible
  | .addPresent => do
      let description ← nonEmpty "attribute description"
      onFilter (FilterBuilder.addLeaf (.present description))
  | .setAvaDesc => do
      let description ← nonEmpty "attribute description"
      updateAssertion fun assertion => { assertion with description }
  | .setAvaValue => updateAssertion fun assertion => { assertion with value := content }
  | .setSubstringsType => do
      let description ← nonEmpty "attribute description"
      updateSubstrings fun pattern => { pattern with description }
  | .setSubstringInitial =>
      updateSubstrings fun pattern => { pattern with initial := some content }
  | .addSubstringAny =>
      updateSubstrings fun pattern => { pattern with any := pattern.any ++ [content] }
  | .setSubstringFinal => updateSubstrings fun pattern => { pattern with final := some content }
  | .setMatchingRule => do
      let rule ← nonEmpty "matching rule"
      updateExtensible fun condition => { condition with rule := some rule }
  | .setExtensibleType => do
      let description ← nonEmpty "attribute description"
      updateExtensible fun condition => { condition with description := some description }
  | .setMatchValue => updateExtensible fun condition => { condition with value := content }
  | .setDnAttributes => do
      let dnAttributes ← truth
      updateExtensible fun condition => { condition with dnAttributes }
  -- entries, additions and modifications
  | .setEntryName => do setEntryName (← text "entry DN")
  | .startAttribute => modify fun draft => { draft with openAttribute := some {} }
  | .setAttributeType => do
      let description ← nonEmpty "attribute description"
      updateAttribute fun current => { current with description }
  | .addAttributeValue =>
      updateAttribute fun current => { current with values := current.values ++ [content] }
  | .finishAttribute => finishAttribute
  | .setModifyObject => do
      let object ← text "modify object"
      update .modifyRequest fun
        | .modifyRequest request => some (.modifyRequest { request with object })
        | _ => none
  | .setChangeOperation => do
      let kind ← Step.lift (enumerated ChangeKind.ofCode content)
      modify fun draft => { draft with changeKind := some kind }
  -- the remaining operations
  | .setModDnEntry => do
      let entry ← text "entry DN"
      updateModifyDn fun request => { request with entry }
  | .setModDnNewRdn => do
      let newRdn ← nonEmpty "new RDN"
      updateModifyDn fun request => { request with newRdn }
  | .setModDnDeleteOld => do
      let deleteOldRdn ← truth
      updateModifyDn fun request => { request with deleteOldRdn }
  | .setModDnNewSuperior => do
      let superior ← text "new superior"
      updateModifyDn fun request => { request with newSuperior := some superior }
  | .setCompareEntry => do
      let entry ← text "entry DN"
      update .compareRequest fun
        | .compareRequest request => some (.compareRequest { request with entry })
        | _ => none
  | .addReferenceUri => do
      let uri ← nonEmpty "reference URI"
      update .searchResultReference fun
        | .searchResultReference uris => some (.searchResultReference (uris ++ [uri]))
        | _ => none
  | .setExtendedRequestName => do
      let name ← nonEmpty "extended request name"
      updateExtendedRequest fun request => { request with name }
  | .setExtendedRequestValue =>
      updateExtendedRequest fun request => { request with value := some content }
  | .setIntermediateName => do
      let name ← nonEmpty "intermediate response name"
      updateIntermediate fun response => { response with name := some name }
  | .setIntermediateValue =>
      updateIntermediate fun response => { response with value := some content }

end Draft

end LdapWire
