import LdapWire.Message
import LdapWire.Text.Outline

/-!
# Messages in outline

Every field of a message under its name, octets as decimal numbers.
-/

set_option autoImplicit false

namespace LdapWire

open Text (Outline)
open Text.Outline (record wrapped list optional number truth text)

def Bytes.outline (content : Bytes) : Outline := list (fun octet => number octet.toNat) content

/-- The name of a comparison in an outline. -/
def Comparison.title : Comparison → String
  | .equality => "EqualityMatch"
  | .greaterOrEqual => "GreaterOrEqual"
  | .lessOrEqual => "LessOrEqual"
  | .approx => "ApproxMatch"

def Assertion.fields (assertion : Assertion) : List (String × Outline) :=
  [("attribute_desc", text assertion.description),
   ("assertion_value", Bytes.outline assertion.value)]

def Substrings.outline (pattern : Substrings) : Outline :=
  record "SubstringFilter"
    [("attr_type", text pattern.description),
     ("initial", optional Bytes.outline pattern.initial),
     ("any", list Bytes.outline pattern.any),
     ("final_", optional Bytes.outline pattern.final)]

def ExtensibleMatch.outline (condition : ExtensibleMatch) : Outline :=
  record "MatchingRuleAssertion"
    [("matching_rule", optional text condition.rule),
     ("attr_type", optional text condition.description),
     ("match_value", Bytes.outline condition.value),
     ("dn_attributes", truth condition.dnAttributes)]

namespace Filter

mutual

def outline : Filter → Outline
  | .and children => wrapped "And" [.group "[" "]" (outlines children)]
  | .or children => wrapped "Or" [.group "[" "]" (outlines children)]
  | .not child => wrapped "Not" [outline child]
  | .compare comparison assertion =>
      wrapped comparison.title [record "Ava" assertion.fields]
  | .substrings pattern => wrapped "Substrings" [pattern.outline]
  | .present description => wrapped "Present" [text description]
  | .extensible condition => wrapped "ExtensibleMatch" [condition.outline]

def outlines : List Filter → List Outline
  | [] => []
  | filter :: rest => outline filter :: outlines rest

end

end Filter

def LdapResult.outline (result : LdapResult) : Outline :=
  record "LdapResult"
    [("result_code", number result.code.toInt),
     ("matched_dn", text result.matchedDn),
     ("diagnostic_message", text result.diagnostic),
     ("referrals", list text result.referrals)]

def Authentication.outline : Authentication → Outline
  | .simple password => wrapped "Simple" [Bytes.outline password]
  | .sasl mechanism credentials =>
      record "Sasl"
        [("mechanism", text mechanism), ("credentials", optional Bytes.outline credentials)]

def Attribute.outline (listed : Attribute) : Outline :=
  record "Attribute"
    [("attr_type", text listed.description), ("attr_values", list Bytes.outline listed.values)]

def Change.outline (change : Change) : Outline :=
  record "ModifyChange"
    [("operation", .word change.kind.title), ("modification", change.modification.outline)]

/-- The fields of an operation that has named ones. -/
def Operation.fields : Operation → List (String × Outline)
  | .bindRequest request =>
      [("version", number request.version.toInt), ("name", text request.name),
       ("authentication", request.authentication.outline)]
  | .bindResponse response =>
      [("result", response.result.outline),
       ("server_sasl_creds", optional Bytes.outline response.serverCredentials)]
  | .searchRequest request =>
      [("base_object", text request.base),
       ("scope", .word request.scope.title),
       ("deref_aliases", .word request.aliases.title),
       ("size_limit", number request.sizeLimit.toInt),
       ("time_limit", number request.timeLimit.toInt),
       ("types_only", truth request.typesOnly),
       ("filter", request.filter.outline),
       ("attributes", list text request.selection)]
  | .searchResultEntry entry =>
      [("object_name", text entry.name), ("attributes", list Attribute.outline entry.attributes)]
  | .searchResultReference uris => [("uris", list text uris)]
  | .modifyRequest request =>
      [("object", text request.object), ("changes", list Change.outline request.changes)]
  | .addRequest request =>
      [("entry", text request.entry), ("attributes", list Attribute.outline request.attributes)]
  | .delRequest entry => [("entry", text entry)]
  | .modifyDnRequest request =>
      [("entry", text request.entry), ("new_rdn", text request.newRdn),
       ("delete_old_rdn", truth request.deleteOldRdn),
       ("new_superior", optional text request.newSuperior)]
  | .compareRequest request => ("entry", text request.entry) :: request.assertion.fields
  | .extendedRequest request =>
      [("request_name", text request.name),
       ("request_value", optional Bytes.outline request.value)]
  | .extendedResponse response =>
      [("result", response.result.outline),
       ("response_name", optional text response.name),
       ("response_value", optional Bytes.outline response.value)]
  | .intermediateResponse response =>
      [("response_name", optional text response.name),
       ("response_value", optional Bytes.outline response.value)]
  | .unbindRequest | .abandonRequest _ | .plain .. => []

def Operation.outline (operation : Operation) : Outline :=
  let title := operation.kind.title
  match operation with
  | .unbindRequest => .word title
  | .abandonRequest id => wrapped title [number id.toInt]
  | .plain _ result => wrapped title [result.outline]
  | _ => wrapped title [record title operation.fields]

def PagedResults.outline (paged : PagedResults) : Outline :=
  record "PagedResults"
    [("size", number paged.size.toInt), ("cookie", Bytes.outline paged.cookie)]

def SyncRequest.outline (request : SyncRequest) : Outline :=
  record "SyncRequest"
    [("mode", .word request.mode.title), ("cookie", optional Bytes.outline request.cookie),
     ("reload_hint", truth request.reloadHint)]

def Payload.outline : Payload → Outline
  | .paged value => value.outline
  | .sync value => value.outline
  | .custom oid claimedLength content =>
      record "Custom"
        [("oid", text oid), ("length", number claimedLength), ("bytes", Bytes.outline content)]

def ControlValue.outline : ControlValue → Outline
  | .absent => .word "Absent"
  | .raw content => wrapped "Opaque" [Bytes.outline content]
  | .decoded payload => wrapped "Decoded" [payload.outline]

def Control.outline (control : Control) : Outline :=
  record "Control"
    [("oid", text control.oid), ("criticality", truth control.critical),
     ("value", control.value.outline)]

def Message.outline (message : Message) : Outline :=
  record "LdapMessage"
    [("message_id", number message.id.toInt),
     ("protocol_op", message.operation.outline),
     ("controls", list Control.outline message.controls)]

end LdapWire
