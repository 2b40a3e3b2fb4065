import LdapWire.Ber.Primitive
import LdapWire.Message

/-!
# The layout of a message

`Message.layout` arranges a message as a tree of elements, and `Layout` is that
tree: primitive elements with their content, constructed elements with their
parts, and the payloads of controls. A `refusal` stands where the message breaks
a rule that a decoder would hold it to.

Fields that have their default value are left out, as the protocol demands of
the shortest form.
-/

set_option autoImplicit false

namespace LdapWire

open Ber

/-- A message, or a part of it, as a tree of elements. -/
inductive Layout where
  | primitive (tag : UInt8) (content : Bytes)
  | constructed (tag : UInt8) (parts : List Layout)
  /-- A control value inside its octet string. -/
  | payload (value : Payload)
  /-- A place where encoding stops, because a rule is broken. -/
  | refusal (violation : Violation)

namespace Layout

def text (tag : UInt8) (value : String) : Layout := primitive tag (Utf8.bytes value)

/-- A text that must not be empty. -/
def nonEmptyText (tag : UInt8) (value : String) (what : String) : Layout :=
  if value.isEmpty then refusal (.empty what) else text tag value

def integer (tag : UInt8) (value : Int) : Layout := primitive tag (Integer.bytes value)

def boolean (tag : UInt8) (value : Bool) : Layout := primitive tag (Boolean.bytes value)

/-- A field that is left out when it is absent. -/
def optional {α : Type} (field : α → Layout) (value : Option α) : List Layout :=
  (value.map field).toList

/-- Parts that are refused as a whole when a rule is broken. -/
def checked (broken : Option Violation) (parts : List Layout) : List Layout :=
  match broken with
  | some violation => [refusal violation]
  | none => parts

/-- The description of an attribute, which is never empty. -/
def attributeName (tag : UInt8) (value : String) : Layout :=
  nonEmptyText tag value "attribute description"

end Layout

open Layout (primitive constructed refusal optional nonEmptyText attributeName)

/-! ## Filters -/

/-- The context tag of a comparison. -/
def Comparison.tag : Comparison → UInt8
  | .equality => 0xA3
  | .greaterOrEqual => 0xA5
  | .lessOrEqual => 0xA6
  | .approx => 0xA8

def Assertion.layouts (assertion : Assertion) : List Layout :=
  [attributeName Tag.octetString assertion.description,
   primitive Tag.octetString assertion.value]

def Substrings.layout (pattern : Substrings) : Layout :=
  let missing := pattern.initial.isNone && pattern.any.isEmpty && pattern.final.isNone
  constructed 0xA4 <| Layout.checked (if missing then some .emptySubstrings else none)
    [attributeName Tag.octetString pattern.description,
     constructed Tag.sequence
      (optional (primitive 0x80) pattern.initial ++ pattern.any.map (primitive 0x81)
        ++ optional (primitive 0x82) pattern.final)]

def ExtensibleMatch.layout (condition : ExtensibleMatch) : Layout :=
  let missing := condition.rule.isNone && condition.description.isNone
  constructed 0xA9 <| Layout.checked (if missing then some .unconstrainedMatch else none)
    (optional (nonEmptyText 0x81 · "matching rule") condition.rule
      ++ optional (attributeName 0x82) condition.description
      ++ [primitive 0x83 condition.value]
      ++ if condition.dnAttributes then [Layout.boolean 0x84 true] else [])

namespace Filter

mutual

def layout : Filter → Layout
  | .and [] => refusal (.emptyConnective .and)
  | .and (first :: rest) => constructed 0xA0 (layout first :: layouts rest)
  | .or [] => refusal (.emptyConnective .or)
  | .or (first :: rest) => constructed 0xA1 (layout first :: layouts rest)
  | .not child => constructed 0xA2 [layout child]
  | .compare comparison assertion => constructed comparison.tag assertion.layouts
  | .substrings pattern => pattern.layout
  | .present name => attributeName 0x87 name
  | .extensible condition => condition.layout

def layouts : List Filter → List Layout
  | [] => []
  | filter :: rest => layout filter :: layouts rest

end

end Filter

/-! ## Operations -/

def LdapResult.layouts (result : LdapResult) : List Layout :=
  let referrals := result.referrals.map (nonEmptyText Tag.octetString · "referral URI")
  [Layout.integer Tag.enumerated result.code.toInt,
   Layout.text Tag.octetString result.matchedDn,
   Layout.text Tag.octetString result.diagnostic]
  ++ if result.referrals.isEmpty then [] else [constructed 0xA3 referrals]

def Attribute.layout (listed : Attribute) : Layout :=
  constructed Tag.sequence
    [attributeName Tag.octetString listed.description,
     constructed Tag.set (listed.values.map (primitive Tag.octetString))]

def Attribute.layoutAll (attributes : List Attribute) : Layout :=
  constructed Tag.sequence (attributes.map Attribute.layout)

def Authentication.layout : Authentication → Layout
  | .simple password => primitive 0x80 password
  | .sasl mechanism credentials =>
      constructed 0xA3
        (Layout.text Tag.octetString mechanism
          :: optional (primitive Tag.octetString) credentials)

def BindRequest.layouts (request : BindRequest) : List Layout :=
  let outside := request.version < 1 || 127 < request.version
  Layout.checked (if outside then some (.invalid "bind version" request.version.toInt) else none)
    [Layout.integer Tag.integer request.version.toInt,
     Layout.text Tag.octetString request.name,
     request.authentication.layout]

/-- The first of a search's limits that is negative. -/
def SearchRequest.negativeLimit? (request : SearchRequest) : Option Violation :=
  if request.sizeLimit < 0 then some (.negative "size limit" request.sizeLimit.toInt)
  else if request.timeLimit < 0 then some (.negative "time limit" request.timeLimit.toInt)
  else none

def SearchRequest.layouts (request : SearchRequest) : List Layout :=
  Layout.checked request.negativeLimit?
    [Layout.text Tag.octetString request.base,
     Layout.integer Tag.enumerated request.scope.code,
     Layout.integer Tag.enumerated request.aliases.code,
     Layout.integer Tag.integer request.sizeLimit.toInt,
     Layout.integer Tag.integer request.timeLimit.toInt,
     Layout.boolean Tag.boolean request.typesOnly,
     request.filter.layout,
     constructed Tag.sequence (request.selection.map (Layout.text Tag.octetString))]

def Change.layout (change : Change) : Layout :=
  constructed Tag.sequence
    [Layout.integer Tag.enumerated change.kind.code, change.modification.layout]

/-- The first attribute of an addition that has no values. -/
def AddRequest.valueless? (request : AddRequest) : Option Violation :=
  (request.attributes.find? (fun candidate => candidate.values.isEmpty)).map
    fun candidate => .valuelessAttribute candidate.description

def ModifyDnRequest.layouts (request : ModifyDnRequest) : List Layout :=
  [Layout.text Tag.octetString request.entry,
   nonEmptyText Tag.octetString request.newRdn "new RDN",
   Layout.boolean Tag.boolean request.deleteOldRdn]
  ++ optional (Layout.text 0x80) request.newSuperior

def ExtendedResponse.layouts (response : ExtendedResponse) : List Layout :=
  response.result.layouts
    ++ optional (nonEmptyText 0x8A · "extended response name") response.name
    ++ optional (primitive 0x8B) response.value

/-- The parts inside an operation that is a constructed element. -/
def Operation.parts : Operation → List Layout
  | .bindRequest request => request.layouts
  | .bindResponse response =>
      response.result.layouts ++ optional (primitive 0x87) response.serverCredentials
  | .searchRequest request => request.layouts
  | .searchResultEntry entry =>
      [Layout.text Tag.octetString entry.name, Attribute.layoutAll entry.attributes]
  | .searchResultReference uris =>
      Layout.checked (if uris.isEmpty then some .emptyReference else none)
        (uris.map (nonEmptyText Tag.octetString · "reference URI"))
  | .modifyRequest request =>
      [Layout.text Tag.octetString request.object,
       constructed Tag.sequence (request.changes.map Change.layout)]
  | .addRequest request =>
      Layout.checked request.valueless?
        [Layout.text Tag.octetString request.entry, Attribute.layoutAll request.attributes]
  | .modifyDnRequest request => request.layouts
  | .compareRequest request =>
      [Layout.text Tag.octetString request.entry,
       constructed Tag.sequence request.assertion.layouts]
  | .extendedRequest request =>
      nonEmptyText 0x80 request.name "extended request name"
        :: optional (primitive 0x81) request.value
  | .extendedResponse response => response.layouts
  | .intermediateResponse response =>
      optional (nonEmptyText 0x80 · "intermediate response name") response.name
        ++ optional (primitive 0x81) response.value
  | .plain _ result => result.layouts
  | .unbindRequest | .delRequest _ | .abandonRequest _ => []

def Operation.layout (operation : Operation) : Layout :=
  match operation with
  | .unbindRequest => primitive operation.kind.tag []
  | .delRequest entry => Layout.text operation.kind.tag entry
  | .abandonRequest id => Layout.integer operation.kind.tag id.toInt
  | _ => constructed operation.kind.tag operation.parts

/-! ## Controls and messages -/

/-- The value of a control, inside an octet string. -/
def ControlValue.layouts : ControlValue → List Layout
  | .absent => []
  | .raw content => [primitive Tag.octetString content]
  | .decoded value => [.payload value]

/-- Why a control cannot be sent: its payload belongs to a control of another OID. -/
def Control.mismatch? (control : Control) : Option Violation :=
  match control.value with
  | .decoded value =>
      if value.oid = control.oid then none else some (.foreignPayload control.oid value.oid)
  | _ => none

def Control.layout (control : Control) : Layout :=
  match control.mismatch? with
  | some violation => refusal violation
  | none =>
      constructed Tag.sequence
        (nonEmptyText Tag.octetString control.oid "control type"
          :: (if control.critical then [Layout.boolean Tag.boolean true] else [])
          ++ control.value.layouts)

/-- The element that holds the controls of a message, if it has any. -/
def Control.layoutAll (controls : List Control) : List Layout :=
  if controls.isEmpty then [] else [constructed 0xA0 (controls.map Control.layout)]

def Message.layout (message : Message) : Layout :=
  constructed Tag.sequence
    (Layout.integer Tag.integer message.id.toInt :: message.operation.layout
      :: Control.layoutAll message.controls)

end LdapWire
