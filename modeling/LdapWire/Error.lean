import LdapWire.Filter.Basic
import LdapWire.Grammar.State
import LdapWire.Operation.Kind
import LdapWire.Text.Hex

/-!
# Errors of the codec

Every failure is a value that names its cause. A `Corruption` is a fault of the
encoding itself, a `Violation` is a well-encoded message that breaks a rule of
the protocol or of the library. `CodecError.message` puts a failure into words;
nothing else in the library does.
-/

set_option autoImplicit false

namespace LdapWire

open Grammar (State)

/-- What is wrong with an encoding. -/
inductive Corruption where
  /-- An identifier that announces further identifier octets. -/
  | multiByteTag (tag : UInt8)
  | indefiniteLength
  | reservedLength
  /-- A length that takes more octets than a length may. -/
  | oversizedLength (octets : Nat)
  | emptyInteger
  | oversizedInteger (size bound : Nat)
  | booleanSize (size : Nat)
  /-- A text that is not valid UTF-8. -/
  | notUtf8 (what : String)
  /-- The value ends where another octet of a header is due. -/
  | truncatedHeader
  /-- The value ends before the declared content does. -/
  | truncatedContent (needed remaining : Nat)
  | wrongTag (expected actual : UInt8)
  | trailing (count : Nat)
  /-- An element that is longer than what is left of the element around it. -/
  | overflow (tag : UInt8) (total : Nat) (parent : UInt8) (left : Nat)
deriving DecidableEq

/-- Which rule a message breaks. -/
inductive Violation where
  | empty (what : String)
  | negative (what : String) (value : Int)
  | invalid (what : String) (value : Int)
  | unbindNotEmpty (size : Nat)
  | emptyConnective (connective : Connective)
  | unconstrainedMatch
  | emptySubstrings
  | emptyReference
  | valuelessAttribute (description : String)
  | foreignPayload (oid payload : String)
  | cancelWithoutValue
  | cancelResultCode (code : Int)
  -- steps taken on a message under construction that has no place for them
  | expectedOperation (kind : OperationKind)
  | operationPresent
  | resultMissing
  | controlMissing
  | attributeMissing
  | attributeMisplaced
  | entryNameMisplaced
  | changeOperationMissing
  | identifierMissing
  | operationMissing
  -- steps of assembling a filter in a wrong order
  | filterItemMissing
  | notAssertion
  | notSubstrings
  | notExtensible
  | secondChild
  | secondRoot
  | connectiveMissing
  | childlessConnective
  | childlessNot
  | unclosedConnective
  | filterMissing
  /-- A node that two others take for their child. -/
  | nodeTaken
  /-- The content of an element ends where the grammar expects more of it. -/
  | endedEarly (tag : UInt8) (state : State)
deriving DecidableEq

/-- The quantities that a decoder bounds. -/
inductive Limit where
  | pduSize
  | nestingDepth
deriving DecidableEq

/-- Why a step of decoding or encoding failed. -/
inductive CodecError where
  | truncatedInput (needed : Nat)
  | corruptEncoding (corruption : Corruption)
  | unexpectedTag (state : State) (tag : UInt8)
  | structuralViolation (violation : Violation)
  | unsupportedCriticalControl (oid : String)
  | limitExceeded (limit : Limit) (bound actual : Nat)
  | sessionPoisoned
  | bufferTooSmall (needed available : Nat)
  | lengthMismatch (planned written : Nat)
  | planExhausted
deriving DecidableEq

/-! ## Wording -/

namespace Corruption

def detail : Corruption → String
  | .multiByteTag tag => s!"multi-byte tag {Text.Hex.tag tag} is not used by LDAP"
  | .indefiniteLength => "indefinite length form is not allowed"
  | .reservedLength => "reserved length byte 0xFF"
  | .oversizedLength octets => s!"length of {octets} bytes is too large"
  | .emptyInteger => "integer with zero-length value"
  | .oversizedInteger size bound => s!"integer of {size} bytes exceeds the {bound} byte bound"
  | .booleanSize size => s!"boolean value must be 1 byte, got {size}"
  | .notUtf8 what => s!"{what} is not valid UTF-8"
  | .truncatedHeader => "BER value truncated"
  | .truncatedContent needed remaining =>
      s!"BER truncated: need {needed} bytes, {remaining} remaining"
  | .wrongTag expected actual =>
      s!"expected tag {Text.Hex.tag expected}, got {Text.Hex.tag actual}"
  | .trailing count => s!"{count} trailing bytes after BER value"
  | .overflow tag total parent left =>
      s!"TLV {Text.Hex.tag tag} of {total} bytes overflows its enclosing "
        ++ s!"{Text.Hex.tag parent} ({left} bytes left)"

end Corruption

/-- The connective as it is named in messages. -/
def Connective.title : Connective → String
  | .and => "And"
  | .or => "Or"
  | .not => "Not"

namespace Violation

def detail : Violation → String
  | .empty what => s!"empty {what}"
  | .negative what value => s!"negative {what}: {value}"
  | .invalid what value => s!"Invalid {what}: {value}"
  | .unbindNotEmpty size => s!"UnbindRequest must be empty, got {size} bytes"
  | .emptyConnective connective => s!"empty {connective.title} filter"
  | .unconstrainedMatch => "extensible match needs a matching rule or an attribute type"
  | .emptySubstrings => "substrings filter without substrings"
  | .emptyReference => "SearchResultReference without URIs"
  | .valuelessAttribute description => s!"attribute {description} of an AddRequest has no values"
  | .foreignPayload oid payload => s!"control {oid} carries a {payload} payload"
  | .cancelWithoutValue => "Cancel request without a value"
  | .cancelResultCode code => s!"Result code {code} is not allowed in a cancel response"
  | .expectedOperation kind => s!"expected {kind.title}"
  | .operationPresent => "message already has a protocol operation"
  | .resultMissing => "operation has no LDAPResult"
  | .controlMissing => "no control is open"
  | .attributeMissing => "no attribute is open"
  | .attributeMisplaced => "attribute outside an entry"
  | .entryNameMisplaced => "entry DN outside an entry"
  | .changeOperationMissing => "modification without an operation"
  | .identifierMissing => "message without a message id"
  | .operationMissing => "message without a protocol operation"
  | .filterItemMissing => "no filter item is open"
  | .notAssertion => "current filter item is not an assertion"
  | .notSubstrings => "current filter item is not a substrings filter"
  | .notExtensible => "current filter item is not an extensible match"
  | .secondChild => "NOT filter takes exactly one child"
  | .secondRoot => "filter already has a root"
  | .connectiveMissing => "no open composite filter"
  | .childlessConnective => "empty composite filter"
  | .childlessNot => "empty NOT filter"
  | .unclosedConnective => "filter has unclosed composites"
  | .filterMissing => "missing filter"
  | .nodeTaken => "filter node built twice"
  | .endedEarly tag state => s!"TLV {Text.Hex.tag tag} ended in state {state.name}"

end Violation

/-- The bounded quantity as it is named in messages. -/
def Limit.title : Limit → String
  | .pduSize => "PDU size"
  | .nestingDepth => "Nesting depth"

namespace CodecError

/-- The failure in words. -/
def message : CodecError → String
  | .truncatedInput needed => s!"Truncated input: {needed} more bytes needed"
  | .corruptEncoding corruption => s!"Corrupt encoding: {corruption.detail}"
  | .unexpectedTag state tag => s!"Unexpected tag {Text.Hex.tag tag} in state {state.name}"
  | .structuralViolation violation => s!"Structural violation: {violation.detail}"
  | .unsupportedCriticalControl oid => s!"Unsupported critical control: {oid}"
  | .limitExceeded limit bound actual => s!"{limit.title} limit exceeded: {actual} > {bound}"
  | .sessionPoisoned => "Decode session is unusable after a previous error"
  | .bufferTooSmall needed available =>
      s!"Buffer too small: need {needed} bytes, {available} available"
  | .lengthMismatch planned written =>
      s!"Encoded length mismatch: planned {planned} bytes, wrote {written}"
  | .planExhausted =>
      "Encode plan exhausted: encode does not match the preceding length computation"

/-- A fault of the encoding as an error of the codec. -/
abbrev corrupt (corruption : Corruption) : CodecError := .corruptEncoding corruption

/-- A broken rule as an error of the codec. -/
abbrev violation (violation : Violation) : CodecError := .structuralViolation violation

end CodecError

/-- A computation that fails with an error of the codec. -/
abbrev Codec (α : Type) := Except CodecError α

/-- A computation on a state of type `σ` that may fail. A failed step keeps the
state that it had reached, because that state can still be observed. -/
abbrev Step (σ α : Type) := EStateM CodecError σ α

/-- Runs a computation without state as a step that leaves the state alone. -/
def Step.lift {σ α : Type} (result : Codec α) : Step σ α :=
  match result with
  | .ok value => pure value
  | .error error => throw error

/-- A sequence of two steps that succeeds consists of two steps that do. -/
theorem Step.exists_of_bind_eq_ok {σ α β : Type} {first : Step σ α} {next : α → Step σ β}
    {before after : σ} {result : β} (ran : (first >>= next) before = .ok result after) :
    ∃ value middle, first before = .ok value middle ∧ next value middle = .ok result after := by
  cases stepped : first before with
  | ok value middle => exact ⟨value, middle, rfl, by simpa [bind, EStateM.bind, stepped] using ran⟩
  | error error middle => simp [bind, EStateM.bind, stepped] at ran

end LdapWire
