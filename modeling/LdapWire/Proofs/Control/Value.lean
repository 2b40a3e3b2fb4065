import LdapWire.Operation.Cancel
import LdapWire.Proofs.Control.Payload

/-!
# Values there and back

Paged results, synchronisation requests and cancel requests travel as values inside an octet
string. For each there is a function that measures the value, one that writes it and one that
reads it. `ValueFormat` puts these next to each other, together with the octets that spell a
value and the reason for which a value that can be written is refused when it is read.

`ValueFormat.Exact` says that they belong together. What is written has the measured length, on
every writer, and is read back as the same value or refused for the given reason. What is read
is what is spelled, no more and no less. And what is written for a value that was read is no
longer than what it was read from, and reads the same. All three formats are exact
(`formats_exact`), and a cancel request that goes through an extended request is read as from
its value.
-/

set_option autoImplicit false

namespace LdapWire

open Ber

/-! ## Formats -/

/-- Values of a kind, with all that is done to them and the octets that spell them. -/
structure ValueFormat (α : Type) where
  encode : α → Step Writer Unit
  contentLength : α → Nat
  encodedLength : α → Nat
  parse : Bytes → Codec α
  Spelled : Bytes → α → Prop
  /-- Why a value that is written is not read back, if it is not. -/
  refusal? : α → Option Violation

/-- What reading the octets of a value comes to, if it is refused for a reason. -/
def ValueFormat.verdict {α : Type} (format : ValueFormat α) (value : α) : Codec α :=
  match format.refusal? value with
  | none => .ok value
  | some violation => .error (.violation violation)

/-- Whether writing, measuring and reading agree with each other and with the octets that spell
a value. -/
structure ValueFormat.Exact {α : Type} (format : ValueFormat α) : Prop where
  writes : ∀ value, ∃ octets, octets.length = format.encodedLength value
    ∧ Writer.Produces (format.encode value) octets
    ∧ (format.contentLength value < 256 ^ Length.maxOctets →
      format.parse octets = format.verdict value)
  accepts : ∀ octets value, format.parse octets = .ok value ↔ format.Spelled octets value
  shortens : ∀ octets value, format.parse octets = .ok value →
    ∃ shorter, shorter.length ≤ octets.length
      ∧ Writer.Produces (format.encode value) shorter ∧ format.parse shorter = .ok value

/-- A format is exact if octets are known that are written for a value, and no spelling is
shorter. -/
theorem ValueFormat.Exact.of_bytes {α : Type} {format : ValueFormat α} (bytes : α → Bytes)
    (length : ∀ value, (bytes value).length = format.encodedLength value)
    (produces : ∀ value, Writer.Produces (format.encode value) (bytes value))
    (parse_bytes : ∀ value, format.contentLength value < 256 ^ Length.maxOctets →
      format.parse (bytes value) = format.verdict value)
    (accepts : ∀ octets value, format.parse octets = .ok value ↔ format.Spelled octets value)
    (narrow : ∀ octets value, format.Spelled octets value →
      format.refusal? value = none ∧ format.contentLength value < 256 ^ Length.maxOctets
        ∧ format.encodedLength value ≤ octets.length) :
    format.Exact where
  writes value := ⟨bytes value, length value, produces value, parse_bytes value⟩
  accepts := accepts
  shortens octets value read := by
    obtain ⟨accepted, fits, shorter⟩ := narrow octets value ((accepts octets value).1 read)
    refine ⟨bytes value, (length value).trans_le shorter, produces value, ?_⟩
    rw [parse_bytes value fits, verdict, accepted]

/-! ## Controls -/

/-- Pages of negative size are written and not read back. -/
def PagedResults.format : ValueFormat PagedResults where
  encode := encode
  contentLength := contentLength
  encodedLength := encodedLength
  parse := parse
  Spelled := Spelled
  refusal? paged :=
    if paged.size < 0 then some (.negative "page size" paged.size.toInt) else none

def SyncRequest.format : ValueFormat SyncRequest where
  encode := encode
  contentLength := contentLength
  encodedLength := encodedLength
  parse := parse
  Spelled := Spelled
  refusal? _ := none

theorem PagedResults.exact : format.Exact := by
  refine .of_bytes bytes length_bytes produces (fun paged fits => ?_)
    (fun _ _ => parse_eq_ok_iff) fun octets paged spelled => ?_
  · refine (parse_bytes fits).trans ?_
    unfold ValueFormat.verdict format
    dsimp only
    split <;> rfl
  · exact ⟨if_neg (Int32.not_lt.2 spelled.nonNegative), spelled.length_le⟩

theorem SyncRequest.exact : format.Exact :=
  .of_bytes bytes length_bytes produces (fun _ fits => parse_bytes fits)
    (fun _ _ => parse_eq_ok_iff) fun _ _ spelled => ⟨rfl, spelled.length_le⟩

/-! ## Cancel requests -/

namespace CancelRequest

/-- The octets of a cancel request. -/
def bytes (request : CancelRequest) : Bytes :=
  elementBytes Tag.sequence (elementBytes Tag.integer (Integer.bytes request.id.toInt))

/-- Whether octets spell a cancel request: a sequence of an identifier that is not negative. -/
def Spelled (octets : Bytes) (request : CancelRequest) : Prop :=
  ∃ id, IsElement octets Tag.sequence id ∧ IsNumber id Tag.integer request.id.toInt
    ∧ 0 ≤ request.id

/-- Negative identifiers are written and not read back. The length is that of the buffer which
a request is written into. -/
def format : ValueFormat CancelRequest where
  encode := encode
  contentLength := contentLength
  encodedLength request := 2 + request.contentLength
  parse := parse
  Spelled := Spelled
  refusal? request :=
    if request.id < 0 then some (.invalid "cancelID" request.id.toInt) else none

theorem length_contentBytes (request : CancelRequest) :
    (elementBytes Tag.integer (Integer.bytes request.id.toInt)).length
      = request.contentLength := by
  have narrow := Integer.length_bytes_toInt_le request.id
  have width : Length.width (Integer.bytes request.id.toInt).length = 1 :=
    Length.width_of_lt (Nat.lt_of_le_of_lt narrow (by decide))
  rw [length_elementBytes, width, Integer.length_bytes, contentLength]

/-- A cancel request is so short that one octet spells its length. -/
theorem contentLength_lt (request : CancelRequest) : request.contentLength < 0x80 := by
  have narrow := Integer.byteWidth_toInt_le request.id
  have four : Integer.maxSize = 4 := rfl
  rw [contentLength]
  omega

theorem length_bytes (request : CancelRequest) :
    request.bytes.length = 2 + request.contentLength := by
  rw [bytes, length_elementBytes, length_contentBytes,
    Length.width_of_lt request.contentLength_lt]

theorem produces (request : CancelRequest) : Writer.Produces request.encode request.bytes := by
  rw [bytes, elementBytes, length_contentBytes]
  exact (Writer.produces_octets [Tag.sequence]).bind
    ((Writer.produces_length _).bind (Writer.produces_element _ _))

theorem parse_eq_ok_iff {octets : Bytes} {request : CancelRequest} :
    parse octets = .ok request ↔ Spelled octets request := by
  rw [parse, Reader.soleSequence_eq_ok_iff]
  constructor
  · rintro ⟨inner, rest, element, read⟩
    obtain ⟨id, afterId, idRead, further⟩ := Step.exists_of_bind_eq_ok read
    obtain ⟨_, _, ended, returned⟩ := Step.exists_of_bind_eq_ok further
    obtain ⟨rfl, rfl⟩ := Reader.finish_eq_ok_iff.1 ended
    split at returned
    · cases returned
    · rename_i nonNegative
      cases returned
      obtain ⟨front, number, rfl⟩ := Reader.integer_eq_ok_iff.1 idRead
      rw [List.append_nil] at element
      exact ⟨front, element, number, Int32.not_lt.1 nonNegative⟩
  · rintro ⟨id, element, number, nonNegative⟩
    have idRead : Reader.integer id = .ok request.id [] :=
      Reader.integer_eq_ok_iff.2 ⟨id, number, (List.append_nil id).symm⟩
    have ended : Reader.finish [] = .ok () [] := rfl
    refine ⟨_, [], element, ?_⟩
    rw [fields, Step.bind_of_ok _ idRead, Step.bind_of_ok _ ended]
    simp only [if_neg (Int32.not_lt.2 nonNegative)]
    rfl

theorem parse_bytes (request : CancelRequest) :
    parse request.bytes = format.verdict request := by
  have short : (elementBytes Tag.integer (Integer.bytes request.id.toInt)).length
      < 256 ^ Length.maxOctets := by
    rw [length_contentBytes]
    exact Nat.lt_trans request.contentLength_lt (by decide)
  have number := isNumber_elementBytes (Integer.byteWidth_toInt_le request.id) Tag.integer
  have element : IsElement request.bytes Tag.sequence _ := isElement_elementBytes short _
  by_cases negative : request.id < 0
  · have idRead : Reader.integer (elementBytes Tag.integer (Integer.bytes request.id.toInt))
        = .ok request.id [] :=
      Reader.integer_eq_ok_iff.2 ⟨_, number, (List.append_nil _).symm⟩
    have ended : Reader.finish [] = .ok () [] := rfl
    rw [parse, Reader.soleSequence_of_isElement _ element, Reader.runOn, EStateM.run, fields,
      Step.bind_of_ok _ idRead, Step.bind_of_ok _ ended]
    simp only [ValueFormat.verdict, format, if_pos negative]
    rfl
  · simp only [ValueFormat.verdict, format, if_neg negative]
    exact parse_eq_ok_iff.2 ⟨_, element, number, Int32.not_lt.1 negative⟩

theorem Spelled.nonNegative {octets : Bytes} {request : CancelRequest}
    (spelled : Spelled octets request) : 0 ≤ request.id := by
  obtain ⟨_, _, _, nonNegative⟩ := spelled
  exact nonNegative

theorem Spelled.length_le {octets : Bytes} {request : CancelRequest}
    (spelled : Spelled octets request) : 2 + request.contentLength ≤ octets.length := by
  obtain ⟨id, element, number, _⟩ := spelled
  have inside := number.length_le
  have whole := element.length_le
  have narrow := Length.width_of_lt request.contentLength_lt
  have widths := Length.width_mono inside
  rw [length_contentBytes] at inside widths
  rw [length_elementBytes] at whole
  omega

theorem exact : format.Exact := by
  refine .of_bytes bytes length_bytes produces (fun request _ => request.parse_bytes)
    (fun _ _ => parse_eq_ok_iff) fun octets request spelled => ?_
  exact ⟨if_neg (Int32.not_lt.2 spelled.nonNegative),
    Nat.lt_trans request.contentLength_lt (by decide), spelled.length_le⟩

/-- A request fills its buffer. -/
theorem toValue_eq (request : CancelRequest) : request.toValue = .ok request.bytes := by
  have room : request.bytes.length
      ≤ (Writer.ofBuffer (List.replicate (2 + request.contentLength) 0)).remaining := by
    rw [length_bytes, Writer.ofBuffer, Writer.remaining, List.length_replicate]
  have wrote := request.produces.writes _ room
  rw [toValue, EStateM.run, wrote]
  have size := request.length_bytes
  simp [Writer.append, Writer.buffer, Writer.ofBuffer, List.reverseAux_eq, size]

end CancelRequest

/-- **The formats are exact**: paged results, synchronisation requests and cancel requests. For
a cancel request, the value is what fills the buffer that was measured for it, and what is read
from the extended request is the request, or nothing if its identifier is negative. -/
theorem formats_exact :
    PagedResults.format.Exact ∧ SyncRequest.format.Exact ∧ CancelRequest.format.Exact
      ∧ ∀ request : CancelRequest, ∃ octets,
        octets.length = CancelRequest.format.encodedLength request
          ∧ Writer.Produces request.encode octets ∧ request.toValue = .ok octets
          ∧ ∃ operation : ExtendedRequest, request.toOperation = .ok (.extendedRequest operation)
            ∧ operation.value = some octets
            ∧ CancelRequest.ofRequest operation
              = some <$> CancelRequest.format.verdict request := by
  refine ⟨PagedResults.exact, SyncRequest.exact, CancelRequest.exact, fun request => ?_⟩
  refine ⟨request.bytes, request.length_bytes, request.produces, request.toValue_eq,
    { name := CancelRequest.oid, value := some request.bytes }, ?_, rfl, ?_⟩
  · rw [CancelRequest.toOperation, request.toValue_eq]
    rfl
  · simp only [CancelRequest.ofRequest, ne_eq, not_true_eq_false, if_false, request.parse_bytes]
    cases CancelRequest.format.verdict request <;> rfl

end LdapWire
