import LdapWire.Control.Registry
import LdapWire.Proofs.Ber.Spelling

/-!
# Payloads of controls

A payload of a known shape writes the octets it claims to write
(`PagedResults.produces`, `SyncRequest.produces`) and is read back from them
(`PagedResults.parse_bytes`, `SyncRequest.parse_bytes`). Only a page of negative size is
written and not read back.

The octets that are read as a payload are told without a reader (`PagedResults.Spelled`,
`SyncRequest.Spelled`): one sequence of the fields in their order
(`PagedResults.parse_eq_ok_iff`, `SyncRequest.parse_eq_ok_iff`). A payload takes no more octets
than it was read from.
-/

set_option autoImplicit false

namespace LdapWire

open Ber

/-! ## Paged results -/

namespace PagedResults

/-- The octets inside the sequence. -/
def contentBytes (paged : PagedResults) : Bytes :=
  elementBytes Tag.integer (Integer.bytes paged.size.toInt)
    ++ elementBytes Tag.octetString paged.cookie

def bytes (paged : PagedResults) : Bytes := elementBytes Tag.sequence paged.contentBytes

/-- Whether octets spell a page: a sequence of its size, which is not negative, and its
cookie. -/
def Spelled (octets : Bytes) (paged : PagedResults) : Prop :=
  ∃ size cookie, IsElement octets Tag.sequence (size ++ cookie)
    ∧ IsNumber size Tag.integer paged.size.toInt ∧ 0 ≤ paged.size
    ∧ IsElement cookie Tag.octetString paged.cookie

theorem length_contentBytes (paged : PagedResults) :
    paged.contentBytes.length = paged.contentLength := by
  have narrow := Integer.length_bytes_toInt_le paged.size
  have width : Length.width (Integer.bytes paged.size.toInt).length = 1 :=
    Length.width_of_lt (Nat.lt_of_le_of_lt narrow (by decide))
  rw [contentBytes, List.length_append, length_elementBytes, length_elementBytes, width,
    Integer.length_bytes, contentLength]

theorem length_bytes (paged : PagedResults) : paged.bytes.length = paged.encodedLength := by
  rw [bytes, length_elementBytes, length_contentBytes, encodedLength]

theorem produces (paged : PagedResults) : Writer.Produces paged.encode paged.bytes := by
  have fields : Writer.Produces (do Writer.writeInteger paged.size.toInt
                                    Writer.writeOctetString paged.cookie) paged.contentBytes :=
    (Writer.produces_element _ _).bind (Writer.produces_element _ _)
  rw [bytes, elementBytes, length_contentBytes]
  exact (Writer.produces_octets [Tag.sequence]).bind ((Writer.produces_length _).bind fields)

theorem parse_eq_ok_iff {octets : Bytes} {paged : PagedResults} :
    parse octets = .ok paged ↔ Spelled octets paged := by
  rw [parse, Reader.soleSequence_eq_ok_iff]
  constructor
  · rintro ⟨inner, rest, element, read⟩
    obtain ⟨size, afterSize, sizeRead, further⟩ := Step.exists_of_bind_eq_ok read
    dsimp only at further
    split at further
    · cases further
    · rename_i nonNegative
      obtain ⟨cookie, afterCookie, cookieRead, finished⟩ := Step.exists_of_bind_eq_ok further
      obtain ⟨_, _, ended, returned⟩ := Step.exists_of_bind_eq_ok finished
      cases returned
      obtain ⟨rfl, rfl⟩ := Reader.finish_eq_ok_iff.1 ended
      obtain ⟨front, number, rfl⟩ := Reader.integer_eq_ok_iff.1 sizeRead
      obtain ⟨back, text, rfl⟩ := Reader.octetString_eq_ok_iff.1 cookieRead
      rw [List.append_nil] at element
      exact ⟨front, back, element, number, Int32.not_lt.1 nonNegative, text⟩
  · rintro ⟨size, cookie, element, number, nonNegative, text⟩
    have sizeRead : Reader.integer (size ++ cookie) = .ok paged.size cookie :=
      Reader.integer_eq_ok_iff.2 ⟨size, number, rfl⟩
    have cookieRead : Reader.octetString cookie = .ok paged.cookie [] :=
      Reader.octetString_eq_ok_iff.2 ⟨cookie, text, (List.append_nil cookie).symm⟩
    refine ⟨_, [], element, ?_⟩
    rw [fields, Step.bind_of_ok _ sizeRead]
    simp only [if_neg (Int32.not_lt.2 nonNegative)]
    rw [Step.bind_of_ok _ cookieRead]
    rfl

theorem Spelled.nonNegative {octets : Bytes} {paged : PagedResults}
    (spelled : Spelled octets paged) : 0 ≤ paged.size := by
  obtain ⟨_, _, _, _, nonNegative, _⟩ := spelled
  exact nonNegative

/-- No spelling of a page is shorter than what is written for it. -/
theorem Spelled.length_le {octets : Bytes} {paged : PagedResults} (spelled : Spelled octets paged) :
    paged.contentLength < 256 ^ Length.maxOctets ∧ paged.encodedLength ≤ octets.length := by
  obtain ⟨size, cookie, element, number, _, text⟩ := spelled
  have first := number.length_le
  have second := text.length_le
  have narrower : paged.contentLength ≤ (size ++ cookie).length := by
    rw [← length_contentBytes, contentBytes, List.length_append, List.length_append]
    omega
  have whole := element.length_le
  have widths := Length.width_mono narrower
  rw [length_elementBytes] at whole
  refine ⟨Nat.lt_of_le_of_lt narrower element.fits, ?_⟩
  rw [encodedLength]
  omega

/-- What is written for a page is read back, unless its size is negative. -/
theorem parse_bytes {paged : PagedResults} (fits : paged.contentLength < 256 ^ Length.maxOctets) :
    parse paged.bytes =
      if paged.size < 0 then .error (.violation (.negative "page size" paged.size.toInt))
      else .ok paged := by
  have size := paged.length_contentBytes
  have short : paged.contentBytes.length < 256 ^ Length.maxOctets := by rwa [size]
  have shortCookie : paged.cookie.length < 256 ^ Length.maxOctets := by
    rw [contentLength] at size
    omega
  have element : IsElement paged.bytes Tag.sequence paged.contentBytes :=
    isElement_elementBytes short _
  have number := isNumber_elementBytes (Integer.byteWidth_toInt_le paged.size) Tag.integer
  by_cases negative : paged.size < 0
  · have sizeRead : Reader.integer paged.contentBytes = .ok paged.size _ :=
      Reader.integer_eq_ok_iff.2 ⟨_, number, rfl⟩
    rw [if_pos negative, parse, Reader.soleSequence_of_isElement _ element, Reader.runOn,
      EStateM.run, fields, Step.bind_of_ok _ sizeRead]
    simp only [if_pos negative]
    rfl
  · rw [if_neg negative, parse_eq_ok_iff]
    exact ⟨_, _, element, number, Int32.not_lt.1 negative, isElement_elementBytes shortCookie _⟩

/-- What was read has a size that is not negative, and is no shorter than what
would be written for it. -/
theorem of_parse {content : Bytes} {paged : PagedResults} (read : parse content = .ok paged) :
    0 ≤ paged.size ∧ paged.encodedLength ≤ content.length :=
  have spelled := parse_eq_ok_iff.1 read
  ⟨spelled.nonNegative, spelled.length_le.2⟩

end PagedResults

/-! ## Synchronisation requests -/

theorem SyncMode.ofCode_eq_ok_iff {code : Int} {mode : SyncMode} :
    ofCode code = .ok mode ↔ code = mode.code := by
  constructor
  · intro known
    unfold ofCode at known
    split at known <;> cases known <;> rfl
  · rintro rfl
    cases mode <;> rfl

namespace SyncRequest

/-- The octets of the cookie and of the hint, where they are present. -/
def optionalBytes (request : SyncRequest) : Bytes :=
  request.cookie.elim [] (elementBytes Tag.octetString)
    ++ if request.reloadHint then elementBytes Tag.boolean (Boolean.bytes true) else []

/-- The octets inside the sequence. -/
def contentBytes (request : SyncRequest) : Bytes :=
  elementBytes Tag.enumerated (Integer.bytes request.mode.code) ++ request.optionalBytes

def bytes (request : SyncRequest) : Bytes := elementBytes Tag.sequence request.contentBytes

/-- Whether octets spell a synchronisation request: a sequence of its mode, its cookie if it has
one, and its hint, which may be left out if it is false. -/
def Spelled (octets : Bytes) (request : SyncRequest) : Prop :=
  ∃ mode cookie hint, IsElement octets Tag.sequence (mode ++ (cookie ++ hint))
    ∧ IsNumber mode Tag.enumerated request.mode.code
    ∧ (cookie = [] ∧ request.cookie = none
      ∨ ∃ content, IsElement cookie Tag.octetString content ∧ request.cookie = some content)
    ∧ (hint = [] ∧ request.reloadHint = false ∨ IsTruth hint request.reloadHint)

theorem length_contentBytes (request : SyncRequest) :
    request.contentBytes.length = request.contentLength := by
  obtain ⟨mode, cookie, reloadHint⟩ := request
  have width : Length.width (Integer.byteWidth mode.code) = 1 := by cases mode <;> rfl
  have hint : Length.width 1 = 1 := rfl
  cases cookie <;> cases reloadHint <;>
    simp only [contentBytes, optionalBytes, contentLength, List.length_append, length_elementBytes,
      Integer.length_bytes, width, hint, Boolean.length_bytes, Option.elim, List.length_nil,
      if_true, if_false, Bool.false_eq_true] <;>
    omega

theorem length_bytes (request : SyncRequest) : request.bytes.length = request.encodedLength := by
  rw [bytes, length_elementBytes, length_contentBytes, encodedLength]

theorem produces (request : SyncRequest) : Writer.Produces request.encode request.bytes := by
  rw [bytes, elementBytes, length_contentBytes]
  refine (Writer.produces_octets [Tag.sequence]).bind ((Writer.produces_length _).bind ?_)
  refine (Writer.produces_element _ _).bind ?_
  obtain ⟨mode, cookie, reloadHint⟩ := request
  cases cookie with
  | none =>
      cases reloadHint with
      | false => exact Writer.Produces.pure
      | true => exact Writer.produces_element _ _
  | some cookie =>
      refine (Writer.produces_element Tag.octetString cookie).bind ?_
      cases reloadHint with
      | false => exact Writer.Produces.pure
      | true => exact Writer.produces_element _ _

/-- Reads the mode. -/
def readMode : Reader SyncMode := do
  Step.lift (SyncMode.ofCode (← Reader.enumerated).toInt)

/-- Reads the cookie, if it comes next. -/
def readCookie : Reader (Option Bytes) := do
  if (← Reader.peekTag) = some Tag.octetString then some <$> Reader.octetString else pure none

/-- Reads the hint, if it comes next. -/
def readHint : Reader Bool := do
  if (← Reader.peekTag) = some Tag.boolean then Reader.boolean else pure false

theorem fields_eq : fields = do
    let mode ← readMode
    let cookie ← readCookie
    let reloadHint ← readHint
    Reader.finish
    return { mode, cookie, reloadHint } := by
  simp only [fields, readMode, readCookie, readHint, bind_assoc, Step.ite_bind]

theorem readMode_eq_ok_iff {input rest : Bytes} {mode : SyncMode} :
    readMode input = .ok mode rest
      ↔ ∃ element, IsNumber element Tag.enumerated mode.code ∧ input = element ++ rest := by
  constructor
  · intro read
    obtain ⟨code, middle, codeRead, known⟩ := Step.exists_of_bind_eq_ok read
    obtain ⟨found, rfl⟩ := Step.lift_eq_ok known
    rw [← SyncMode.ofCode_eq_ok_iff.1 found]
    exact Reader.enumerated_eq_ok_iff.1 codeRead
  · rintro ⟨element, number, rfl⟩
    have wide : (Int64.ofInt mode.code).toInt = mode.code := by cases mode <;> rfl
    have codeRead : Reader.enumerated (element ++ rest) = .ok (Int64.ofInt mode.code) rest :=
      Reader.enumerated_eq_ok_iff.2 ⟨element, wide.symm ▸ number, rfl⟩
    rw [readMode, Step.bind_of_ok _ codeRead, wide, SyncMode.ofCode_eq_ok_iff.2 rfl]
    rfl

theorem readCookie_eq_ok_iff {input rest : Bytes} {cookie : Option Bytes} :
    readCookie input = .ok cookie rest
      ↔ input.head? ≠ some Tag.octetString ∧ cookie = none ∧ rest = input
        ∨ ∃ content element, IsElement element Tag.octetString content ∧ cookie = some content
          ∧ input = element ++ rest := by
  have step : readCookie input
      = (if input.head? = some Tag.octetString then some <$> Reader.octetString else pure none :
          Reader (Option Bytes)) input := rfl
  rw [step]
  constructor
  · intro read
    split at read
    · rw [map_eq_pure_bind] at read
      obtain ⟨content, middle, contentRead, returned⟩ := Step.exists_of_bind_eq_ok read
      cases returned
      obtain ⟨element, text, rfl⟩ := Reader.octetString_eq_ok_iff.1 contentRead
      exact .inr ⟨content, element, text, rfl, rfl⟩
    · rename_i absent
      cases read
      exact .inl ⟨absent, rfl, rfl⟩
  · rintro (⟨absent, rfl, rfl⟩ | ⟨content, element, text, rfl, rfl⟩)
    · rw [if_neg absent]
      rfl
    · have contentRead : Reader.octetString (element ++ rest) = .ok content rest :=
        Reader.octetString_eq_ok_iff.2 ⟨element, text, rfl⟩
      rw [if_pos (text.head?_append rest), map_eq_pure_bind, Step.bind_of_ok _ contentRead]
      rfl

theorem readHint_eq_ok_iff {input rest : Bytes} {reloadHint : Bool} :
    readHint input = .ok reloadHint rest
      ↔ input.head? ≠ some Tag.boolean ∧ reloadHint = false ∧ rest = input
        ∨ ∃ element, IsTruth element reloadHint ∧ input = element ++ rest := by
  have step : readHint input
      = (if input.head? = some Tag.boolean then Reader.boolean else pure false : Reader Bool)
          input := rfl
  rw [step]
  constructor
  · intro read
    split at read
    · exact .inr (Reader.boolean_eq_ok_iff.1 read)
    · rename_i absent
      cases read
      exact .inl ⟨absent, rfl, rfl⟩
  · rintro (⟨absent, rfl, rfl⟩ | ⟨element, truth, rfl⟩)
    · rw [if_neg absent]
      rfl
    · rw [if_pos (truth.head?_append rest)]
      exact Reader.boolean_eq_ok_iff.2 ⟨element, truth, rfl⟩

theorem parse_eq_ok_iff {octets : Bytes} {request : SyncRequest} :
    parse octets = .ok request ↔ Spelled octets request := by
  rw [parse, Reader.soleSequence_eq_ok_iff, fields_eq]
  constructor
  · rintro ⟨inner, rest, element, read⟩
    obtain ⟨mode, afterMode, modeRead, further⟩ := Step.exists_of_bind_eq_ok read
    obtain ⟨cookie, afterCookie, cookieRead, further⟩ := Step.exists_of_bind_eq_ok further
    obtain ⟨reloadHint, afterHint, hintRead, finished⟩ := Step.exists_of_bind_eq_ok further
    obtain ⟨_, _, ended, returned⟩ := Step.exists_of_bind_eq_ok finished
    cases returned
    obtain ⟨rfl, rfl⟩ := Reader.finish_eq_ok_iff.1 ended
    obtain ⟨front, number, rfl⟩ := readMode_eq_ok_iff.1 modeRead
    have hint : afterCookie = [] ∧ reloadHint = false ∨ IsTruth afterCookie reloadHint := by
      rcases readHint_eq_ok_iff.1 hintRead with ⟨_, rfl, same⟩ | ⟨back, truth, rfl⟩
      · exact .inl ⟨same.symm, rfl⟩
      · rw [List.append_nil]
        exact .inr truth
    rcases readCookie_eq_ok_iff.1 cookieRead with
      ⟨_, rfl, rfl⟩ | ⟨content, middle, text, rfl, rfl⟩
    · exact ⟨front, [], afterCookie, element, number, .inl ⟨rfl, rfl⟩, hint⟩
    · exact ⟨front, middle, afterCookie, element, number, .inr ⟨content, text, rfl⟩, hint⟩
  · rintro ⟨mode, cookie, hint, element, number, text, truth⟩
    have modeRead : readMode (mode ++ (cookie ++ hint)) = .ok request.mode (cookie ++ hint) :=
      readMode_eq_ok_iff.2 ⟨mode, number, rfl⟩
    have cookieRead : readCookie (cookie ++ hint) = .ok request.cookie hint := by
      refine readCookie_eq_ok_iff.2 ?_
      rcases text with ⟨rfl, absent⟩ | ⟨content, text, present⟩
      · refine .inl ⟨?_, absent, rfl⟩
        rcases truth with ⟨rfl, _⟩ | truth
        · nofun
        · rw [List.nil_append, ← List.append_nil hint, truth.head?_append]
          decide
      · exact .inr ⟨content, cookie, text, present, rfl⟩
    have hintRead : readHint hint = .ok request.reloadHint [] := by
      refine readHint_eq_ok_iff.2 ?_
      rcases truth with ⟨rfl, absent⟩ | truth
      · exact .inl ⟨nofun, absent, rfl⟩
      · exact .inr ⟨hint, truth, (List.append_nil hint).symm⟩
    refine ⟨_, [], element, ?_⟩
    rw [Step.bind_of_ok _ modeRead, Step.bind_of_ok _ cookieRead, Step.bind_of_ok _ hintRead]
    rfl

/-- No spelling of a request is shorter than what is written for it. -/
theorem Spelled.length_le {octets : Bytes} {request : SyncRequest}
    (spelled : Spelled octets request) :
    request.contentLength < 256 ^ Length.maxOctets ∧ request.encodedLength ≤ octets.length := by
  obtain ⟨mode, cookie, hint, element, number, text, truth⟩ := spelled
  have first := number.length_le
  have second : (request.cookie.elim [] (elementBytes Tag.octetString)).length ≤ cookie.length := by
    rcases text with ⟨_, absent⟩ | ⟨content, text, present⟩
    · rw [absent]
      exact Nat.zero_le _
    · rw [present]
      exact text.length_le
  have third : (if request.reloadHint then elementBytes Tag.boolean (Boolean.bytes true)
      else []).length ≤ hint.length := by
    rcases truth with ⟨_, absent⟩ | truth
    · rw [absent]
      exact Nat.zero_le _
    · cases request.reloadHint with
      | false => exact Nat.zero_le _
      | true => exact truth.length_le
  have narrower : request.contentLength ≤ (mode ++ (cookie ++ hint)).length := by
    simp only [← length_contentBytes, contentBytes, optionalBytes, List.length_append]
    omega
  have whole := element.length_le
  have widths := Length.width_mono narrower
  rw [length_elementBytes] at whole
  refine ⟨Nat.lt_of_le_of_lt narrower element.fits, ?_⟩
  rw [encodedLength]
  omega

/-- What is written for a request is read back. -/
theorem parse_bytes {request : SyncRequest}
    (fits : request.contentLength < 256 ^ Length.maxOctets) :
    parse request.bytes = .ok request := by
  have size := request.length_contentBytes
  have short : request.contentBytes.length < 256 ^ Length.maxOctets := by rwa [size]
  have element : IsElement request.bytes Tag.sequence request.contentBytes :=
    isElement_elementBytes short _
  have small : Integer.byteWidth request.mode.code ≤ Integer.maxSize := by
    cases request.mode <;> decide
  refine parse_eq_ok_iff.2
    ⟨_, _, _, element, isNumber_elementBytes small _, ?_, ?_⟩
  · cases present : request.cookie with
    | none => exact .inl ⟨rfl, rfl⟩
    | some cookie =>
        refine .inr ⟨cookie, isElement_elementBytes ?_ _, rfl⟩
        simp only [contentLength, present, Option.elim] at fits
        omega
  · cases request.reloadHint with
    | false => exact .inl ⟨rfl, rfl⟩
    | true => exact .inr (isTruth_elementBytes true)

/-- What was read is no shorter than what would be written for it. -/
theorem of_parse {content : Bytes} {request : SyncRequest} (read : parse content = .ok request) :
    request.encodedLength ≤ content.length :=
  (parse_eq_ok_iff.1 read).length_le.2

end SyncRequest

end LdapWire
