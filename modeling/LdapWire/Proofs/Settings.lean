import LdapWire.Proofs.Yaml.Document
import LdapWire.Settings.Text

/-!
# Settings read back

The text of settings is a text of three sections (`Settings.toList_toText`), so the document
in it is known, and each value is read back from the word that it was written with. Only two
things can keep `Settings.parse` from giving the settings back (`Settings.parse_toText`): a
size of more than 64 bits, which no text can hold, and what `Settings.check` refuses. Settings
that have been read from any text have neither (`Settings.parse_toText_of_parse`).
-/

set_option autoImplicit false

namespace LdapWire

open Yaml (Document Entry Node Section isWord)

namespace Settings

/-- The settings with which a message can be decoded. -/
theorem check_eq_ok_iff {settings : Settings} :
    settings.check = .ok () ↔
      0 < settings.limits.maxPduSize ∧ 2 ≤ settings.limits.maxDepth ∧ 0 < settings.chunkSize := by
  rw [check]
  by_cases pdu : settings.limits.maxPduSize = 0
  · simp [pdu]
  · by_cases depth : settings.limits.maxDepth < 2
    · simp [pdu, depth, Nat.not_le.2 depth]
    · by_cases chunk : settings.chunkSize = 0
      · simp [pdu, depth, chunk]
      · simp [pdu, depth, chunk, Nat.pos_of_ne_zero, Nat.le_of_not_lt depth]

/-! ## The text of settings -/

/-- The sections that settings are written in. -/
def sections (settings : Settings) : List Section :=
  [⟨"decoder", ⟨"max_pdu_size", toString settings.limits.maxPduSize⟩,
      [⟨"max_depth", toString settings.limits.maxDepth⟩]⟩,
    ⟨"stream", ⟨"read_chunk_size", toString settings.chunkSize⟩, []⟩,
    ⟨"batch", ⟨"processing", settings.policy.processing.word⟩,
      [⟨"response_order", settings.policy.responseOrder.word⟩,
        ⟨"on_error", settings.policy.onError.word⟩]⟩]

/-- The numbers of settings. -/
def sizes (settings : Settings) : List Nat :=
  [settings.limits.maxPduSize, settings.limits.maxDepth, settings.chunkSize]

/-- The text of settings is made of their sections. -/
theorem toList_toText (settings : Settings) :
    settings.toText.toList = settings.sections.flatMap Section.text := by
  have decoder : "decoder:\n  max_pdu_size: ".toList
      = "decoder".toList ++ ':' :: '\n' :: ' ' :: ' ' :: ("max_pdu_size".toList ++ [':', ' ']) := by
    decide
  have depth : "  max_depth: ".toList = ' ' :: ' ' :: ("max_depth".toList ++ [':', ' ']) := by
    decide
  have stream : "stream:\n  read_chunk_size: ".toList
      = "stream".toList ++ ':' :: '\n' :: ' ' :: ' ' ::
        ("read_chunk_size".toList ++ [':', ' ']) := by decide
  have batch : "batch:\n  processing: ".toList
      = "batch".toList ++ ':' :: '\n' :: ' ' :: ' ' :: ("processing".toList ++ [':', ' ']) := by
    decide
  have order : "  response_order: ".toList
      = ' ' :: ' ' :: ("response_order".toList ++ [':', ' ']) := by decide
  have failure : "  on_error: ".toList = ' ' :: ' ' :: ("on_error".toList ++ [':', ' ']) := by
    decide
  have lineEnd : "\n".toList = ['\n'] := by decide
  have itself : ∀ text : String, toString text = text := fun _ => rfl
  unfold toText sections
  simp only [String.toList_append, itself, decoder, depth, stream, batch, order, failure, lineEnd,
    Section.text, Section.entries, Entry.text, List.flatMap_cons, List.flatMap_nil,
    List.append_assoc, List.cons_append, List.nil_append, List.append_nil]

/-- The names and the values in the text of settings are words. -/
theorem isPlain_sections (settings : Settings) :
    settings.sections.all Section.isPlain = true := by
  have processing : isWord settings.policy.processing.word.toList = true := by
    cases settings.policy.processing <;> decide
  have order : isWord settings.policy.responseOrder.word.toList = true := by
    cases settings.policy.responseOrder <;> decide
  have failure : isWord settings.policy.onError.word.toList = true := by
    cases settings.policy.onError <;> decide
  have keys : ["decoder", "max_pdu_size", "max_depth", "stream", "read_chunk_size", "batch",
      "processing", "response_order", "on_error"].all Yaml.isKey = true := by decide
  simp only [List.all_cons, Bool.and_eq_true] at keys
  simp [sections, Section.isPlain, Section.entries, Entry.isPlain, processing, order, failure,
    Yaml.isWord_toDigits, keys]

/-! ## Values -/

variable {document : Document}

theorem readLimits_fields (limits : Limits) :
    readLimits document (.fields [("max_pdu_size", .word limits.maxPduSize.repr),
        ("max_depth", .word limits.maxDepth.repr)])
      = if limits.maxPduSize < UInt64.size ∧ limits.maxDepth < UInt64.size then some limits
        else none := by
  rw [readLimits, Document.entries?_fields]
  by_cases pdu : limits.maxPduSize < UInt64.size <;>
    by_cases depth : limits.maxDepth < UInt64.size <;>
      simp [valueOr, Document.unique?, Document.size?_word, pdu, depth]

theorem readChunkSize_fields (chunkSize : Nat) :
    readChunkSize document (.fields [("read_chunk_size", .word chunkSize.repr)])
      = if chunkSize < UInt64.size then some chunkSize else none := by
  rw [readChunkSize, Document.entries?_fields]
  simp [valueOr, Document.unique?, Document.size?_word]

theorem readPolicy_fields (policy : Batch.Policy) :
    readPolicy document (.fields [("processing", .word policy.processing.word),
        ("response_order", .word policy.responseOrder.word),
        ("on_error", .word policy.onError.word)]) = some policy := by
  obtain ⟨processing, order, failure⟩ := policy
  rw [readPolicy, Document.entries?_fields]
  cases processing <;> cases order <;> cases failure <;> rfl

/-- The settings in a document of their sections, if each of their sizes can be one. -/
theorem ofDocument?_sections {settings : Settings}
    (holds : document.rootEntries? = some (settings.sections.map Section.field)) :
    ofDocument? document
      = if ∀ size ∈ settings.sizes, size < UInt64.size then some settings else none := by
  rw [ofDocument?, holds]
  simp only [sections, Section.field, Section.entries, Entry.field, List.map_cons, List.map_nil,
    Nat.toString_eq_repr, valueOr, Document.unique?, sizes, List.forall_mem_cons]
  by_cases limits : settings.limits.maxPduSize < UInt64.size
      ∧ settings.limits.maxDepth < UInt64.size <;>
    by_cases chunk : settings.chunkSize < UInt64.size <;>
      simp [readLimits_fields, readChunkSize_fields, readPolicy_fields, limits, chunk]

/-- **Settings are read back** from the text that they are written as, and checked again. They
are not if a size has more than 64 bits. -/
theorem parse_toText (settings : Settings) :
    parse settings.toText
      = if ∀ size ∈ settings.sizes, size < UInt64.size then settings.check.map fun _ => settings
        else .error .unreadable := by
  have read : Document.read settings.toText = some (.ofSections settings.sections) :=
    Document.read_sections settings.isPlain_sections settings.toList_toText
  rw [parse, read, Option.bind_some,
    ofDocument?_sections (Document.rootEntries?_ofSections settings.sections)]
  by_cases small : ∀ size ∈ settings.sizes, size < UInt64.size
  · rw [if_pos small, if_pos small]
    change settings.check.bind (fun _ => .ok settings) = _
    cases settings.check <;> rfl
  · rw [if_neg small, if_neg small]

/-! ## What a text can hold -/

theorem valueOr_eq_some {α : Type} {entries : List (String × Node)} {key : String}
    {reader : Node → Option α} {absent value : α}
    (found : valueOr entries key reader absent = some value) :
    value = absent ∨ ∃ node, reader node = some value := by
  rw [valueOr] at found
  obtain ⟨given, -, found⟩ := Option.bind_eq_some_iff.1 found
  cases given with
  | none => exact .inl (Option.some.inj found).symm
  | some node => exact .inr ⟨node, found⟩

/-- A size that is read, or its default, has at most 64 bits. -/
theorem lt_of_valueOr {entries : List (String × Node)} {key : String} {absent value : Nat}
    (small : absent < UInt64.size)
    (found : valueOr entries key document.size? absent = some value) : value < UInt64.size := by
  rcases valueOr_eq_some found with rfl | ⟨node, found⟩
  · exact small
  · exact Document.size?_lt found

theorem readLimits_lt {node : Node} {limits : Limits}
    (found : readLimits document node = some limits) :
    limits.maxPduSize < UInt64.size ∧ limits.maxDepth < UInt64.size := by
  simp only [readLimits, Option.bind_eq_bind, Option.bind_eq_some_iff, Option.pure_def,
    Option.some.injEq] at found
  obtain ⟨entries, -, maxPduSize, pdu, maxDepth, depth, rfl⟩ := found
  exact ⟨lt_of_valueOr (by decide) pdu, lt_of_valueOr (by decide) depth⟩

theorem readChunkSize_lt {node : Node} {chunkSize : Nat}
    (found : readChunkSize document node = some chunkSize) : chunkSize < UInt64.size := by
  simp only [readChunkSize, Option.bind_eq_bind, Option.bind_eq_some_iff] at found
  obtain ⟨entries, -, chunk⟩ := found
  exact lt_of_valueOr (by decide) chunk

/-- No number that a document holds has more than 64 bits. -/
theorem sizes_of_ofDocument? {settings : Settings} (found : ofDocument? document = some settings) :
    ∀ size ∈ settings.sizes, size < UInt64.size := by
  simp only [ofDocument?, Option.bind_eq_bind, Option.bind_eq_some_iff, Option.pure_def,
    Option.some.injEq] at found
  obtain ⟨entries, -, limits, decoder, chunkSize, stream, policy, -, rfl⟩ := found
  have narrow : limits.maxPduSize < UInt64.size ∧ limits.maxDepth < UInt64.size := by
    rcases valueOr_eq_some decoder with rfl | ⟨node, found⟩
    · decide
    · exact readLimits_lt found
  have chunk : chunkSize < UInt64.size := by
    rcases valueOr_eq_some stream with rfl | ⟨node, found⟩
    · decide
    · exact readChunkSize_lt found
  simpa [sizes] using ⟨narrow.1, narrow.2, chunk⟩

theorem parse_eq_ok_iff {text : String} {settings : Settings} :
    parse text = .ok settings ↔
      (Document.read text).bind ofDocument? = some settings ∧ settings.check = .ok () := by
  rw [parse]
  cases (Document.read text).bind ofDocument? with
  | none => simp
  | some found =>
      change found.check.bind (fun _ => .ok found) = _ ↔ _
      rw [Option.some.injEq]
      constructor
      · intro accepted
        cases checked : found.check with
        | error error =>
            rw [checked] at accepted
            cases accepted
        | ok _ =>
            rw [checked] at accepted
            obtain rfl : found = settings := Except.ok.inj accepted
            exact ⟨rfl, checked⟩
      · rintro ⟨rfl, checked⟩
        rw [checked]
        rfl

/-- **Settings that are read are accepted**, and what they are written as is read as them. -/
theorem parse_toText_of_parse {text : String} {settings : Settings}
    (accepted : parse text = .ok settings) :
    settings.check = .ok () ∧ parse settings.toText = .ok settings := by
  obtain ⟨read, checked⟩ := parse_eq_ok_iff.1 accepted
  obtain ⟨document, -, holds⟩ := Option.bind_eq_some_iff.1 read
  refine ⟨checked, ?_⟩
  rw [parse_toText, if_pos (sizes_of_ofDocument? holds), checked]
  rfl

end Settings

end LdapWire
