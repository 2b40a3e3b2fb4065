import LdapWire.Proofs.Yaml.Scan
import LdapWire.Yaml.Document

/-!
# Reading a text of sections

The document of a text of sections is a mapping with an entry for each section, whose value
is the mapping of the entries of the section (`Document.read_sections`). A mapping of which
each key is a plain scalar gives its entries back (`Document.entries?_fields`).
-/

set_option autoImplicit false

namespace LdapWire.Yaml

/-! ## Nodes of sections -/

/-- A plain scalar. -/
def Node.word (text : String) : Node := .scalar none none .plain text

/-- A mapping of which each key is a plain scalar. -/
def Node.fields (items : List (String × Node)) : Node :=
  .mapping none (items.map fun item => (.word item.1, item.2))

/-- An entry as a document holds it. -/
def Entry.field (entry : Entry) : String × Node := (entry.key, .word entry.value)

/-- A section as a document holds it. -/
def Section.field (part : Section) : String × Node :=
  (part.name, .fields (part.entries.map Entry.field))

/-! ## Nodes from tokens -/

namespace Node

variable {rounds : Nat} {place : Place} {text : String} {rest : List Token}

theorem read_word :
    read (rounds + 1) place (.scalar .plain text :: rest) = some (word text, rest) := by
  simp [read, Properties.take, Properties.scalar, word]

theorem read_blockMap (block : place ≠ .flow) :
    read (rounds + 1) place (.blockMap :: rest)
      = (blockEntries rounds rest).map fun found => (mapping none found.1, found.2) := by
  rw [read]
  simp only [Properties.take, if_neg block]
  cases blockEntries rounds rest <;> rfl

theorem readBefore_of_content {ends : List Token} {token : Token}
    (content : ends.contains token = false) :
    readBefore (rounds + 1) place ends (token :: rest) = read rounds place (token :: rest) := by
  rw [readBefore, List.head?_cons, Option.any_some, content]
  rfl

theorem readValue_of_content {ends : List Token} {token : Token}
    (content : ends.contains token = false) :
    readValue (rounds + 2) place ends (.value :: token :: rest)
      = read rounds place (token :: rest) := by
  rw [← readBefore_of_content content]
  rfl

/-- One entry of a block mapping: a key that is a plain scalar, and what is read as its value. -/
theorem blockEntries_key {value : Node} {token : Token} {tokens : List Token}
    (content : [Token.key, .value, .blockEnd].contains token = false)
    (reads : read rounds .entry (token :: tokens) = some (value, rest)) :
    blockEntries (rounds + 3) (.key :: .scalar .plain text :: .value :: token :: tokens)
      = (blockEntries (rounds + 2) rest).map fun found =>
          ((word text, value) :: found.1, found.2) := by
  rw [blockEntries, readBefore_of_content rfl, read_word]
  simp only [Option.bind_eq_bind, Option.bind_some, readValue_of_content content, reads]
  cases blockEntries (rounds + 2) rest <;> rfl

/-- The entries of a section are read back, and what follows their end is left. -/
theorem blockEntries_entries {entries : List Entry} (enough : entries.length + 3 ≤ rounds) :
    blockEntries rounds (entries.flatMap Entry.tokens ++ .blockEnd :: rest)
      = some ((entries.map Entry.field).map fun item => (word item.1, item.2), rest) := by
  induction entries generalizing rounds with
  | nil =>
      obtain ⟨spare, rfl⟩ := Nat.exists_eq_add_of_le' enough
      simp [blockEntries]
  | cons entry others further =>
      rw [List.length_cons] at enough
      obtain ⟨spare, rfl⟩ : ∃ spare, rounds = spare + 4 := Nat.exists_eq_add_of_le' (by omega)
      have split : (entry :: others).flatMap Entry.tokens ++ .blockEnd :: rest
          = .key :: .scalar .plain entry.key :: .value :: .scalar .plain entry.value ::
            (others.flatMap Entry.tokens ++ .blockEnd :: rest) := rfl
      rw [split, blockEntries_key rfl read_word, further (by omega)]
      rfl

theorem read_entries {entries : List Entry} (enough : entries.length + 4 ≤ rounds) :
    read rounds .entry (.blockMap :: (entries.flatMap Entry.tokens ++ .blockEnd :: rest))
      = some (fields (entries.map Entry.field), rest) := by
  obtain ⟨spare, rfl⟩ : ∃ spare, rounds = spare + 1 := Nat.exists_eq_add_of_le' (by omega)
  rw [read_blockMap (by decide), blockEntries_entries (by omega)]
  rfl

/-- The sections are read back, and what follows the end of the last one is left. -/
theorem blockEntries_sections {parts : List Section}
    (enough : (parts.flatMap Section.tokens).length + 2 ≤ rounds) :
    blockEntries rounds (parts.flatMap Section.tokens ++ .blockEnd :: rest)
      = some ((parts.map Section.field).map fun item => (word item.1, item.2), rest) := by
  induction parts generalizing rounds with
  | nil =>
      obtain ⟨spare, rfl⟩ := Nat.exists_eq_add_of_le' enough
      simp [blockEntries]
  | cons part others further =>
      have split : (part :: others).flatMap Section.tokens
          = .key :: .scalar .plain part.name :: .value :: .blockMap ::
            (part.entries.flatMap Entry.tokens ++ .blockEnd ::
              others.flatMap Section.tokens) := by
        simp [Section.tokens, Section.opened]
      have lines : part.entries.length ≤ (part.entries.flatMap Entry.tokens).length := by
        simp only [List.length_flatMap, Entry.tokens, List.length_cons, List.length_nil,
          List.map_const', List.sum_replicate_nat]
        omega
      rw [split] at enough ⊢
      simp only [List.length_cons, List.length_append] at enough
      obtain ⟨spare, rfl⟩ : ∃ spare, rounds = spare + 3 := Nat.exists_eq_add_of_le' (by omega)
      simp only [List.cons_append, List.append_assoc]
      rw [blockEntries_key rfl (read_entries (by omega)), further (by omega)]
      rfl

theorem anchored_fields {items : List (String × Node)}
    (bare : ∀ item ∈ items, item.2.anchored = []) : (fields items).anchored = [] := by
  have entries : anchoredEntries (items.map fun item => (word item.1, item.2)) = [] := by
    induction items with
    | nil => rfl
    | cons item others further =>
        obtain ⟨first, rest⟩ := List.forall_mem_cons.1 bare
        rw [List.map_cons, anchoredEntries, first, further rest]
        rfl
  rw [fields, anchored, entries]
  rfl

/-- No part of a section has an anchor. -/
theorem anchored_field (part : Section) : part.field.2.anchored = [] := by
  apply anchored_fields
  intro item listed
  obtain ⟨entry, -, rfl⟩ := List.mem_map.1 listed
  rfl

/-- The mapping of the sections is the only node in the tokens of their text. -/
theorem ofTokens_sections (parts : List Section) :
    ofTokens (.blockMap :: (parts.flatMap Section.tokens ++ [.blockEnd]))
      = some (some (fields (parts.map Section.field))) := by
  have enough : (parts.flatMap Section.tokens).length + 2
      ≤ 3 * (Token.blockMap :: (parts.flatMap Section.tokens ++ [.blockEnd])).length + 2 := by
    simp only [List.length_cons, List.length_append]
    omega
  have content : (Token.blockMap :: (parts.flatMap Section.tokens ++ [.blockEnd])).dropWhile
      (fun token => token == .directive)
      = .blockMap :: (parts.flatMap Section.tokens ++ [.blockEnd]) := rfl
  rw [ofTokens, content]
  simp only [List.isEmpty_cons, bne_self_eq_false, Bool.false_eq_true, if_false,
    read_blockMap (show Place.block ≠ .flow by decide), blockEntries_sections enough]
  rfl

end Node

/-! ## Documents -/

namespace Document

/-- The document that holds some sections. -/
def ofSections (parts : List Section) : Document where
  root := some (.fields (parts.map Section.field))
  anchors := []

/-- A mapping of which each key is a plain scalar has the entries that it was made of. -/
theorem entries?_fields (document : Document) (items : List (String × Node)) :
    document.entries? (.fields items) = some items := by
  change (items.map fun item => (Node.word item.1, item.2)).mapM _ = some items
  induction items with
  | nil => rfl
  | cons item others further =>
      rw [List.map_cons, List.mapM_cons, further]
      rfl

theorem rootEntries?_ofSections (parts : List Section) :
    (ofSections parts).rootEntries? = some (parts.map Section.field) :=
  entries?_fields _ _

/-- **A text of sections** is read as the mapping of them. -/
theorem read_sections {text : String} {first : Section} {others : List Section}
    (plain : (first :: others).all Section.isPlain = true)
    (spelled : text.toList = (first :: others).flatMap Section.text) :
    read text = some (ofSections (first :: others)) := by
  have bare : (Node.fields ((first :: others).map Section.field)).anchored = [] := by
    apply Node.anchored_fields
    intro item listed
    obtain ⟨part, -, rfl⟩ := List.mem_map.1 listed
    exact Node.anchored_field part
  rw [read, Token.scan_sections plain spelled, Option.bind_eq_bind, Option.bind_some,
    Node.ofTokens_sections, Option.bind_eq_bind, Option.bind_some]
  simp only [Option.toList_some, List.flatMap_cons, bare]
  rfl

end Document

/-! ## Numbers -/

/-- A number in decimal digits is a word. -/
theorem isWord_toDigits (value : Nat) : isWord (Nat.toDigits 10 value) = true := by
  have marks : (Nat.toDigits 10 value).all isWordMark = true := by
    apply List.all_eq_true.2
    intro character listed
    simp [isWordMark, Char.isAlphanum,
      Nat.isDigit_of_mem_toDigits (by decide) (Nat.le_refl 10) listed]
  rw [isWord, marks, Bool.and_true, Bool.not_eq_true', List.isEmpty_eq_false_iff]
  exact Nat.toDigits_ne_nil

namespace Document

/-- A number in decimal digits is a magnitude. -/
theorem magnitude?_toDigits (value : Nat) :
    magnitude? (Nat.toDigits 10 value) = some value := by
  rcases Nat.eq_zero_or_pos value with rfl | positive
  · rfl
  · cases digits : Nat.toDigits 10 value with
    | nil => cases Nat.toDigits_ne_nil digits
    | cons character rest =>
        have digit : character.isDigit = true :=
          Nat.isDigit_of_mem_toDigits (by decide) (Nat.le_refl 10) (digits ▸ List.mem_cons_self)
        have zero : character ≠ '0' := by
          rintro rfl
          exact Text.Digits.head?_toDigits positive (by rw [digits]; rfl)
        have plus : character ≠ '+' := by
          rintro rfl
          cases digit
        have number := Text.Digits.number?_toDigits value
        rw [digits] at number
        simp [magnitude?, zero, plus, number]

/-- A number in a plain scalar is a size if it has at most 64 bits. -/
theorem size?_word (document : Document) (value : Nat) :
    document.size? (.word value.repr)
      = if value < UInt64.size then some value else none := by
  simp [size?, resolve, Node.word, magnitude?_toDigits]

theorem size?_lt {document : Document} {node : Node} {value : Nat}
    (found : document.size? node = some value) : value < UInt64.size := by
  rw [size?] at found
  split at found
  case h_1 anchor tag style text scalar =>
    obtain ⟨-, found⟩ := Option.ite_none_right_eq_some.1 found
    obtain ⟨number, -, found⟩ := Option.bind_eq_some_iff.1 found
    obtain ⟨small, found⟩ := Option.ite_none_right_eq_some.1 found
    cases found
    exact small
  case h_2 => cases found

end Document

end LdapWire.Yaml
