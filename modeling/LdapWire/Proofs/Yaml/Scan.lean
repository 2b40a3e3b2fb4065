import LdapWire.Proofs.Yaml.Round

/-!
# Scanning a text of sections

A text of sections is a block mapping whose values are block mappings of plain scalars, one
entry on each line and the entries of a section indented by two blanks (`Section.text`). It
is cut into the tokens of these mappings (`Token.scan_sections`), for any number of sections
and of entries.
-/

set_option autoImplicit false

namespace LdapWire.Yaml

/-! ## Sections -/

/-- Whether a text is a word and not too long for a key. -/
def isKey (text : String) : Bool :=
  isWord text.toList && decide (text.toList.length ≤ Candidate.reach)

/-- A key with a plain scalar, on a line of their own. -/
structure Entry where
  key : String
  value : String

namespace Entry

def text (entry : Entry) : List Char :=
  ' ' :: ' ' :: (entry.key.toList ++ ':' :: ' ' :: (entry.value.toList ++ ['\n']))

def tokens (entry : Entry) : List Token :=
  [.key, .scalar .plain entry.key, .value, .scalar .plain entry.value]

def isPlain (entry : Entry) : Bool := isKey entry.key && isWord entry.value.toList

end Entry

/-- A key with a mapping of at least one entry. -/
structure Section where
  name : String
  first : Entry
  others : List Entry

namespace Section

def entries (part : Section) : List Entry := part.first :: part.others

def text (part : Section) : List Char :=
  part.name.toList ++ ':' :: '\n' :: part.entries.flatMap Entry.text

/-- The tokens up to the end of the mapping, which is found behind it. -/
def opened (part : Section) : List Token :=
  [.key, .scalar .plain part.name, .value, .blockMap] ++ part.entries.flatMap Entry.tokens

def tokens (part : Section) : List Token := part.opened ++ [.blockEnd]

def isPlain (part : Section) : Bool := isKey part.name && part.entries.all Entry.isPlain

/-- The number of rounds in which a section is scanned. -/
def rounds (part : Section) : Nat := 2 + 3 * part.entries.length

def roundsAll : List Section → Nat
  | [] => 0
  | part :: others => part.rounds + roundsAll others

end Section

namespace Layout

open Placed
open Plain (Indented)

variable {line rounds indent : Nat} {tokens : List Token} {indents : List Nat}
  {text : List Char}

/-- **An entry** takes three rounds. -/
theorem addTokens_entry {entry : Entry} (plain : entry.isPlain = true) {opening : List Token}
    (inside : ∀ indent ∈ indents.head?, indent ≤ 2)
    (opens : keyed tokens indents 2 entry.key.toList
      = valued (tokens ++ opening ++ [.key, .scalar .plain entry.key, .value]) [2, 0])
    (indented : Indented indent text) (left : indent ≤ 2) :
    addTokens (rounds + 4) (between tokens indents) (place line 0 (entry.text ++ text))
      = addTokens (rounds + 1) (between (tokens ++ opening ++ entry.tokens) [2, 0])
          (place (line + 1) 0 text) := by
  simp only [Entry.isPlain, isKey, Bool.and_eq_true, decide_eq_true_eq] at plain
  obtain ⟨⟨key, short⟩, value⟩ := plain
  have spelled : entry.text ++ text = List.replicate 2 ' '
      ++ (entry.key.toList ++ ':' :: ' ' :: (entry.value.toList ++ '\n' :: text)) := by
    simp [Entry.text]
  rw [spelled, addTokens_blanks, addTokens_key key short (closeTo_of_le inside) inside rfl, opens,
    addTokens_value value (by omega) indented left]
  simp [Entry.tokens]

theorem exists_mark_of_entry {entry : Entry} (plain : entry.isPlain = true) (text : List Char) :
    ∃ character rest, isWordMark character = true
      ∧ entry.text ++ text = List.replicate 2 ' ' ++ character :: rest := by
  simp only [Entry.isPlain, isKey, Bool.and_eq_true] at plain
  obtain ⟨character, others, key⟩ : ∃ character others, entry.key.toList = character :: others :=
    List.exists_cons_of_ne_nil fun empty => by
      rw [empty] at plain
      cases plain.1.1
  refine ⟨character, others ++ ':' :: ' ' :: (entry.value.toList ++ '\n' :: text),
    isWordMark_of_head? plain.1.1 [] character (by rw [key]; rfl), ?_⟩
  simp [Entry.text, key]

/-- Behind the colon after the name of a section its entries follow on the next line. -/
theorem addTokens_lineEnd_entry {column : Nat} {entry : Entry} (plain : entry.isPlain = true) :
    addTokens (rounds + 1) (valued tokens indents)
        (place line column ('\n' :: (entry.text ++ text)))
      = addTokens (rounds + 1) (between tokens indents)
          (place (line + 1) 0 (entry.text ++ text)) := by
  obtain ⟨character, rest, mark, start⟩ := exists_mark_of_entry plain text
  rw [start, addTokens_lineEnd rfl mark, addTokens_blanks, Nat.zero_add]
  rfl

theorem indented_entries {entries : List Entry} (plain : entries.all Entry.isPlain = true)
    (indented : Indented indent text) (left : indent ≤ 2) :
    ∃ indent, Indented indent (entries.flatMap Entry.text ++ text) ∧ indent ≤ 2 := by
  cases entries with
  | nil => exact ⟨indent, indented, left⟩
  | cons entry others =>
      refine ⟨2, ?_, Nat.le_refl 2⟩
      rw [List.flatMap_cons, List.append_assoc]
      obtain ⟨character, rest, mark, spelled⟩ :=
        exists_mark_of_entry (Bool.and_eq_true_iff.1 plain).1
          (others.flatMap Entry.text ++ text)
      refine ⟨character :: rest, spelled, ?_⟩
      rintro _ ⟨⟩
      exact mark

/-- **Entries** of a mapping that has begun. -/
theorem addTokens_entries {entries : List Entry} (plain : entries.all Entry.isPlain = true)
    (indented : Indented indent text) (left : indent ≤ 2) :
    addTokens (rounds + 1 + 3 * entries.length) (between tokens [2, 0])
        (place line 0 (entries.flatMap Entry.text ++ text))
      = addTokens (rounds + 1) (between (tokens ++ entries.flatMap Entry.tokens) [2, 0])
          (place (line + entries.length) 0 text) := by
  induction entries generalizing tokens line with
  | nil => simp
  | cons entry others further =>
      obtain ⟨first, rest⟩ := Bool.and_eq_true_iff.1 plain
      obtain ⟨next, later, within⟩ := indented_entries rest indented left
      have opens : keyed tokens [2, 0] 2 entry.key.toList
          = valued (tokens ++ [] ++ [.key, .scalar .plain entry.key, .value]) [2, 0] := by
        simp [keyed, floor, between]
      have count : rounds + 1 + 3 * (entry :: others).length
          = rounds + 3 * others.length + 4 := by
        rw [List.length_cons]
        omega
      rw [count, List.flatMap_cons, List.append_assoc,
        addTokens_entry first (by simp) opens later within, Nat.add_right_comm, further rest,
        List.append_nil, List.flatMap_cons, List.append_assoc, List.length_cons, Nat.add_assoc,
        Nat.add_comm 1]

/-- **A section** takes its rounds. It begins the outer mapping, or ends the section before. -/
theorem addTokens_section {part : Section} (plain : part.isPlain = true) {opening : List Token}
    {reached : List Token} {inner : List Nat}
    (closes : (between tokens indents).closeTo 0 = between reached inner)
    (inside : ∀ indent ∈ inner.head?, indent ≤ 0)
    (opens : keyed reached inner 0 part.name.toList
      = valued (tokens ++ opening ++ [.key, .scalar .plain part.name, .value]) [0])
    (indented : Indented indent text) (left : indent ≤ 2) :
    ∃ next, addTokens (rounds + 1 + part.rounds) (between tokens indents)
        (place line 0 (part.text ++ text))
      = addTokens (rounds + 1) (between (tokens ++ opening ++ part.opened) [2, 0])
          (place next 0 text) := by
  simp only [Section.isPlain, isKey, Bool.and_eq_true, decide_eq_true_eq] at plain
  obtain ⟨⟨name, short⟩, entries⟩ := plain
  obtain ⟨first, others⟩ := Bool.and_eq_true_iff.1 entries
  obtain ⟨next, later, within⟩ := indented_entries others indented left
  have count : rounds + 1 + part.rounds = rounds + 3 * part.others.length + 4 + 2 := by
    rw [Section.rounds, Section.entries, List.length_cons]
    omega
  have spelled : part.text ++ text = part.name.toList ++ ':' :: '\n' ::
      (part.first.text ++ (part.others.flatMap Entry.text ++ text)) := by
    simp [Section.text, Section.entries]
  have nested : keyed (tokens ++ opening ++ [.key, .scalar .plain part.name, .value]) [0] 2
        part.first.key.toList
      = valued (tokens ++ opening ++ [.key, .scalar .plain part.name, .value] ++ [.blockMap]
          ++ [.key, .scalar .plain part.first.key, .value]) [2, 0] := by
    simp [keyed, floor, between]
  refine ⟨line + 1 + 1 + part.others.length, ?_⟩
  rw [count, spelled, addTokens_key name short closes inside rfl, opens,
    addTokens_lineEnd_entry first, addTokens_entry first (by simp) nested later within,
    Nat.add_right_comm, addTokens_entries others indented left]
  simp [Section.opened, Section.entries, Entry.tokens]

theorem indented_sections {parts : List Section} (plain : parts.all Section.isPlain = true) :
    Indented 0 (parts.flatMap Section.text) := by
  cases parts with
  | nil => exact ⟨[], rfl, nofun⟩
  | cons part others =>
      have first := (Bool.and_eq_true_iff.1 plain).1
      simp only [Section.isPlain, isKey, Bool.and_eq_true] at first
      rw [List.flatMap_cons, Section.text, List.append_assoc]
      exact ⟨_, rfl, isWordMark_of_head? first.1.1 _⟩

/-- **Sections** behind another one. -/
theorem addTokens_sections {parts : List Section} (plain : parts.all Section.isPlain = true) :
    addTokens (rounds + 1 + Section.roundsAll parts) (between tokens [2, 0])
        (place line 0 (parts.flatMap Section.text))
      = addTokens (rounds + 1)
          (between (tokens ++ parts.flatMap fun part => .blockEnd :: part.opened) [2, 0]) [] := by
  induction parts generalizing tokens line with
  | nil => simp [place, Section.roundsAll]
  | cons part others further =>
      obtain ⟨first, rest⟩ := Bool.and_eq_true_iff.1 plain
      have indented : Indented 0 (others.flatMap Section.text) := indented_sections rest
      have closes : (between tokens [2, 0]).closeTo 0 = between (tokens ++ [.blockEnd]) [0] := by
        simp [closeTo_between]
      have opens : keyed (tokens ++ [.blockEnd]) [0] 0 part.name.toList
          = valued (tokens ++ [.blockEnd] ++ [.key, .scalar .plain part.name, .value]) [0] := by
        simp [keyed, floor, between]
      have count : rounds + 1 + Section.roundsAll (part :: others)
          = rounds + Section.roundsAll others + 1 + part.rounds := by
        rw [Section.roundsAll]
        omega
      obtain ⟨next, taken⟩ := addTokens_section first closes (by simp) opens indented (by omega)
      rw [count, List.flatMap_cons, taken, Nat.add_right_comm, further rest]
      simp

end Layout

/-! ## Whole texts -/

/-- Whether a character may stand in a text of sections. -/
def isTextMark (character : Char) : Bool :=
  isWordMark character || [' ', ':', '\n'].contains character

theorem all_isTextMark_of_isWord {word : List Char} (plain : isWord word = true) :
    word.all isTextMark = true := by
  apply List.all_eq_true.2
  intro character listed
  rw [isTextMark, List.all_eq_true.1 (Bool.and_eq_true_iff.1 plain).2 character listed,
    Bool.true_or]

theorem Entry.all_isTextMark {entry : Entry} (plain : entry.isPlain = true) :
    entry.text.all isTextMark = true := by
  simp only [isPlain, isKey, Bool.and_eq_true] at plain
  simp [text, all_isTextMark_of_isWord plain.1.1, all_isTextMark_of_isWord plain.2, isTextMark]

theorem Section.all_isTextMark {part : Section} (plain : part.isPlain = true) :
    part.text.all isTextMark = true := by
  simp only [isPlain, isKey, Bool.and_eq_true] at plain
  have lines : (part.entries.flatMap Entry.text).all isTextMark = true := by
    rw [List.all_flatMap, List.all_eq_true]
    intro entry listed
    exact Entry.all_isTextMark (List.all_eq_true.1 plain.2 entry listed)
  simp [text, all_isTextMark_of_isWord plain.1.1, lines, isTextMark]

/-- A section has more characters than it takes rounds. -/
theorem Section.rounds_le_length (part : Section) : part.rounds ≤ part.text.length := by
  have lines : ∀ entries : List Entry,
      3 * entries.length ≤ (entries.flatMap Entry.text).length := by
    intro entries
    induction entries with
    | nil => exact Nat.le_refl 0
    | cons entry others further =>
        simp only [List.flatMap_cons, List.length_append, List.length_cons, Entry.text]
        omega
  have inside := lines part.entries
  simp only [rounds, text, List.length_append, List.length_cons]
  omega

theorem Section.roundsAll_le_length (parts : List Section) :
    roundsAll parts ≤ (parts.flatMap text).length := by
  induction parts with
  | nil => exact Nat.le_refl 0
  | cons part others further =>
      have here := part.rounds_le_length
      rw [roundsAll, List.flatMap_cons, List.length_append]
      omega

theorem cases_of_isTextMark {character : Char} (mark : isTextMark character = true) :
    isWordMark character = true ∨ character = ' ' ∨ character = ':' ∨ character = '\n' := by
  simpa [isTextMark] using mark

namespace Placed

theorem length_place (line column : Nat) (characters : List Char) :
    (place line column characters).length = characters.length := by
  induction characters generalizing line column with
  | nil => rfl
  | cons character rest further =>
      by_cases ends : character = '\n' <;> simp [place, ends, further]

theorem unifyLines_of_marks {characters : List Char}
    (marks : characters.all isTextMark = true) : unifyLines characters = characters := by
  induction characters with
  | nil => rfl
  | cons character rest further =>
      obtain ⟨mark, others⟩ := Bool.and_eq_true_iff.1 marks
      have other : character ≠ '\r' := by
        rintro rfl
        cases mark
      have kept : (if isLineEnd character then '\n' else character) = character := by
        rcases cases_of_isTextMark mark with word | rfl | rfl | rfl
        · rw [isLineEnd_of_isWordMark word]
          rfl
        · rfl
        · rfl
        · rfl
      rw [unifyLines, kept, further others]
      intro _ carriage
      exact absurd carriage other

/-- The characters of such a text are all read, each as it is. -/
theorem ofText_of_marks {text : String} (marks : text.toList.all isTextMark = true) :
    ofText text = some (place 0 0 text.toList) := by
  have allowed : text.toList.all isAllowed = true := by
    apply List.all_eq_true.2
    intro character listed
    rcases cases_of_isTextMark (List.all_eq_true.1 marks character listed) with
      word | rfl | rfl | rfl
    · exact isAllowed_of_isWordMark word
    · rfl
    · rfl
    · rfl
  rw [ofText, allowed, unifyLines_of_marks marks]
  cases characters : text.toList with
  | nil => rfl
  | cons character rest =>
      have other : character ≠ '\ufeff' := by
        rintro rfl
        rw [characters] at marks
        cases (Bool.and_eq_true_iff.1 marks).1
      simp [place, other]

end Placed

/-- The end of one section is told by the next one, or by the end of the text. -/
theorem Section.flatMap_tokens (parts : List Section) :
    .blockEnd :: parts.flatMap tokens
      = parts.flatMap (fun part => .blockEnd :: part.opened) ++ [.blockEnd] := by
  induction parts with
  | nil => rfl
  | cons part others further =>
      rw [List.flatMap_cons, List.flatMap_cons, List.append_assoc, ← further]
      simp [tokens]

/-- **A text of sections** is cut into the tokens of its mappings. -/
theorem Token.scan_sections {text : String} {first : Section} {others : List Section}
    (plain : (first :: others).all Section.isPlain = true)
    (spelled : text.toList = (first :: others).flatMap Section.text) :
    Token.scan text
      = some (.blockMap :: ((first :: others).flatMap Section.tokens ++ [.blockEnd])) := by
  obtain ⟨begins, rest⟩ := Bool.and_eq_true_iff.1 plain
  have marks : text.toList.all isTextMark = true := by
    rw [spelled, List.all_flatMap, List.all_eq_true]
    intro part listed
    exact Section.all_isTextMark (List.all_eq_true.1 plain part listed)
  have enough : Section.roundsAll (first :: others) ≤ text.toList.length := by
    rw [spelled]
    exact Section.roundsAll_le_length (first :: others)
  obtain ⟨spare, count⟩ : ∃ spare, (Placed.place 0 0 text.toList).length + 1
      = spare + Section.roundsAll others + 1 + first.rounds := by
    rw [Section.roundsAll] at enough
    rw [Placed.length_place]
    exact ⟨text.toList.length - (first.rounds + Section.roundsAll others), by omega⟩
  have opens : Layout.keyed [] [] 0 first.name.toList
      = Layout.valued ([] ++ [.blockMap] ++ [.key, .scalar .plain first.name, .value]) [0] := by
    simp [Layout.keyed, Layout.floor, Layout.between]
  have closes : (Layout.between [] []).closeTo 0 = Layout.between [] [] := rfl
  obtain ⟨next, taken⟩ := Layout.addTokens_section begins closes (by simp) opens
    (Layout.indented_sections rest) (by omega)
  have ends (tokens : List Token) :
      Layout.addTokens (spare + 1) (Layout.between tokens [2, 0]) []
        = some (Layout.between (tokens ++ [.blockEnd, .blockEnd]) []) := by
    simp [Layout.addTokens, Layout.skipGap, Layout.closeAll, Layout.close, Layout.inFlow,
      Layout.dropCandidate, Layout.between]
  rw [scan, Placed.ofText_of_marks marks]
  change (Layout.addTokens _ (Layout.between [] []) _).bind _ = _
  rw [count, spelled, List.flatMap_cons, taken, Nat.add_right_comm,
    Layout.addTokens_sections rest, ends]
  have told : [.blockMap] ++ first.opened ++ others.flatMap (fun part => .blockEnd :: part.opened)
        ++ [.blockEnd, .blockEnd]
      = .blockMap :: (first.opened ++ (.blockEnd :: others.flatMap Section.tokens)
        ++ [.blockEnd]) := by
    simp [Section.flatMap_tokens others]
  simp only [Option.bind_some, Layout.between, List.reverse_reverse, Option.pure_def,
    List.nil_append, told]
  simp [Section.tokens]

end LdapWire.Yaml
