import LdapWire.Proofs.Filter.Value

/-!
# Leaves of a filter in sections and parts

A filter that holds no others is written as a `Phrase`: sections joined by colons, an equals
sign, and values joined by asterisks, all in parentheses. A comparison has one section and one
value, the test for presence is a pattern whose two values are empty, and an extensible match
has a section for each of its fields and an empty one at the end.

If the names in a leaf are words of letters, digits, hyphens, dots and semicolons, its phrase
can be cut out of any text that begins with it (`Phrase.Sound.toChars_append_inj`). A legible
leaf is read back from its phrase (`Filter.filter_of_phrase`).
-/

set_option autoImplicit false

namespace LdapWire

open Text (eq_or_mem_of_mem_intercalate intercalate_inj append_cons_inj_of_first)

namespace Filter.Text

/-! ## Phrases -/

/-- A leaf as it is written: sections before the first equals sign, values behind it. -/
structure Phrase where
  sections : List (List Char)
  parts : List Bytes

namespace Phrase

def heading (phrase : Phrase) : List Char := [':'].intercalate phrase.sections

def body (phrase : Phrase) : List Char := ['*'].intercalate (phrase.parts.map value)

def toChars (phrase : Phrase) : List Char := '(' :: phrase.heading ++ '=' :: phrase.body ++ [')']

/-- The signs that no section holds. -/
def signs : List Char := ['(', ')', '&', '|', '!', '=', ':']

/-- Whether a phrase can be read: both sides of the equals sign have a part, and no section
holds a sign that ends it. -/
structure Sound (phrase : Phrase) : Prop where
  headed : phrase.sections ≠ []
  plain : ∀ piece ∈ phrase.sections, ∀ sign ∈ signs, sign ∉ piece
  filled : phrase.parts ≠ []

variable {phrase other : Phrase}

theorem Sound.notMem_heading (sound : phrase.Sound) {sign : Char} (kept : sign ∈ signs)
    (between : sign ≠ ':') : sign ∉ phrase.heading := by
  intro held
  rcases eq_or_mem_of_mem_intercalate held with colon | ⟨piece, listed, inside⟩
  · exact between colon
  · exact sound.plain piece listed sign kept inside

theorem notMem_body (phrase : Phrase) : ')' ∉ phrase.body := by
  intro held
  rcases eq_or_mem_of_mem_intercalate held with asterisk | ⟨piece, listed, inside⟩
  · exact absurd asterisk (by decide)
  · obtain ⟨content, _, rfl⟩ := List.mem_map.1 listed
    exact notMem_value_of_reserved (by decide) content inside

theorem Sound.sections_inj (sound : phrase.Sound) (otherSound : other.Sound)
    (same : phrase.heading = other.heading) : phrase.sections = other.sections :=
  intercalate_inj (fun piece listed => sound.plain piece listed ':' (by decide)) sound.headed
    (fun piece listed => otherSound.plain piece listed ':' (by decide)) otherSound.headed same

theorem Sound.parts_inj (sound : phrase.Sound) (otherSound : other.Sound)
    (same : phrase.body = other.body) : phrase.parts = other.parts := by
  have unstarred : ∀ parts : List Bytes, ∀ piece ∈ parts.map value, '*' ∉ piece := by
    intro parts piece listed
    obtain ⟨content, _, rfl⟩ := List.mem_map.1 listed
    exact notMem_value_of_reserved (by decide) content
  have spelled := intercalate_inj (unstarred _) (by simpa using sound.filled) (unstarred _)
    (by simpa using otherSound.filled) same
  exact (List.map_inj_right fun _ _ => value_injective).1 spelled

/-- **A phrase is told by its characters**, whatever comes after them. -/
theorem Sound.toChars_append_inj (sound : phrase.Sound) (otherSound : other.Sound)
    {rest further : List Char} (same : phrase.toChars ++ rest = other.toChars ++ further) :
    phrase = other ∧ rest = further := by
  simp only [toChars, List.cons_append, List.append_assoc, List.nil_append, List.cons.injEq,
    true_and] at same
  obtain ⟨heading, behind⟩ := append_cons_inj_of_first
    (sound.notMem_heading (by decide) (by decide))
    (otherSound.notMem_heading (by decide) (by decide)) same
  obtain ⟨body, left⟩ := append_cons_inj_of_first phrase.notMem_body other.notMem_body behind
  have sections := sound.sections_inj otherSound heading
  have parts := sound.parts_inj otherSound body
  cases phrase
  cases other
  cases sections
  cases parts
  exact ⟨rfl, left⟩

/-- A phrase does not begin as a connective does. -/
theorem Sound.toChars_append_ne (sound : phrase.Sound) {sign : Char} (kept : sign ∈ signs)
    (connective : sign ∈ ['&', '|', '!']) {rest further : List Char} :
    phrase.toChars ++ rest ≠ '(' :: sign :: further := by
  intro same
  have apart := sound.notMem_heading kept (by rintro rfl; simp at connective)
  simp only [toChars, List.cons_append, List.append_assoc, List.nil_append, List.cons.injEq,
    true_and] at same
  cases heading : phrase.heading with
  | nil =>
      rw [heading] at same
      obtain ⟨rfl, _⟩ := List.cons.inj same
      simp at connective
  | cons first others =>
      rw [heading] at same apart
      obtain ⟨rfl, _⟩ := List.cons.inj same
      exact apart List.mem_cons_self

end Phrase

/-- The characters of names. -/
def isNameCharacter (character : Char) : Bool :=
  character.isAlphanum || character == '-' || character == '.' || character == ';'

/-- Whether a text is a name: it is not empty and consists of ASCII letters, digits, hyphens,
dots and semicolons. -/
def IsName (text : String) : Prop :=
  text ≠ "" ∧ ∀ character ∈ text.toList, isNameCharacter character = true

instance (text : String) : Decidable (IsName text) :=
  decidable_of_iff (text ≠ "" ∧ text.toList.all isNameCharacter)
    (and_congr_right fun _ => List.all_eq_true)

theorem IsName.notMem {text : String} (name : IsName text) {sign : Char}
    (other : isNameCharacter sign = false) : sign ∉ text.toList := by
  intro held
  rw [name.2 sign held] at other
  cases other

end Filter.Text

open Filter.Text (Phrase IsName isNameCharacter value sign)

namespace Filter

/-! ## Legible filters -/

mutual

/-- Whether a filter can be read from its string form: every attribute description and every
matching rule is a name, the rule is not the word `dn`, and a pattern has a part, with none
that is empty at either end. -/
def Legible : Filter → Prop
  | .and children | .or children => AllLegible children
  | .not child => Legible child
  | .compare _ assertion => IsName assertion.description
  | .substrings pattern =>
      IsName pattern.description
        ∧ (pattern.initial ≠ none ∨ pattern.any ≠ [] ∨ pattern.final ≠ none)
        ∧ pattern.initial ≠ some [] ∧ pattern.final ≠ some []
  | .present description => IsName description
  | .extensible condition =>
      (∀ description ∈ condition.description, IsName description)
        ∧ ∀ rule ∈ condition.rule, IsName rule ∧ rule ≠ "dn"

def AllLegible : List Filter → Prop
  | [] => True
  | filter :: rest => Legible filter ∧ AllLegible rest

end

mutual

/-- Decides whether a filter is legible. -/
def decideLegible : (filter : Filter) → Decidable filter.Legible
  | .and children | .or children => decideAllLegible children
  | .not child => decideLegible child
  | .compare _ assertion => inferInstanceAs (Decidable (IsName assertion.description))
  | .substrings pattern => inferInstanceAs (Decidable (IsName pattern.description ∧ _ ∧ _ ∧ _))
  | .present description => inferInstanceAs (Decidable (IsName description))
  | .extensible condition =>
      inferInstanceAs (Decidable ((∀ description ∈ condition.description, IsName description)
        ∧ ∀ rule ∈ condition.rule, IsName rule ∧ rule ≠ "dn"))

def decideAllLegible : (filters : List Filter) → Decidable (AllLegible filters)
  | [] => .isTrue trivial
  | filter :: rest =>
      match decideLegible filter, decideAllLegible rest with
      | .isTrue first, .isTrue others => .isTrue ⟨first, others⟩
      | .isFalse illegible, _ => .isFalse fun legible => illegible legible.1
      | _, .isFalse illegible => .isFalse fun legible => illegible legible.2

end

instance (filter : Filter) : Decidable filter.Legible := decideLegible filter

/-- A leaf in sections and parts. -/
def phrase : Filter → Option Phrase
  | .and _ | .or _ | .not _ => none
  | .compare comparison assertion =>
      some ⟨[assertion.description.toList ++ (sign comparison).dropLast], [assertion.value]⟩
  | .substrings pattern =>
      some ⟨[pattern.description.toList],
        pattern.initial.getD [] :: (pattern.any ++ [pattern.final.getD []])⟩
  | .present description => some ⟨[description.toList], [[], []]⟩
  | .extensible condition =>
      some ⟨condition.description.elim [] String.toList
          :: ((if condition.dnAttributes then ["dn".toList] else [])
            ++ (condition.rule.toList.map String.toList ++ [[]])),
        [condition.value]⟩

/-- A pattern is written as its parts, joined by asterisks. -/
theorem value_append_any (first : Bytes) (any : List Bytes) (last : Bytes) :
    value first ++ '*' :: (any.flatMap (fun part => value part ++ ['*']) ++ value last)
      = ['*'].intercalate ((first :: (any ++ [last])).map value) := by
  induction any generalizing first with
  | nil => simp [List.intercalate_cons_cons]
  | cons next others further =>
      rw [List.flatMap_cons, List.append_assoc, List.append_assoc, List.singleton_append,
        further next, List.cons_append, List.map_cons, List.map_cons, List.map_cons,
        List.intercalate_cons_cons, List.append_assoc, List.singleton_append]

theorem toChars_of_phrase {filter : Filter} {phrase : Phrase}
    (written : filter.phrase = some phrase) : filter.toChars = phrase.toChars := by
  cases filter with
  | and _ | or _ | not _ => cases written
  | compare comparison assertion =>
      cases written
      cases comparison <;>
        simp [toChars, Text.assertion, sign, Phrase.toChars, Phrase.heading, Phrase.body]
  | substrings pattern =>
      cases written
      have parts := value_append_any (pattern.initial.getD []) pattern.any (pattern.final.getD [])
      have some : ∀ part : Option Bytes, part.elim [] value = value (part.getD []) := by
        intro part
        cases part <;> rfl
      simp only [toChars, Text.substrings, Phrase.toChars, Phrase.heading, Phrase.body, some,
        ← parts, List.intercalate_singleton]
      simp
  | present description =>
      cases written
      simp [toChars, Phrase.toChars, Phrase.heading, Phrase.body, List.intercalate_cons_cons, value]
  | extensible condition =>
      cases written
      obtain ⟨rule, description, content, dnAttributes⟩ := condition
      cases rule <;> cases dnAttributes <;>
        simp [toChars, Text.extensible, Phrase.toChars, Phrase.heading, Phrase.body,
          List.intercalate_cons_cons]

theorem not_isNameCharacter_of_mem_signs :
    ∀ sign ∈ Phrase.signs, isNameCharacter sign = false := by
  simp [Phrase.signs, isNameCharacter]

theorem sound_of_phrase {filter : Filter} {phrase : Phrase} (legible : filter.Legible)
    (written : filter.phrase = some phrase) : phrase.Sound := by
  have apart : ∀ {name : String}, IsName name → ∀ sign ∈ Phrase.signs, sign ∉ name.toList :=
    fun named sign kept => named.notMem (not_isNameCharacter_of_mem_signs sign kept)
  cases filter with
  | and _ | or _ | not _ => cases written
  | compare comparison assertion =>
      cases written
      refine ⟨by simp, ?_, by simp⟩
      intro piece listed mark kept held
      rw [List.mem_singleton.1 listed, List.mem_append] at held
      rcases held with description | relation
      · exact apart legible mark kept description
      · revert mark
        cases comparison <;> simp [Text.sign, Phrase.signs]
  | substrings pattern =>
      cases written
      refine ⟨by simp, ?_, by simp⟩
      rintro piece listed
      rw [List.mem_singleton.1 listed]
      exact apart legible.1
  | present description =>
      cases written
      refine ⟨by simp, ?_, by simp⟩
      rintro piece listed
      rw [List.mem_singleton.1 listed]
      exact apart legible
  | extensible condition =>
      cases written
      obtain ⟨rule, description, content, dnAttributes⟩ := condition
      refine ⟨by simp, ?_, by simp⟩
      simp only [List.mem_cons, List.mem_append, List.mem_map, Option.mem_toList, List.not_mem_nil,
        or_false]
      rintro piece (rfl | fixed | ⟨name, named, rfl⟩ | rfl)
      · cases description with
        | none => exact fun _ _ => List.not_mem_nil
        | some name => exact apart (legible.1 name rfl)
      · cases dnAttributes with
        | false => cases fixed
        | true =>
            rw [if_pos rfl, List.mem_singleton] at fixed
            rw [fixed]
            simp [Phrase.signs]
      · exact apart (legible.2 name named).1
      · exact fun _ _ => List.not_mem_nil

/-! ## Reading a phrase -/

namespace Text

/-- How a section that stands alone compares, told by what follows the name. -/
def comparison : List Char → Comparison
  | ['>'] => .greaterOrEqual
  | ['<'] => .lessOrEqual
  | ['~'] => .approx
  | _ => .equality

/-- A list that is absent if it is empty. -/
def given {α : Type} (items : List α) : Option (List α) :=
  if items.isEmpty then none else some items

/-- The leaf that a phrase spells. -/
def Phrase.filter (phrase : Phrase) : Filter :=
  match phrase.sections, phrase.parts with
  | [heading], [content] =>
      .compare (comparison (heading.dropWhile isNameCharacter))
        ⟨String.ofList (heading.takeWhile isNameCharacter), content⟩
  | [heading], first :: rest =>
      if first = [] ∧ rest = [[]] then .present (String.ofList heading)
      else
        .substrings {
          description := String.ofList heading
          initial := given first
          any := rest.dropLast
          final := given (rest.getLastD [])
        }
  | first :: rest, parts =>
      .extensible {
        rule := (rest.dropLast.filter (· ≠ "dn".toList)).head?.map String.ofList
        description := (given first).map String.ofList
        value := parts.headD []
        dnAttributes := rest.contains "dn".toList
      }
  | [], _ => .and []

end Text

theorem given_toList {name : String} (named : IsName name) :
    Text.given name.toList = some name.toList := by
  have some : name.toList.isEmpty = false := by simpa using named.1
  rw [Text.given, some]
  rfl

theorem given_getD {α : Type} {part : Option (List α)} (nonempty : part ≠ some []) :
    Text.given (part.getD []) = part := by
  cases part with
  | none => rfl
  | some items =>
      have present : items.isEmpty = false := by simpa using nonempty
      rw [Option.getD_some, Text.given, present]
      rfl

theorem getD_eq_nil_iff {α : Type} {part : Option (List α)} (nonempty : part ≠ some []) :
    part.getD [] = [] ↔ part = none := by
  cases part <;> simp_all

/-- A leaf is read back from its phrase. -/
theorem filter_of_phrase {filter : Filter} {phrase : Phrase} (legible : filter.Legible)
    (written : filter.phrase = some phrase) : phrase.filter = filter := by
  cases filter with
  | and _ | or _ | not _ => cases written
  | compare comparison assertion =>
      cases written
      have named : ∀ character ∈ assertion.description.toList, isNameCharacter character = true :=
        legible.2
      have relation : (sign comparison).dropLast.takeWhile isNameCharacter = []
          ∧ Text.comparison ((sign comparison).dropLast.dropWhile isNameCharacter)
            = comparison := by
        cases comparison <;> decide
      simp only [Phrase.filter, List.takeWhile_append_of_pos named,
        List.dropWhile_append_of_pos named, relation.1, relation.2, List.append_nil,
        String.ofList_toList]
  | substrings pattern =>
      obtain ⟨description, initial, any, final⟩ := pattern
      obtain ⟨_, some, front, back⟩ := legible
      cases written
      obtain ⟨next, others, several⟩ := List.exists_cons_of_ne_nil
        (List.append_ne_nil_of_right_ne_nil any (List.cons_ne_nil (final.getD []) []))
      have unlike : ¬ (initial.getD [] = [] ∧ any ++ [final.getD []] = [[]]) := by
        rintro ⟨vacant, alone⟩
        have single : any ++ [final.getD []] = [] ++ [[]] := alone
        obtain ⟨inner, ending⟩ := List.append_inj' single rfl
        rcases some with first | filled | last
        · exact first ((getD_eq_nil_iff front).1 vacant)
        · exact filled inner
        · exact last ((getD_eq_nil_iff back).1 (List.cons.inj ending).1)
      have cut : (any ++ [final.getD []]).dropLast = any := List.dropLast_concat
      have last : (any ++ [final.getD []]).getLastD [] = final.getD [] := by simp
      rw [several] at unlike cut last
      simp only [Phrase.filter, several, if_neg unlike, cut, last, given_getD front,
        given_getD back, String.ofList_toList]
  | present description =>
      cases written
      simp [Phrase.filter]
  | extensible condition =>
      cases written
      obtain ⟨rule, description, content, dnAttributes⟩ := condition
      obtain ⟨named, ruled⟩ := legible
      have first : (Text.given (description.elim [] String.toList)).map String.ofList
          = description := by
        cases description with
        | none => rfl
        | some name => simp [given_toList (named name rfl)]
      cases rule with
      | none => cases dnAttributes <;> simp [Phrase.filter, first]
      | some name =>
          have apart : name.toList ≠ ['d', 'n'] :=
            fun same => (ruled name rfl).2 (String.toList_inj.1 same)
          cases dnAttributes <;> simp [Phrase.filter, first, apart, Ne.symm apart]

theorem phrase_inj {filter other : Filter} {phrase : Phrase} (legible : filter.Legible)
    (otherLegible : other.Legible) (written : filter.phrase = some phrase)
    (otherWritten : other.phrase = some phrase) : filter = other :=
  (filter_of_phrase legible written).symm.trans (filter_of_phrase otherLegible otherWritten)

end Filter

end LdapWire
