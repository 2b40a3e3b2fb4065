import LdapWire.Proofs.Filter.Phrase
import LdapWire.Proofs.Filter.Replay

/-!
# Filters told apart by their string forms

Two legible filters with the same string form are the same filter
(`Filter.toText_eq_iff`), however deep they are nested and whatever octets their values hold.

A filter is written by writing the moves of its walk one after another
(`Filter.flatMap_word_walk`): a parenthesis and a sign where a connective is opened, a
parenthesis where it is closed, and the phrase of a leaf. These words form a prefix code
(`FilterBuilder.Move.word_append_inj`), so the string form tells the walk, and the walk tells
the filter.
-/

set_option autoImplicit false

namespace LdapWire

open Filter.Text (Phrase)

/-! ## The words of a walk -/

namespace FilterBuilder.Move

/-- The sign of a connective. -/
def symbol : Connective → Char
  | .and => '&'
  | .or => '|'
  | .not => '!'

/-- What is written for a move of a walk. -/
def word : Move → List Char
  | .opening connective => ['(', symbol connective]
  | .closing => [')']
  | .adding leaf => leaf.toChars
  | .replacing _ => []

/-- Whether the word of a move can be told from others: a leaf is added that is legible and no
connective, or a connective is opened or closed. -/
def Clear : Move → Prop
  | .opening _ | .closing => True
  | .adding leaf => leaf.Legible ∧ ∃ phrase, leaf.phrase = some phrase
  | .replacing _ => False

theorem symbol_injective {connective other : Connective} (same : symbol connective = symbol other) :
    connective = other := by
  revert same
  cases connective <;> cases other <;> decide

theorem word_adding {leaf : Filter} {phrase : Phrase} (written : leaf.phrase = some phrase) :
    word (.adding leaf) = phrase.toChars :=
  Filter.toChars_of_phrase written

/-- **The words of moves form a prefix code.** -/
theorem word_append_inj {move other : Move} (clear : move.Clear) (otherClear : other.Clear)
    {rest further : List Char} (same : move.word ++ rest = other.word ++ further) :
    move = other ∧ rest = further := by
  have leafOpens : ∀ {leaf connective ending beyond}, Clear (.adding leaf) →
      word (.adding leaf) ++ ending ≠ word (.opening connective) ++ beyond := by
    rintro leaf connective ending beyond ⟨legible, phrase, written⟩
    rw [word_adding written]
    exact (Filter.sound_of_phrase legible written).toChars_append_ne
      (by cases connective <;> decide) (by cases connective <;> decide)
  have leafCloses : ∀ {leaf ending beyond}, Clear (.adding leaf) →
      word (.adding leaf) ++ ending ≠ word .closing ++ beyond := by
    rintro leaf ending beyond ⟨_, phrase, written⟩ equal
    rw [word_adding written] at equal
    exact absurd (List.cons.inj equal).1 (by decide)
  cases move with
  | replacing _ => exact clear.elim
  | opening connective =>
      cases other with
      | replacing _ => exact otherClear.elim
      | opening second =>
          obtain ⟨sign, behind⟩ := List.cons.inj (List.cons.inj same).2
          exact ⟨congrArg opening (symbol_injective sign), behind⟩
      | closing => exact absurd (List.cons.inj same).1 (by decide)
      | adding leaf => exact absurd same.symm (leafOpens otherClear)
  | closing =>
      cases other with
      | replacing _ => exact otherClear.elim
      | opening second => exact absurd (List.cons.inj same).1 (by decide)
      | closing => exact ⟨rfl, (List.cons.inj same).2⟩
      | adding leaf => exact absurd same.symm (leafCloses otherClear)
  | adding leaf =>
      cases other with
      | replacing _ => exact otherClear.elim
      | opening second => exact absurd same (leafOpens clear)
      | closing => exact absurd same (leafCloses clear)
      | adding second =>
          obtain ⟨legible, phrase, written⟩ := clear
          obtain ⟨otherLegible, otherPhrase, otherWritten⟩ := otherClear
          rw [word_adding written, word_adding otherWritten] at same
          obtain ⟨rfl, behind⟩ :=
            (Filter.sound_of_phrase legible written).toChars_append_inj
              (Filter.sound_of_phrase otherLegible otherWritten) same
          exact ⟨congrArg adding (Filter.phrase_inj legible otherLegible written otherWritten),
            behind⟩

theorem word_ne_nil {move : Move} (clear : move.Clear) : move.word ≠ [] := by
  cases move with
  | replacing _ => exact clear.elim
  | opening connective => exact List.cons_ne_nil _ _
  | closing => exact List.cons_ne_nil _ _
  | adding leaf =>
      obtain ⟨_, phrase, written⟩ := clear
      rw [word_adding written]
      exact List.cons_ne_nil _ _

end FilterBuilder.Move

namespace Filter

open FilterBuilder.Move (word Clear)

mutual

/-- A filter is written by writing the moves of its walk. -/
theorem flatMap_word_walk : ∀ filter : Filter, filter.sketch.walk.flatMap word = filter.toChars
  | .and children | .or children => by
      have inside := flatMap_word_walkAll children
      simp only [sketch, Sketch.walk, List.flatMap_cons, List.flatMap_append, inside, toChars]
      rfl
  | .not child => by
      have inside := flatMap_word_walk child
      simp only [sketch, Sketch.walk, Sketch.walkAll, List.flatMap_cons, List.flatMap_append,
        List.append_nil, inside, toChars]
      rfl
  | .compare .. | .substrings _ | .present _ | .extensible _ => List.append_nil _

theorem flatMap_word_walkAll :
    ∀ filters : List Filter, (Sketch.walkAll (sketchAll filters)).flatMap word = toCharsAll filters
  | [] => rfl
  | filter :: rest => by
      rw [sketchAll, Sketch.walkAll, List.flatMap_append, flatMap_word_walk filter,
        flatMap_word_walkAll rest, toCharsAll]

end

/-- Opening and closing a connective can be told from what is inside it. -/
theorem clear_branch {connective : Connective} {children : List Sketch}
    (inside : ∀ move ∈ Sketch.walkAll children, move.Clear) :
    ∀ move ∈ (Sketch.branch connective children).walk, move.Clear := by
  intro move listed
  simp only [Sketch.walk, List.mem_cons, List.mem_append, List.not_mem_nil, or_false] at listed
  rcases listed with rfl | child | rfl
  · trivial
  · exact inside move child
  · trivial

mutual

/-- The moves of the walk of a legible filter can be told by their words. -/
theorem Legible.clear : ∀ {filter : Filter}, filter.Legible →
    ∀ move ∈ filter.sketch.walk, move.Clear
  | .and _, legible | .or _, legible => clear_branch (AllLegible.clear legible)
  | .not child, legible => by
      have inside : child.Legible := legible
      refine clear_branch fun move listed => Legible.clear inside move ?_
      simpa [Sketch.walkAll] using listed
  | .compare .., legible | .substrings _, legible | .present _, legible
  | .extensible _, legible => by
      rintro move listed
      rw [List.mem_singleton.1 listed]
      exact ⟨legible, _, rfl⟩

theorem AllLegible.clear : ∀ {filters : List Filter}, AllLegible filters →
    ∀ move ∈ Sketch.walkAll (sketchAll filters), move.Clear
  | [], _ => fun _ listed => nomatch listed
  | filter :: rest, ⟨first, others⟩ => by
      intro move listed
      rcases List.mem_append.1 listed with here | later
      · exact Legible.clear first move here
      · exact AllLegible.clear others move later

end

/-- **The string form tells the filter.** Legible filters with the same string form are the
same. No octet of a value stands as a parenthesis or an asterisk in its text, and a backslash
there begins the escape of an octet that does not stand for itself. -/
theorem toText_eq_iff {filter other : Filter} (legible : filter.Legible)
    (otherLegible : other.Legible) :
    (filter.toText = other.toText ↔ filter = other)
    ∧ ∀ content : Bytes,
      (∀ sign ∈ ['(', ')', '*'], sign ∉ Text.value content)
      ∧ ∀ before after, Text.value content = before ++ '\\' :: after →
        ∃ front byte back, content = front ++ byte :: back ∧ Text.isPlain byte = false
          ∧ before = Text.value front ∧ after = Text.Hex.byte byte ++ Text.value back := by
  refine ⟨⟨fun same => ?_, congrArg toText⟩, fun content => ⟨?_, ?_⟩⟩
  · have spelled := String.ofList_inj.1 same
    rw [← flatMap_word_walk filter, ← flatMap_word_walk other] at spelled
    have walked := Text.flatMap_inj_of_code FilterBuilder.Move.word_ne_nil
      FilterBuilder.Move.word_append_inj legible.clear otherLegible.clear spelled
    exact sketch_injective (Sketch.walk_injective walked)
  · exact fun sign kept => Text.notMem_value_of_reserved kept content
  · exact fun before after found => Text.exists_of_value_eq_append found

/-- An asterisk in a value and the asterisk of the test for presence, deep inside a filter. -/
theorem toText_eq_iff_asterisk :
    (Filter.and [.compare .equality ⟨"cn", [0x2A]⟩, .not (.present "sn")]).Legible
    ∧ (Filter.and [.present "cn", .not (.present "sn")]).Legible
    ∧ (Filter.and [.compare .equality ⟨"cn", [0x2A]⟩, .not (.present "sn")]).toText
        ≠ (Filter.and [.present "cn", .not (.present "sn")]).toText := by
  have literal :
      (Filter.and [.compare .equality ⟨"cn", [0x2A]⟩, .not (.present "sn")]).Legible := by
    decide
  have present : (Filter.and [.present "cn", .not (.present "sn")]).Legible := by decide
  refine ⟨literal, present, fun same => ?_⟩
  exact absurd ((toText_eq_iff literal present).1.1 same) (by decide)

end Filter

end LdapWire
