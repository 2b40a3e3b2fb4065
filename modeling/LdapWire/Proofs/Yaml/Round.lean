import LdapWire.Yaml.Token

/-!
# Rounds of the scanner on words

A word is made of letters, digits and low lines alone (`isWord`), and so it is a plain scalar
wherever it stands. Between two lines all that counts of a layout are its tokens and the
columns of the open mappings (`Layout.between`). Two rounds take a key and the colon behind it
(`Layout.addTokens_key`), and another one a value (`Layout.addTokens_value`); each lemma about
a round tells the layout behind it and the characters that are left.
-/

set_option autoImplicit false

namespace LdapWire.Yaml

/-! ## Words -/

/-- Whether a character means nothing but itself wherever it stands. -/
def isWordMark (character : Char) : Bool := character.isAlphanum || character == '_'

/-- Whether a plain scalar can be written so wherever it stands. -/
def isWord (word : List Char) : Bool := !word.isEmpty && word.all isWordMark

section Marks

variable {character : Char}

theorem ne_of_isWordMark (mark : isWordMark character = true) {other : Char}
    (special : isWordMark other = false) : character ≠ other := by
  rintro rfl
  cases mark.symm.trans special

theorem toNat_of_range {least most : Char} (low : character.val ≥ least.val)
    (high : character.val ≤ most.val) :
    least.toNat ≤ character.toNat ∧ character.toNat ≤ most.toNat :=
  ⟨UInt32.le_iff_toNat_le.1 low, UInt32.le_iff_toNat_le.1 high⟩

theorem toNat_of_isWordMark (mark : isWordMark character = true) :
    0x30 ≤ character.toNat ∧ character.toNat ≤ 0x7A := by
  rcases Bool.or_eq_true_iff.1 mark with alphanumeric | lowLine
  · rcases Bool.or_eq_true_iff.1 alphanumeric with letter | digit
    · rcases Bool.or_eq_true_iff.1 letter with upper | lower
      · obtain ⟨low, high⟩ := of_decide_eq_true upper
        obtain ⟨low, high⟩ := toNat_of_range low high
        exact ⟨Nat.le_trans (by decide) low, Nat.le_trans high (by decide)⟩
      · obtain ⟨low, high⟩ := Bool.and_eq_true_iff.1 lower
        obtain ⟨low, high⟩ := toNat_of_range (of_decide_eq_true low) (of_decide_eq_true high)
        exact ⟨Nat.le_trans (by decide) low, Nat.le_trans high (by decide)⟩
    · obtain ⟨low, high⟩ := Char.isDigit_iff_toNat.1 digit
      exact ⟨low, Nat.le_trans high (by decide)⟩
  · obtain rfl := eq_of_beq lowLine
    decide

theorem isAllowed_of_isWordMark (mark : isWordMark character = true) :
    isAllowed character = true := by
  obtain ⟨low, high⟩ := toNat_of_isWordMark mark
  simp only [isAllowed, Bool.or_eq_true, Bool.and_eq_true, decide_eq_true_eq]
  omega

theorem isLineEnd_of_isWordMark (mark : isWordMark character = true) :
    isLineEnd character = false := by
  obtain ⟨low, high⟩ := toNat_of_isWordMark mark
  simp only [isLineEnd, List.contains_eq_mem, List.mem_cons, List.not_mem_nil, or_false,
    decide_eq_false_iff_not]
  omega

theorem isWordMark_of_head? {word : List Char} (plain : isWord word = true) (rest : List Char) :
    ∀ character ∈ (word ++ rest).head?, isWordMark character = true := by
  cases word with
  | nil => cases plain
  | cons character others =>
      rintro _ ⟨⟩
      exact (Bool.and_eq_true_iff.1 (Bool.and_eq_true_iff.1 plain).2).1

end Marks

/-! ## Characters with their places -/

namespace Placed

variable {line column : Nat} {character : Char} {rest : List Char}

theorem place_cons (other : character ≠ '\n') :
    place line column (character :: rest)
      = ⟨character, line, column⟩ :: place line (column + 1) rest := by
  simp [place, other]

theorem place_lineEnd :
    place line column ('\n' :: rest) = ⟨'\n', line, column⟩ :: place (line + 1) 0 rest := rfl

theorem isGap_of_isWordMark (mark : isWordMark character = true) :
    (⟨character, line, column⟩ : Placed).isGap = false := by
  have space : character ≠ ' ' := ne_of_isWordMark mark rfl
  have tab : character ≠ '\t' := ne_of_isWordMark mark rfl
  have lineEnd : character ≠ '\n' := ne_of_isWordMark mark rfl
  simp [isGap, isBlank, space, tab, lineEnd]

end Placed

/-! ## Plain scalars -/

namespace Plain

open Placed

variable {word rest : List Char} {floor line column : Nat}

/-- The characters of a word belong to the scalar. -/
theorem take_word (marks : word.all isWordMark = true) :
    take false floor {} (place line column (word ++ rest))
      = (take false floor {} (place line (column + word.length) rest)).map fun found =>
          { found with text := word ++ found.text } := by
  induction word generalizing column with
  | nil => simp
  | cons character word further =>
      obtain ⟨mark, others⟩ := Bool.and_eq_true_iff.1 marks
      have colon : character ≠ ':' := ne_of_isWordMark mark rfl
      rw [List.cons_append, place_cons (ne_of_isWordMark mark rfl), take, isGap_of_isWordMark mark,
        further others, List.length_cons, ← Nat.add_assoc, Nat.add_right_comm]
      simp only [Gap.isEmpty, isStray, endsAt, Gap.text, List.isEmpty_nil, beq_self_eq_true,
        Bool.and_self, Bool.not_true, Bool.false_and, Bool.false_eq_true, if_false, Bool.or_self,
        beq_eq_false_iff_ne.2 colon, if_true, List.reverse_nil, List.nil_append,
        Option.bind_eq_bind]
      cases take false floor {} (place line (column + word.length + 1) rest) <;> rfl

/-- A colon before a gap ends the scalar. -/
theorem take_colon (gap : endsWord (place line (column + 1) rest) = true) :
    take false floor {} (place line column (':' :: rest))
      = some ⟨[], false, place line column (':' :: rest)⟩ := by
  rw [place_cons (by decide), take]
  simp [isGap, isBlank, Gap.isEmpty, isStray, endsAt, gap, Gap.crosses]

/-- Whether some blanks come first in a text, and then a word or nothing. -/
def Indented (indent : Nat) (text : List Char) : Prop :=
  ∃ rest, text = List.replicate indent ' ' ++ rest ∧ ∀ character ∈ rest.head?,
    isWordMark character = true

/-- Behind the end of a line some blanks are passed over, and a word to the left of the scalar
ends it. -/
theorem take_blanks {indent : Nat} (mark : ∀ character ∈ rest.head?, isWordMark character = true)
    (left : column + indent < floor) :
    take false floor { breaks := 1 } (place line column (List.replicate indent ' ' ++ rest))
      = some ⟨[], true, place line (column + indent) rest⟩ := by
  induction indent generalizing column with
  | zero =>
      cases rest with
      | nil => rfl
      | cons character rest =>
          have mark := mark character rfl
          rw [Nat.add_zero] at left ⊢
          rw [List.replicate_zero, List.nil_append, place_cons (ne_of_isWordMark mark rfl), take,
            isGap_of_isWordMark mark]
          simp [Gap.isEmpty, endsAfter, Gap.crosses, left]
  | succ indent further =>
      rw [← Nat.add_assoc, Nat.add_right_comm] at left ⊢
      rw [List.replicate_succ, List.cons_append, place_cons (by decide), take]
      simp [isGap, isBlank, Gap.add, further left]

/-- At the end of a line the scalar ends, unless the next line goes on to its right. -/
theorem take_lineEnd {indent : Nat} {text : List Char} (indented : Indented indent text)
    (left : indent < floor) :
    take false floor {} (place line column ('\n' :: text))
      = some ⟨[], true, place (line + 1) indent (text.drop indent)⟩ := by
  obtain ⟨rest, rfl, mark⟩ := indented
  have passed : take false floor { breaks := 1 }
        (place (line + 1) 0 (List.replicate indent ' ' ++ rest))
      = some ⟨[], true, place (line + 1) indent rest⟩ := by
    rw [take_blanks mark (by rwa [Nat.zero_add]), Nat.zero_add]
  rw [place_lineEnd, take]
  simp [isGap, isBlank, Gap.add, passed]

end Plain

/-! ## Layouts between lines -/

namespace Layout

open Placed

variable {line column rounds indent : Nat} {tokens : List Token} {indents : List Nat}
  {layout : Layout} {word rest text : List Char}

/-- A layout before a line, with its tokens in the order of the text. -/
def between (tokens : List Token) (indents : List Nat) : Layout where
  tokens := tokens.reverse
  count := tokens.length
  indents

/-- The layout behind a word that may be a key. -/
def marked (tokens : List Token) (indents : List Nat) (line column : Nat) (word : List Char) :
    Layout :=
  { between (tokens ++ [.scalar .plain (String.ofList word)]) indents with
    candidate := some
      { index := tokens.length, line, column, required := indents.head? == some column }
    keyAllowed := false }

/-- The layout behind the colon after a key. -/
def valued (tokens : List Token) (indents : List Nat) : Layout :=
  { between tokens indents with keyAllowed := false }

/-- The layout behind a key in a column and its colon. The key begins a mapping if it stands to
the right of those around it. -/
def keyed (tokens : List Token) (indents : List Nat) (column : Nat) (word : List Char) : Layout :=
  let entry := [.key, .scalar .plain (String.ofList word), .value]
  if (between tokens indents).floor ≤ column then
    valued (tokens ++ .blockMap :: entry) (column :: indents)
  else valued (tokens ++ entry) indents

/-- A layout ends the mappings to the right of a column. -/
theorem closeTo_between (column : Nat) :
    (between tokens indents).closeTo column =
      let ended := indents.takeWhile fun indent => decide (column < indent)
      between (tokens ++ List.replicate ended.length .blockEnd) (indents.drop ended.length) := by
  simp [closeTo, close, between, inFlow]

theorem skipGap_blanks (flow allowed : Bool) :
    skipGap flow allowed false (place line column (List.replicate indent ' ' ++ rest))
      = skipGap flow allowed false (place line (column + indent) rest) := by
  induction indent generalizing column with
  | zero => rfl
  | succ indent further =>
      rw [List.replicate_succ, List.cons_append, place_cons (by decide), skipGap, ← Nat.add_assoc,
        Nat.add_right_comm, ← further]
      rfl

/-- Blanks before a token are passed over. -/
theorem addTokens_blanks :
    addTokens (rounds + 1) layout (place line column (List.replicate indent ' ' ++ rest))
      = addTokens (rounds + 1) layout (place line (column + indent) rest) := by
  rw [addTokens, addTokens, skipGap_blanks]

theorem skipGap_word (flow allowed : Bool) {character : Char}
    (mark : isWordMark character = true) :
    skipGap flow allowed false (place line column (character :: rest))
      = (allowed, place line column (character :: rest)) := by
  have space : character ≠ ' ' := ne_of_isWordMark mark rfl
  have tab : character ≠ '\t' := ne_of_isWordMark mark rfl
  have comment : character ≠ '#' := ne_of_isWordMark mark rfl
  have lineEnd : character ≠ '\n' := ne_of_isWordMark mark rfl
  rw [place_cons lineEnd, skipGap]
  simp [space, tab, comment, lineEnd]

/-- Behind the end of a line a key may begin. -/
theorem addTokens_lineEnd (block : layout.inFlow = false) {character : Char}
    (mark : isWordMark character = true) :
    addTokens (rounds + 1) layout
        (place line column ('\n' :: (List.replicate indent ' ' ++ character :: rest)))
      = addTokens (rounds + 1) { layout with keyAllowed := true }
        (place (line + 1) indent (character :: rest)) := by
  have same : ({ layout with keyAllowed := true } : Layout).inFlow = false := block
  have passed : skipGap false layout.keyAllowed false
        (place line column ('\n' :: (List.replicate indent ' ' ++ character :: rest)))
      = (true, place (line + 1) indent (character :: rest)) := by
    rw [place_lineEnd, skipGap]
    simp only [beq_self_eq_true, if_true, Bool.not_false, Bool.or_true]
    rw [skipGap_blanks, Nat.zero_add, skipGap_word _ _ mark]
  rw [addTokens, addTokens, block, same, passed, skipGap_word _ _ mark,
    place_cons (ne_of_isWordMark mark rfl)]

/-! ## Rounds -/

/-- A word is a plain scalar and nothing else. -/
theorem addToken_word {character : Char} (mark : isWordMark character = true)
    (spots : List Placed) :
    layout.addToken ⟨character, line, column⟩ spots
      = layout.addPlain ⟨character, line, column⟩ spots := by
  have other (special : Char) (plain : isWordMark special = false) : character ≠ special :=
    ne_of_isWordMark mark plain
  have starts : layout.startsPlain ⟨character, line, column⟩ spots = true := by
    have indicators : "#&*!|>'\"%@\x60".toList.contains character = false := by
      rw [List.contains_eq_mem, decide_eq_false_iff_not]
      intro listed
      have special : ("#&*!|>'\"%@\x60".toList.all fun indicator => !isWordMark indicator) = true :=
        by decide
      cases (congrArg not mark).symm.trans (List.all_eq_true.1 special character listed)
    rw [startsPlain, isGap_of_isWordMark mark, indicators]
    simp [isFlowMark, other '?' rfl, other ':' rfl, other '\x7b' rfl, other '\x7d' rfl,
      other '[' rfl, other ']' rfl, other ',' rfl]
  have noMarker (special : Char) (plain : isWordMark special = false) :
      isMarker special (⟨character, line, column⟩ :: spots) = false := by
    simp [isMarker, other special plain]
  rw [addToken]
  simp [noMarker '-' rfl, noMarker '.' rfl, other '%' rfl, other '-' rfl, other '?' rfl,
    other ':' rfl, starts]

/-- A word in front of a colon may be a key. -/
theorem addPlain_key {character : Char} {others : List Placed} (plain : isWord word = true)
    (here : ⟨character, line, column⟩ :: others = place line column (word ++ ':' :: rest))
    (gap : endsWord (place line (column + word.length + 1) rest) = true) :
    (between tokens indents).addPlain ⟨character, line, column⟩ others
      = some (marked tokens indents line column word,
          place line (column + word.length) (':' :: rest)) := by
  rw [addPlain, here, show (between tokens indents).inFlow = false from rfl,
    Plain.take_word (Bool.and_eq_true_iff.1 plain).2, Plain.take_colon gap]
  simp [addNode, markCandidate, dropCandidate, between, emit, marked, inFlow]

/-- A word at the end of a line is the value of the key before it. -/
theorem addPlain_value {character : Char} {others : List Placed} (plain : isWord word = true)
    (here : ⟨character, line, column⟩ :: others = place line column (word ++ '\n' :: text))
    {outer : List Nat} {innermost : Nat} (indented : Plain.Indented indent text)
    (left : indent ≤ innermost) :
    (valued tokens (innermost :: outer)).addPlain ⟨character, line, column⟩ others
      = some (between (tokens ++ [.scalar .plain (String.ofList word)]) (innermost :: outer),
          place (line + 1) indent (text.drop indent)) := by
  rw [addPlain, here, show (valued tokens (innermost :: outer)).inFlow = false from rfl,
    show (valued tokens (innermost :: outer)).floor = innermost + 1 from rfl,
    Plain.take_word (Bool.and_eq_true_iff.1 plain).2,
    Plain.take_lineEnd indented (Nat.lt_succ_of_le left)]
  simp [addNode, markCandidate, valued, between, emit]

/-- A layout keeps the mappings that do not stand to the right of a column. -/
theorem closeTo_of_le (inside : ∀ indent ∈ layout.indents.head?, indent ≤ column) :
    layout.closeTo column = layout := by
  have none : layout.indents.takeWhile (fun indent => decide (column < indent)) = [] := by
    cases indents : layout.indents with
    | nil => rfl
    | cons innermost outer =>
        have left := inside innermost (by rw [indents]; rfl)
        rw [List.takeWhile_cons_of_neg]
        simpa using left
  rw [closeTo, none, close]
  split <;> simp

theorem addValue_marked :
    (marked tokens indents line column word).addValue ⟨':', line, column + word.length⟩
      = some (keyed tokens indents column word) := by
  have opens : ∀ starts, decide ((between tokens indents).floor ≤ column) = starts →
      (marked tokens indents line column word).addValue ⟨':', line, column + word.length⟩
        = some
            { ((marked tokens indents line column word).insertAt tokens.length
                (if starts then [.key, .blockMap] else [.key])).emit .value with
              indents := if starts then column :: indents else indents
              candidate := none
              keyAllowed := false } := by
    rintro starts rfl
    rfl
  by_cases starts : (between tokens indents).floor ≤ column
  · rw [opens true (decide_eq_true starts), keyed, if_pos starts]
    simp [insertAt, emit, marked, between, valued]
  · rw [opens false (decide_eq_false starts), keyed, if_neg starts]
    simp [insertAt, emit, marked, between, valued]

/-- A round takes the token at its first character, if no gap comes before that. -/
theorem addTokens_of_token {spot : Placed} {spots left : List Placed} {closed taken : Layout}
    (here : skipGap layout.inFlow layout.keyAllowed false (spot :: spots)
      = (layout.keyAllowed, spot :: spots))
    (fresh : layout.dropStale spot = some layout) (closes : layout.closeTo spot.column = closed)
    (token : closed.addToken spot spots = some (taken, left)) :
    addTokens (rounds + 1) layout (spot :: spots) = addTokens rounds taken left := by
  rw [addTokens, here]
  change (layout.dropStale spot).bind _ = _
  rw [fresh, Option.bind_some, closes, token]
  rfl

/-- The colon behind a word that may be a key makes it one. -/
theorem addTokens_colon (short : word.length ≤ Candidate.reach)
    (inside : ∀ indent ∈ indents.head?, indent ≤ column)
    (gap : endsWord (place line (column + word.length + 1) rest) = true) :
    addTokens (rounds + 1) (marked tokens indents line column word)
        (place line (column + word.length) (':' :: rest))
      = addTokens rounds (keyed tokens indents column word)
          (place line (column + word.length + 1) rest) := by
  have near : ¬ column + Candidate.reach < column + word.length := by omega
  rw [place_cons (by decide)]
  refine addTokens_of_token ?_ ?_ (closeTo_of_le fun indent innermost =>
    Nat.le_add_right_of_le (inside indent innermost)) ?_
  · rw [skipGap]
    simp
  · simp [dropStale, marked, Candidate.isStale, near]
  · simp [addToken, isMarker, gap, addValue_marked]

/-- A round takes a word as a plain scalar. -/
theorem addTokens_word (plain : isWord word = true) {left : List Placed} {closed taken : Layout}
    (block : layout.inFlow = false) (idle : layout.candidate = none)
    (closes : layout.closeTo column = closed)
    (takes : ∀ character others,
      ⟨character, line, column⟩ :: others = place line column (word ++ rest) →
        closed.addPlain ⟨character, line, column⟩ others = some (taken, left)) :
    addTokens (rounds + 1) layout (place line column (word ++ rest))
      = addTokens rounds taken left := by
  cases word with
  | nil => cases plain
  | cons character others =>
      obtain ⟨mark, _⟩ := Bool.and_eq_true_iff.1 (Bool.and_eq_true_iff.1 plain).2
      have here := @place_cons line column character (others ++ rest) (ne_of_isWordMark mark rfl)
      rw [List.cons_append, here]
      refine addTokens_of_token ?_ ?_ closes ?_
      · rw [← here, block]
        exact skipGap_word _ _ mark
      · rw [dropStale, idle]
        rfl
      · rw [addToken_word mark]
        exact takes character _ here.symm

/-- **A key and its colon** take two rounds. -/
theorem addTokens_key (plain : isWord word = true) (short : word.length ≤ Candidate.reach)
    {reached : List Token} {inner : List Nat}
    (closes : (between tokens indents).closeTo column = between reached inner)
    (inside : ∀ indent ∈ inner.head?, indent ≤ column)
    (gap : endsWord (place line (column + word.length + 1) rest) = true) :
    addTokens (rounds + 2) (between tokens indents) (place line column (word ++ ':' :: rest))
      = addTokens rounds (keyed reached inner column word)
          (place line (column + word.length + 1) rest) := by
  rw [← addTokens_colon short inside gap]
  exact addTokens_word plain rfl rfl closes fun _ _ here => addPlain_key plain here gap

/-- **A value** takes one round. -/
theorem addTokens_value (plain : isWord word = true) {outer : List Nat} {innermost : Nat}
    (inside : innermost ≤ column) (indented : Plain.Indented indent text)
    (left : indent ≤ innermost) :
    addTokens (rounds + 2) (valued tokens (innermost :: outer))
        (place line column (' ' :: (word ++ '\n' :: text)))
      = addTokens (rounds + 1)
          (between (tokens ++ [.scalar .plain (String.ofList word)]) (innermost :: outer))
          (place (line + 1) 0 text) := by
  have blank : place line column (' ' :: (word ++ '\n' :: text))
      = place line column (List.replicate 1 ' ' ++ (word ++ '\n' :: text)) := rfl
  have kept : (valued tokens (innermost :: outer)).closeTo (column + 1)
      = valued tokens (innermost :: outer) := by
    refine closeTo_of_le ?_
    rintro _ ⟨⟩
    exact Nat.le_add_right_of_le inside
  rw [blank, addTokens_blanks, addTokens_word plain rfl rfl kept fun _ _ here =>
    addPlain_value plain here indented left]
  obtain ⟨rest, rfl, _⟩ := indented
  rw [addTokens_blanks, Nat.zero_add]
  simp

end Layout

end LdapWire.Yaml
