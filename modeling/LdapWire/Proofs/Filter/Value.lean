import LdapWire.Filter.Text

/-!
# Values in the string form of a filter

The octets of a value are told apart by their characters (`Filter.Text.value_injective`). A
value holds no parenthesis and no asterisk (`Filter.Text.notMem_value_of_reserved`), and a
backslash in it is always the first character of the escape of an octet
(`Filter.Text.exists_of_value_eq_append`). So whatever stands around a value can be cut off at
the first sign that the value cannot hold.
-/

set_option autoImplicit false

namespace LdapWire

/-! ## Lists cut at a sign -/

namespace Text

variable {α : Type} {sign : α}

/-- Where a sign is found, a front that does not hold it has ended. -/
theorem exists_of_append_eq_append_cons {front back before after : List α} (unsigned : sign ∉ front)
    (same : front ++ back = before ++ sign :: after) :
    ∃ between, before = front ++ between ∧ back = between ++ sign :: after := by
  rcases List.append_eq_append_iff.1 same with ⟨between, rfl, later⟩ | ⟨between, rfl, later⟩
  · exact ⟨between, rfl, later⟩
  · cases between with
    | nil => exact ⟨[], by rw [List.append_nil, List.append_nil], later.symm⟩
    | cons first rest =>
        obtain ⟨rfl, _⟩ := List.cons.inj later
        exact absurd (List.mem_append_right before List.mem_cons_self) unsigned

/-- The first sign shows where the front ends. -/
theorem append_cons_inj_of_first {front other back further : List α} (unsigned : sign ∉ front)
    (otherUnsigned : sign ∉ other) (same : front ++ sign :: back = other ++ sign :: further) :
    front = other ∧ back = further := by
  obtain ⟨between, rfl, later⟩ := exists_of_append_eq_append_cons unsigned same
  cases between with
  | nil => exact ⟨(List.append_nil front).symm, (List.cons.inj later).2⟩
  | cons first rest =>
      obtain ⟨rfl, _⟩ := List.cons.inj later
      exact absurd (List.mem_append_right front List.mem_cons_self) otherUnsigned

theorem eq_or_mem_of_mem_intercalate {element : α} {pieces : List (List α)}
    (joined : element ∈ [sign].intercalate pieces) :
    element = sign ∨ ∃ piece ∈ pieces, element ∈ piece := by
  induction pieces with
  | nil => cases joined
  | cons piece rest further =>
      cases rest with
      | nil =>
          rw [List.intercalate_singleton] at joined
          exact .inr ⟨piece, List.mem_cons_self, joined⟩
      | cons next others =>
          rw [List.intercalate_cons_cons, List.append_assoc, List.mem_append, List.mem_append,
            List.mem_singleton] at joined
          rcases joined with here | same | later
          · exact .inr ⟨piece, List.mem_cons_self, here⟩
          · exact .inl same
          · rcases further later with same | ⟨found, listed, held⟩
            · exact .inl same
            · exact .inr ⟨found, List.mem_cons_of_mem _ listed, held⟩

/-- Pieces joined by a sign are told apart if none of them holds it. -/
theorem intercalate_inj [DecidableEq α] {pieces others : List (List α)}
    (unsigned : ∀ piece ∈ pieces, sign ∉ piece) (some : pieces ≠ [])
    (otherUnsigned : ∀ piece ∈ others, sign ∉ piece) (otherSome : others ≠ [])
    (same : [sign].intercalate pieces = [sign].intercalate others) : pieces = others := by
  rw [← List.splitOn_intercalate sign unsigned some, same,
    List.splitOn_intercalate sign otherUnsigned otherSome]

/-- Words that form a prefix code, none of them empty, are told apart where they are written
one after another. -/
theorem flatMap_inj_of_code {β : Type} {word : α → List β} {good : α → Prop}
    (some : ∀ {item}, good item → word item ≠ [])
    (code : ∀ {item other}, good item → good other → ∀ {rest further},
      word item ++ rest = word other ++ further → item = other ∧ rest = further)
    {items others : List α} (allGood : ∀ item ∈ items, good item)
    (othersGood : ∀ item ∈ others, good item)
    (same : items.flatMap word = others.flatMap word) : items = others := by
  induction items generalizing others with
  | nil =>
      cases others with
      | nil => rfl
      | cons other rest =>
          have empty := (List.append_eq_nil_iff.1 same.symm).1
          exact absurd empty (some (othersGood other List.mem_cons_self))
  | cons item rest further =>
      obtain ⟨first, later⟩ := List.forall_mem_cons.1 allGood
      cases others with
      | nil => exact absurd (List.append_eq_nil_iff.1 same).1 (some first)
      | cons other behind =>
          obtain ⟨otherFirst, otherLater⟩ := List.forall_mem_cons.1 othersGood
          obtain ⟨rfl, left⟩ := code first otherFirst same
          rw [further later otherLater left]

end Text

/-! ## Escapes -/

namespace Text.Hex

theorem byte_injective {left right : UInt8} (same : byte left = byte right) : left = right := by
  have read := decode?_append_byte left []
  rw [same, decode?_append_byte right []] at read
  simpa [decode?] using read.symm

end Text.Hex

namespace Filter.Text

/-- The signs that a value never holds as such. -/
def reserved : List Char := ['(', ')', '*']

theorem isPlain_ne {octet : UInt8} (plain : isPlain octet = true) :
    Char.ofNat octet.toNat ≠ '\\' ∧ Char.ofNat octet.toNat ∉ reserved := by
  simp only [isPlain, Bool.and_eq_true, Bool.not_eq_true', List.contains_eq_mem] at plain
  simp_all [reserved]

theorem digit_ne : ∀ number : Nat, number < 16 →
    Text.Hex.digit number ≠ '\\' ∧ Text.Hex.digit number ∉ reserved := by
  decide

theorem mem_byte_ne {octet : UInt8} {character : Char}
    (spelled : character ∈ Text.Hex.byte octet) : character ≠ '\\' ∧ character ∉ reserved := by
  have bound : octet.toNat < 256 := octet.toNat_lt
  simp only [Text.Hex.byte, List.mem_cons, List.not_mem_nil, or_false] at spelled
  rcases spelled with rfl | rfl
  · exact digit_ne _ (by omega)
  · exact digit_ne _ (by omega)

theorem notMem_octet_of_reserved {sign : Char} (kept : sign ∈ reserved) (byte : UInt8) :
    sign ∉ octet byte := by
  intro held
  unfold octet at held
  split at held
  · rename_i plain
    rw [List.mem_singleton] at held
    exact (isPlain_ne plain).2 (held ▸ kept)
  · rcases List.mem_cons.1 held with rfl | digit
    · exact absurd kept (by decide)
    · exact (mem_byte_ne digit).2 kept

/-- A value holds no parenthesis and no asterisk. -/
theorem notMem_value_of_reserved {sign : Char} (kept : sign ∈ reserved) (content : Bytes) :
    sign ∉ value content := by
  intro held
  obtain ⟨byte, _, spelled⟩ := List.mem_flatMap.1 held
  exact notMem_octet_of_reserved kept byte spelled

theorem toNat_ofNat_toNat (octet : UInt8) : (Char.ofNat octet.toNat).toNat = octet.toNat := by
  have valid : octet.toNat.isValidChar := .inl (Nat.lt_trans octet.toNat_lt (by decide))
  rw [Char.ofNat, dif_pos valid]
  rfl

/-- An octet is told by its characters, whatever comes after them. -/
theorem octet_append_inj {first second : UInt8} {rest further : List Char}
    (same : octet first ++ rest = octet second ++ further) : first = second ∧ rest = further := by
  unfold octet at same
  split at same <;> split at same
  · obtain ⟨equal, behind⟩ := List.cons.inj same
    have number := congrArg Char.toNat equal
    rw [toNat_ofNat_toNat, toNat_ofNat_toNat] at number
    exact ⟨UInt8.toNat_inj.1 number, behind⟩
  · rename_i plain _
    exact absurd (List.cons.inj same).1 (isPlain_ne plain).1
  · rename_i plain
    exact absurd (List.cons.inj same).1.symm (isPlain_ne plain).1
  · obtain ⟨digits, behind⟩ := List.append_inj (List.cons.inj same).2 rfl
    exact ⟨Text.Hex.byte_injective digits, behind⟩

theorem octet_ne_nil (byte : UInt8) : octet byte ≠ [] := by
  unfold octet
  split <;> simp

/-- A value is told by its characters. -/
theorem value_injective {left right : Bytes} (same : value left = value right) : left = right := by
  have every : ∀ content : Bytes, ∀ byte ∈ content, True := fun _ _ _ => trivial
  exact Text.flatMap_inj_of_code (fun _ => octet_ne_nil _) (fun _ _ => octet_append_inj)
    (every left) (every right) same

/-- A backslash in a value begins the escape of an octet. -/
theorem exists_of_value_eq_append {content : Bytes} {before after : List Char}
    (found : value content = before ++ '\\' :: after) :
    ∃ front byte back, content = front ++ byte :: back ∧ isPlain byte = false
      ∧ before = value front ∧ after = Text.Hex.byte byte ++ value back := by
  induction content generalizing before with
  | nil => exact absurd (List.append_eq_nil_iff.1 found.symm).2 (List.cons_ne_nil _ _)
  | cons byte rest further =>
      have spelled : octet byte ++ value rest = before ++ '\\' :: after := found
      have behind : ∀ {between : List Char}, value rest = between ++ '\\' :: after →
          ∃ front escaped back, byte :: rest = front ++ escaped :: back
            ∧ isPlain escaped = false ∧ octet byte ++ between = value front
            ∧ after = Text.Hex.byte escaped ++ value back := by
        intro between later
        obtain ⟨front, escaped, back, rfl, special, rfl, rfl⟩ := further later
        exact ⟨byte :: front, escaped, back, rfl, special, rfl, rfl⟩
      cases plain : isPlain byte with
      | true =>
          have single : octet byte = [Char.ofNat byte.toNat] := if_pos plain
          have other : '\\' ∉ octet byte := by
            rw [single, List.mem_singleton]
            exact (isPlain_ne plain).1.symm
          obtain ⟨between, rfl, later⟩ := Text.exists_of_append_eq_append_cons other spelled
          exact behind later
      | false =>
          have escape : octet byte = '\\' :: Text.Hex.byte byte := if_neg (by simp [plain])
          cases before with
          | nil =>
              rw [escape] at spelled
              exact ⟨[], byte, rest, rfl, plain, rfl, (List.cons.inj spelled).2.symm⟩
          | cons first others =>
              rw [escape] at spelled behind
              obtain ⟨rfl, inside⟩ := List.cons.inj spelled
              have digits : '\\' ∉ Text.Hex.byte byte := fun digit => (mem_byte_ne digit).1 rfl
              obtain ⟨between, rfl, later⟩ := Text.exists_of_append_eq_append_cons digits inside
              exact behind later

end Filter.Text

end LdapWire
