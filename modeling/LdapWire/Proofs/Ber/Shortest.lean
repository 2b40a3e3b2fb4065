import LdapWire.Proofs.Ber.Spelling
import LdapWire.Proofs.Ber.TwosComplement
import LdapWire.Proofs.Ber.Verdict
import Mathlib.Order.Monotone.Defs

/-!
# The shortest spelling of a length

A length has many spellings. The one that is written has as many octets as `Length.width` says,
and every other has more (`Length.IsSpelling.eq_bytes_or_lt`). A header that has taken a tag
accepts the same spellings as a reader (`Header.take_eq_ok_iff_length`), so both read a length
of at most four octets as it was written.

A writer spells lengths of up to eight octets. Those of more than four stand behind a marker that
both readings refuse (`Length.form_longMarker_of_le`), so that none of them is taken for another
length. `Length.shortest_spelling` puts the two cases together.
-/

set_option autoImplicit false

namespace LdapWire.Ber

/-! ## Spellings of one length -/

namespace Length

/-- Octets are those of the length that they spell, if it takes as many. -/
theorem longOctets_unsigned {digits : Bytes}
    (needed : octetCount (Integer.unsigned digits) = digits.length) :
    longOctets (Integer.unsigned digits) = digits := by
  have spelled : (Integer.unsigned digits : Int) = Integer.spell 0 digits := by
    rw [Integer.spell_eq, zero_mul, zero_add]
  rw [longOctets, needed, spelled, Integer.octets_spell]

/-- **The shortest spelling is unique.** Octets that spell a length are those that are written
for it, or there are more of them: in as many octets none of the digits is a leading zero. -/
theorem IsSpelling.eq_bytes_or_lt {octets : Bytes} {length : Nat}
    (spelled : IsSpelling octets length) :
    octets = bytes length ∨ width length < octets.length := by
  rcases spelled.width_le.eq_or_lt with same | longer
  · left
    cases spelled with
    | @short octet small =>
        have first : octet.toNat < 0x80 := UInt8.lt_iff_toNat_lt.1 small
        rw [bytes, if_pos first, UInt8.ofNat_toNat]
    | @long marker digits counted nonempty few =>
        have some := List.length_pos_iff.2 nonempty
        rw [List.length_cons] at same
        have large : ¬ Integer.unsigned digits < 0x80 := fun small => by
          rw [width_of_lt small] at same
          omega
        have needed : octetCount (Integer.unsigned digits) = digits.length := by
          rw [width, if_neg large] at same
          omega
        rw [bytes, if_neg large, longMarker, needed, ← counted, UInt8.ofNat_toNat,
          longOctets_unsigned needed]
  · exact .inr longer

/-- A marker that counts more than four octets is refused. -/
theorem form_longMarker_of_le {length : Nat} (long : 2 ^ 32 ≤ length) (fits : length < 2 ^ 64) :
    form (longMarker length) = .error (.corrupt (.oversizedLength (octetCount length))) := by
  have most : octetCount length ≤ 8 := octetCount_le_iff.2 fits
  have many : maxOctets < octetCount length :=
    Nat.lt_of_not_le fun few => Nat.not_lt.2 long (octetCount_le_iff.1 few)
  rw [form_of_toNat (toNat_longMarker (by omega)) (by omega) (by omega), if_pos many]

theorem bytes_of_le {length : Nat} (long : 2 ^ 32 ≤ length) :
    bytes length = longMarker length :: longOctets length :=
  if_neg (by omega)

end Length

/-! ## A header that has taken a tag -/

theorem Reader.header_cons_eq_ok_iff {tag found : UInt8} (single : checkTag tag = .ok ())
    {input rest : Bytes} {length : Nat} :
    Reader.header (tag :: input) = .ok (found, length) rest
      ↔ found = tag ∧ Reader.length input = .ok length rest := by
  rw [Reader.header_of_single single, Step.bind_apply]
  cases Reader.length input with
  | error error left => simp
  | ok value left => simp [and_assoc, eq_comm]

namespace Header

variable {tag : UInt8} {before after : Header}

/-- A tag that is taken is a single octet, and a length comes next. -/
theorem push_tag_eq_ok (tagged : push tag {} = .ok none before) :
    checkTag tag = .ok () ∧ before = { phase := .length tag, bytesRead := 1 } := by
  cases checked : checkTag tag with
  | error error =>
      simp only [push, checked] at tagged
      cases tagged
  | ok =>
      simp only [push, checked] at tagged
      cases tagged
      exact ⟨rfl, rfl⟩

/-- Behind a tag a header announces the length that a reader finds. -/
theorem take_eq_ok_iff_length (tagged : push tag {} = .ok none before) {input rest : Bytes}
    {tlv : Tlv} :
    take input before = .ok (some tlv, rest) after
      ↔ Reader.length input = .ok tlv.length rest ∧ tlv.tag = tag
        ∧ tlv.headerLength + rest.length = 1 + input.length
        ∧ tlv.consumed = 0 ∧ tlv.received = [] ∧ after = {} := by
  obtain ⟨single, _⟩ := push_tag_eq_ok tagged
  rw [← take_of_pushed tagged, announced_iff_header, Reader.header_cons_eq_ok_iff single,
    List.length_cons, Nat.add_comm input.length 1, and_assoc, and_left_comm]

/-- Behind a tag a header refuses the octet that says nothing of a length. -/
theorem take_of_form_error (tagged : push tag {} = .ok none before) {first : UInt8}
    {error : CodecError} (refused : Length.form first = .error error) (rest : Bytes) :
    take (first :: rest) before = .error error { phase := .length tag, bytesRead := 2 } := by
  obtain ⟨_, rfl⟩ := push_tag_eq_ok tagged
  refine take_of_refused ?_
  simp only [push, refused]

end Header

/-! ## What is written and what is read -/

namespace Length

variable {length : Nat}

/-- Whether a length is read from the octets that are written for it, by a reader and by a
header that has taken a tag, and from no others of the same number or fewer. -/
structure Recovers (length : Nat) : Prop where
  read : ∀ rest, Reader.length (bytes length ++ rest) = .ok length rest
  announced : ∀ tag before rest, Header.push tag {} = .ok none before →
    Header.take (bytes length ++ rest) before
      = .ok (some { tag, length, headerLength := 1 + width length }, rest) {}
  shortestRead : ∀ octets rest, Reader.length (octets ++ rest) = .ok length rest →
    octets = bytes length ∨ width length < octets.length
  shortestAnnounced : ∀ tag before octets rest tlv after, Header.push tag {} = .ok none before →
    Header.take (octets ++ rest) before = .ok (some tlv, rest) after → tlv.length = length →
    octets = bytes length ∨ width length < octets.length

/-- Whether the octets that are written for a length are refused at the first of them, by a
reader and by a header that has taken a tag. -/
structure Refuses (length : Nat) : Prop where
  read : ∀ rest, Reader.length (bytes length ++ rest)
    = .error (.corrupt (.oversizedLength (octetCount length))) (longOctets length ++ rest)
  refused : ∀ tag before rest, Header.push tag {} = .ok none before →
    Header.take (bytes length ++ rest) before
      = .error (.corrupt (.oversizedLength (octetCount length)))
          { phase := .length tag, bytesRead := 2 }

/-- Octets from which a reader finds a length are those that are written for it, or more. -/
theorem eq_bytes_or_lt_of_read {octets rest : Bytes}
    (read : Reader.length (octets ++ rest) = .ok length rest) :
    octets = bytes length ∨ width length < octets.length := by
  obtain ⟨front, spelled, same⟩ := Reader.length_eq_ok_iff.1 read
  rw [List.append_cancel_right same]
  exact spelled.eq_bytes_or_lt

theorem recovers_of_lt (fits : length < 2 ^ 32) : Recovers length where
  read := Reader.length_append fits
  announced := by
    intro tag before rest tagged
    have size : 1 + width length + rest.length = 1 + (bytes length ++ rest).length := by
      rw [List.length_append, length_bytes, Nat.add_assoc]
    exact (Header.take_eq_ok_iff_length tagged).2
      ⟨Reader.length_append fits rest, rfl, size, rfl, rfl, rfl⟩
  shortestRead := fun _ _ => eq_bytes_or_lt_of_read
  shortestAnnounced := by
    rintro tag before octets rest tlv after tagged taken rfl
    exact eq_bytes_or_lt_of_read ((Header.take_eq_ok_iff_length tagged).1 taken).1

theorem refuses_of_le (long : 2 ^ 32 ≤ length) (fits : length < 2 ^ 64) : Refuses length where
  read := by
    intro rest
    rw [bytes_of_le long, List.cons_append, Reader.length_cons, form_longMarker_of_le long fits]
  refused := by
    intro tag before rest tagged
    rw [bytes_of_le long, List.cons_append]
    exact Header.take_of_form_error tagged (form_longMarker_of_le long fits) _

/-- **Lengths are written in their shortest form and read back.** Longer content has no shorter
length. A length of up to eight octets is written in as many octets as its width says, where
they fit. If it has no more than four, a reader and a header that has taken any tag read it back
and leave what comes after it, and all other octets from which they read it are more. If it has
more than four, both refuse what has been written. -/
theorem shortest_spelling :
    Monotone width
    ∧ ∀ length, length < 2 ^ 64 →
      (bytes length).length = width length
      ∧ Writer.Fills (Writer.writeLength length) (bytes length)
      ∧ (length < 2 ^ 32 → Recovers length)
      ∧ (2 ^ 32 ≤ length → Refuses length) :=
  ⟨fun _ _ => width_mono, fun length fits => ⟨length_bytes length, Writer.fills_length length,
    recovers_of_lt, fun long => refuses_of_le long fits⟩⟩

/-- A length of two octets comes back, and also from a spelling with a leading zero, which is
longer. The least length of five octets is refused. -/
theorem shortest_spelling_padded :
    300 < 2 ^ 32 ∧ 2 ^ 32 ≤ 0x100000000 ∧ 0x100000000 < 2 ^ 64
    ∧ Header.push Tag.sequence {} = .ok none { phase := .length Tag.sequence, bytesRead := 1 }
    ∧ Writer.writeLength 300 (.ofBuffer [0, 0, 0, 0])
      = .ok () ((Writer.ofBuffer [0, 0, 0, 0]).append [0x82, 0x01, 0x2C])
    ∧ Header.take [0x82, 0x01, 0x2C, 0x05] { phase := .length Tag.sequence, bytesRead := 1 }
      = .ok (some { tag := Tag.sequence, length := 300, headerLength := 4 }, [0x05]) {}
    ∧ Reader.length [0x83, 0x00, 0x01, 0x2C, 0x05] = .ok 300 [0x05]
    ∧ ([0x83, 0x00, 0x01, 0x2C] = bytes 300 ∨ width 300 < 4)
    ∧ Header.take [0x85, 0x01, 0x00, 0x00, 0x00, 0x00]
        { phase := .length Tag.sequence, bytesRead := 1 }
      = .error (.corrupt (.oversizedLength 5))
          { phase := .length Tag.sequence, bytesRead := 2 } := by
  have tagged : Header.push Tag.sequence {}
      = .ok none { phase := .length Tag.sequence, bytesRead := 1 } := rfl
  have padded : Reader.length ([0x83, 0x00, 0x01, 0x2C] ++ [0x05]) = .ok 300 [0x05] := rfl
  obtain ⟨_, fills, recovers, _⟩ := shortest_spelling.2 300 (by decide)
  obtain ⟨_, _, _, refuses⟩ := shortest_spelling.2 0x100000000 (by decide)
  have short := recovers (by decide)
  have long := refuses (by decide)
  exact ⟨by decide, by decide, by decide, tagged, fills.writes _ (by decide),
    short.announced _ _ [0x05] tagged, padded, short.shortestRead _ _ padded,
    long.refused _ _ [] tagged⟩

end Length

end LdapWire.Ber
