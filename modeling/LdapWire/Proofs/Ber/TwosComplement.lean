import LdapWire.Proofs.Ber.Element
import LdapWire.Proofs.Ber.Primitive
import Mathlib.Data.List.Induction
import Mathlib.Data.Nat.Digits.Defs
import Mathlib.Order.Bounds.Defs

/-!
# Integers in two's complement

What the octets of an integer are, told without the functions that write and read them. The
width of an integer of 64 bits is the least number of octets whose two's complement holds it
(`Integer.isLeast_byteWidth`). Octets are read as the signed value of the word that they make
up, the most significant first (`Integer.signed_eq_toInt`), and a word of that width is written
for the value again (`Integer.octets_signed`), so a number has a single form of each width.

`Integer.shortest_form` puts both directions together.
-/

set_option autoImplicit false

namespace LdapWire.Ber.Integer

/-! ## The width -/

/-- The bounds of two's complement in so many octets. -/
theorem byteWidth_le_iff_of_pos {width : Nat} (positive : 1 ≤ width) {value : Int} :
    byteWidth value ≤ width
      ↔ -2 ^ (8 * width - 1) ≤ value ∧ value < 2 ^ (8 * width - 1) := by
  obtain ⟨fewer, rfl⟩ := Nat.exists_eq_add_of_le' positive
  have half : (2 : Int) ^ (8 * (fewer + 1) - 1) = 128 * 256 ^ fewer := by
    have bits : 8 * (fewer + 1) - 1 = 8 * fewer + 7 := by omega
    rw [bits, pow_add, pow_mul]
    ring
  rw [byteWidth_le_iff, half]

theorem byteWidth_toInt_le_eight (value : Int64) : byteWidth value.toInt ≤ 8 :=
  (byteWidth_le_iff_of_pos (by decide)).2 ⟨value.le_toInt, value.toInt_lt⟩

/-- **The width of an integer** is the least that holds it. -/
theorem isLeast_byteWidth (value : Int64) :
    IsLeast {width : Nat | 1 ≤ width ∧ width ≤ 8
      ∧ -2 ^ (8 * width - 1) ≤ value.toInt ∧ value.toInt < 2 ^ (8 * width - 1)}
      (byteWidth value.toInt) := by
  have positive : 1 ≤ byteWidth value.toInt := byteWidth_pos value.toInt
  refine ⟨⟨positive, byteWidth_toInt_le_eight value,
    (byteWidth_le_iff_of_pos positive).1 (Nat.le_refl _)⟩, ?_⟩
  rintro width ⟨some, _, bounds⟩
  exact (byteWidth_le_iff_of_pos some).2 bounds

/-! ## The value -/

theorem unsigned_eq_ofDigits (content : Bytes) :
    unsigned content = Nat.ofDigits 256 (content.reverse.map UInt8.toNat) := by
  induction content using List.reverseRecOn with
  | nil => rfl
  | append_singleton front octet shorter =>
      rw [unsigned_concat, shorter, List.reverse_append, List.reverse_singleton,
        List.singleton_append, List.map_cons, Nat.ofDigits_cons, Nat.add_comm]

/-- Octets are read as the signed value of the word that they make up. -/
theorem signed_eq_toInt {content : Bytes} (nonempty : content ≠ []) :
    signed content
      = (BitVec.ofNat (8 * content.length)
          (Nat.ofDigits 256 (content.reverse.map UInt8.toNat))).toInt := by
  cases content with
  | nil => exact absurd rfl nonempty
  | cons first rest =>
      have modulus : 2 ^ (8 * (first :: rest).length) = 256 ^ (first :: rest).length := by
        rw [pow_mul]
        norm_num
      have cast : (256 : Int) ^ (first :: rest).length
          = ((256 ^ (first :: rest).length : Nat) : Int) := by
        push_cast
        rfl
      have half : (256 : Int) ^ (first :: rest).length = 2 * (128 * 256 ^ rest.length) := by
        rw [List.length_cons, pow_succ]
        ring
      obtain ⟨low, high⟩ := signed_bounds first rest
      have reduced : (signed (first :: rest)).bmod (256 ^ (first :: rest).length)
          = signed (first :: rest) := by
        apply Int.bmod_eq_of_le
        · omega
        · omega
      rw [BitVec.toInt_ofNat', ← unsigned_eq_ofDigits, ← signed_emod, modulus, cast,
        Int.emod_bmod, reduced]

/-! ## The octets -/

/-- Octets are those of the number that they spell. -/
theorem octets_spell (start : Int) (content : Bytes) :
    octets content.length (spell start content) = content := by
  induction content using List.reverseRecOn with
  | nil => rfl
  | append_singleton front octet shorter =>
      have bound : (octet.toNat : Int) < 256 := by exact_mod_cast octet.toNat_lt
      have spelled : spell start (front ++ [octet]) = octet.toNat + spell start front * 256 := by
        rw [spell, List.foldl_append, List.foldl_cons, List.foldl_nil, ← spell]
        ring
      have quotient : spell start (front ++ [octet]) / 256 = spell start front := by omega
      have remainder : spell start (front ++ [octet]) % 256 = octet.toNat := by omega
      rw [List.length_append, List.length_singleton, octets, quotient, remainder, shorter,
        Int.toNat_natCast, UInt8.ofNat_toNat]

/-- A number has one form of each width. -/
theorem octets_signed (content : Bytes) : octets content.length (signed content) = content := by
  cases content with
  | nil => rfl
  | cons first rest => exact octets_spell _ (first :: rest)

/-! ## Reading -/

/-- At most eight octets are read as the number that they spell. -/
theorem decode_eq_signed {content : Bytes} (nonempty : content ≠ []) (few : content.length ≤ 8)
    {bound : Nat} (fits : content.length ≤ bound) :
    ∃ value : Int64, decode content bound = .ok value ∧ value.toInt = signed content := by
  have narrow : byteWidth (signed content) ≤ 8 := (byteWidth_signed_le nonempty).trans few
  obtain ⟨low, high⟩ := (byteWidth_le_iff_of_pos (by decide)).1 narrow
  exact ⟨_, decode_of_le nonempty fits, Int64.toInt_ofInt_of_le low high⟩

theorem decode_of_lt {content : Bytes} {bound : Nat} (long : bound < content.length) :
    ∃ corruption, decode content bound = .error (.corrupt corruption) := by
  rw [decode, if_pos long]
  split <;> exact ⟨_, rfl⟩

/-- What is written for a number is read as the number, unless it is longer than allowed. -/
theorem decode_bytes (value : Int64) (bound : Nat) :
    if byteWidth value.toInt ≤ bound then decode (bytes value.toInt) bound = .ok value
    else ∃ corruption, decode (bytes value.toInt) bound = .error (.corrupt corruption) := by
  have size := length_bytes value.toInt
  split
  · rename_i fits
    obtain ⟨read, decoded, same⟩ := decode_eq_signed (bytes_ne_nil value.toInt)
      (size.trans_le (byteWidth_toInt_le_eight value)) (size.trans_le fits)
    rw [signed_bytes] at same
    rw [decoded, Int64.toInt_inj.1 same]
  · rename_i long
    exact decode_of_lt (by omega)

/-! ## Both directions -/

/-- **The shortest form of an integer.** An integer of 64 bits has the least width that holds it
in two's complement. It is written in so many octets where they fit, and read back under every
bound that they keep. At most eight octets are read as their value in two's complement, are no
fewer than are written for it, and are the octets written for it if they are as many. -/
theorem shortest_form :
    (∀ value : Int64,
      IsLeast {width : Nat | 1 ≤ width ∧ width ≤ 8
        ∧ -2 ^ (8 * width - 1) ≤ value.toInt ∧ value.toInt < 2 ^ (8 * width - 1)}
        (byteWidth value.toInt)
      ∧ (bytes value.toInt).length = byteWidth value.toInt
      ∧ (∀ writer : Writer, byteWidth value.toInt ≤ writer.remaining →
        Writer.writeIntegerContent value.toInt writer
          = .ok (byteWidth value.toInt) (writer.append (bytes value.toInt)))
      ∧ ∀ bound, if byteWidth value.toInt ≤ bound then decode (bytes value.toInt) bound = .ok value
          else ∃ corruption, decode (bytes value.toInt) bound = .error (.corrupt corruption))
    ∧ ∀ content : Bytes, content ≠ [] → content.length ≤ 8 → ∀ bound, content.length ≤ bound →
      ∃ value : Int64, decode content bound = .ok value
        ∧ value.toInt
          = (BitVec.ofNat (8 * content.length)
              (Nat.ofDigits 256 (content.reverse.map UInt8.toNat))).toInt
        ∧ byteWidth value.toInt ≤ content.length
        ∧ (content.length = byteWidth value.toInt → content = bytes value.toInt) := by
  refine ⟨fun value => ⟨isLeast_byteWidth value, length_bytes value.toInt, ?_,
    decode_bytes value⟩, fun content nonempty few bound fits => ?_⟩
  · intro writer fits
    rw [← length_bytes] at fits
    have wrote := (Writer.fills_octets (bytes value.toInt)).writes writer fits
    rw [Writer.writeIntegerContent, Step.bind_of_ok _ wrote]
    rfl
  · obtain ⟨value, decoded, same⟩ := decode_eq_signed nonempty few fits
    refine ⟨value, decoded, same.trans (signed_eq_toInt nonempty), ?_, fun shortest => ?_⟩
    · rw [same]
      exact byteWidth_signed_le nonempty
    · rw [bytes, ← shortest, same, octets_signed]

/-- The lowest number of two octets is read from three and written in two. -/
theorem shortest_form_padded :
    ([0xFF, 0x80, 0x00] : Bytes) ≠ [] ∧ ([0xFF, 0x80, 0x00] : Bytes).length ≤ 8
    ∧ ∃ value : Int64, decode [0xFF, 0x80, 0x00] 4 = .ok value ∧ value.toInt = -32768
      ∧ byteWidth value.toInt ≤ (Writer.ofBuffer [0, 0, 0]).remaining
      ∧ Writer.writeIntegerContent value.toInt (Writer.ofBuffer [0, 0, 0])
        = .ok 2 ((Writer.ofBuffer [0, 0, 0]).append [0x80, 0x00]) := by
  obtain ⟨value, read, same, narrow, _⟩ :=
    shortest_form.2 [0xFF, 0x80, 0x00] (by decide) (by decide) 4 (by decide)
  have lowest : value.toInt = -32768 := same.trans (by decide)
  have wrote := (shortest_form.1 value).2.2.1 (Writer.ofBuffer [0, 0, 0]) narrow
  refine ⟨by decide, by decide, value, read, lowest, narrow, ?_⟩
  have width : byteWidth (-32768) = 2 := by decide
  have octets : bytes (-32768) = [0x80, 0x00] := by decide
  rw [wrote, lowest, width, octets]

end LdapWire.Ber.Integer
