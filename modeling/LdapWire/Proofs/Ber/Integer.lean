import LdapWire.Ber.Integer
import Mathlib.Tactic.Ring
import Mathlib.Tactic.Linarith

/-!
# Integers there and back

`signed` reads octets as a number modulo a power of 256, within half of it to
either side of zero, and these two facts determine it. Hence the octets of a
number that fits spell it (`signed_octets`), and no form of a number has fewer
octets than `byteWidth` (`byteWidth_signed_le`).
-/

set_option autoImplicit false

namespace LdapWire.Ber.Integer

/-! ## Unsigned numbers -/

theorem foldl_eq_unsigned (content : Bytes) (start : Nat) :
    content.foldl (fun value octet => 256 * value + octet.toNat) start
      = start * 256 ^ content.length + unsigned content := by
  induction content generalizing start with
  | nil => simp [unsigned]
  | cons octet rest further =>
      rw [unsigned, List.foldl_cons, List.foldl_cons, further (256 * start + octet.toNat),
        further (256 * 0 + octet.toNat), List.length_cons, pow_succ]
      ring

theorem unsigned_cons (octet : UInt8) (rest : Bytes) :
    unsigned (octet :: rest) = octet.toNat * 256 ^ rest.length + unsigned rest := by
  rw [unsigned, List.foldl_cons, foldl_eq_unsigned]
  ring

theorem unsigned_concat (content : Bytes) (octet : UInt8) :
    unsigned (content ++ [octet]) = 256 * unsigned content + octet.toNat := by
  simp [unsigned, List.foldl_append]

theorem unsigned_lt (content : Bytes) : unsigned content < 256 ^ content.length := by
  induction content with
  | nil => simp [unsigned]
  | cons octet rest smaller =>
      have digit : octet.toNat ≤ 255 := Nat.le_of_lt_succ octet.toNat_lt
      have scaled : octet.toNat * 256 ^ rest.length ≤ 255 * 256 ^ rest.length :=
        Nat.mul_le_mul_right _ digit
      rw [unsigned_cons, List.length_cons, pow_succ]
      linarith

/-- The remainder of a number is spelled by that of its quotient and one more digit. -/
theorem emod_mul (value : Int) {base modulus : Int} (base_pos : 0 < base)
    (modulus_pos : 0 < modulus) :
    value % (base * modulus) = value % base + base * (value / base % modulus) := by
  have low := Int.emod_nonneg value base_pos.ne'
  have high := Int.emod_lt_of_pos value base_pos
  have quotientLow := Int.emod_nonneg (value / base) modulus_pos.ne'
  have quotientHigh := Int.emod_lt_of_pos (value / base) modulus_pos
  have spelled : value
      = (value % base + base * (value / base % modulus))
        + base * modulus * (value / base / modulus) := by
    have outer := Int.emod_add_mul_ediv value base
    have inner := Int.emod_add_mul_ediv (value / base) modulus
    calc value = value % base + base * (value / base) := outer.symm
      _ = value % base
            + base * (value / base % modulus + modulus * (value / base / modulus)) := by rw [inner]
      _ = _ := by ring
  conv_lhs => rw [spelled]
  rw [Int.add_mul_emod_self_left]
  refine Int.emod_eq_of_lt ?_ ?_
  · nlinarith
  · nlinarith

/-- The octets of a number are its base-256 digits, as many as there is room for. -/
theorem unsigned_octets (width : Nat) (value : Int) :
    (unsigned (octets width value) : Int) = value % 256 ^ width := by
  induction width generalizing value with
  | zero => simp [octets, unsigned]
  | succ width shorter =>
      have digit : ((UInt8.ofNat (value % 256).toNat).toNat : Int) = value % 256 := by
        have low : 0 ≤ value % 256 := Int.emod_nonneg value (by decide)
        have high : value % 256 < 256 := Int.emod_lt_of_pos value (by decide)
        rw [UInt8.toNat_ofNat_of_lt' (by change _ < 256; omega)]
        omega
      have split_mod : value % (256 * 256 ^ width)
          = value % 256 + 256 * (value / 256 % 256 ^ width) :=
        emod_mul value (by decide) (by positivity)
      rw [octets, unsigned_concat, pow_succ]
      push_cast
      rw [digit, shorter, mul_comm ((256 : Int) ^ width) 256, split_mod]
      ring

/-! ## Signed numbers -/

theorem spell_eq (start : Int) (content : Bytes) :
    spell start content = start * 256 ^ content.length + unsigned content := by
  induction content generalizing start with
  | nil => simp [spell, unsigned]
  | cons octet rest further =>
      have unfolded : spell start (octet :: rest) = spell (256 * start + octet.toNat) rest := rfl
      rw [unfolded, further, unsigned_cons, List.length_cons, pow_succ]
      push_cast
      ring

/-- The sign of octets is that of the first: the number lies within half of the
modulus to either side of zero. -/
theorem signed_bounds (first : UInt8) (rest : Bytes) :
    -(128 * 256 ^ rest.length) ≤ signed (first :: rest)
      ∧ signed (first :: rest) < 128 * 256 ^ rest.length := by
  have below : (unsigned rest : Int) < 256 ^ rest.length := by exact_mod_cast unsigned_lt rest
  have positive : (0 : Int) < 256 ^ rest.length := by positivity
  have digit : (first.toNat : Int) ≤ 255 := by
    exact_mod_cast Nat.le_of_lt_succ first.toNat_lt
  rw [signed, spell_eq, unsigned_cons, List.length_cons, pow_succ]
  push_cast
  by_cases small : first < 0x80
  · have low : (first.toNat : Int) ≤ 127 := by
      exact_mod_cast Nat.le_of_lt_succ (UInt8.lt_iff_toNat_lt.1 small)
    rw [if_pos small]
    constructor <;> nlinarith
  · have high : (128 : Int) ≤ first.toNat := by
      exact_mod_cast Nat.not_lt.1 (mt UInt8.lt_iff_toNat_lt.2 small)
    rw [if_neg small]
    constructor <;> nlinarith

theorem signed_emod (content : Bytes) :
    signed content % 256 ^ content.length = (unsigned content : Int) := by
  have low : (0 : Int) ≤ unsigned content := Int.natCast_nonneg _
  have high : (unsigned content : Int) < 256 ^ content.length := by
    exact_mod_cast unsigned_lt content
  cases content with
  | nil => rfl
  | cons first rest =>
      rw [signed, spell_eq]
      rw [add_comm, Int.add_mul_emod_self_right]
      exact Int.emod_eq_of_lt low high

/-- Two numbers within half of the modulus are equal if they are equal modulo it. -/
theorem eq_of_emod_eq {half left right : Int} (leftLow : -half ≤ left) (leftHigh : left < half)
    (rightLow : -half ≤ right) (rightHigh : right < half)
    (same : left % (2 * half) = right % (2 * half)) : left = right := by
  have divides : 2 * half ∣ left - right := Int.dvd_of_emod_eq_zero (Int.emod_emod_of_dvd _
    (dvd_refl _) ▸ Int.emod_eq_emod_iff_emod_sub_eq_zero.1 same)
  obtain ⟨quotient, product⟩ := divides
  have zero : quotient = 0 := by
    by_contra nonzero
    rcases Int.lt_or_gt_of_ne nonzero with negative | positive
    · nlinarith
    · nlinarith
  rw [zero, mul_zero] at product
  exact sub_eq_zero.1 product

/-- The octets of a number spell it if there are enough of them. -/
theorem signed_octets {width : Nat} {value : Int} (low : -(128 * 256 ^ width) ≤ value)
    (high : value < 128 * 256 ^ width) : signed (octets (width + 1) value) = value := by
  have size : (octets (width + 1) value).length = width + 1 := length_octets (width + 1) value
  cases spelled : octets (width + 1) value with
  | nil =>
      rw [spelled] at size
      cases size
  | cons first rest =>
      rw [spelled, List.length_cons] at size
      have restSize : rest.length = width := Nat.succ.inj size
      obtain ⟨readLow, readHigh⟩ := signed_bounds first rest
      rw [restSize] at readLow readHigh
      have same : signed (first :: rest) % 256 ^ (width + 1) = value % 256 ^ (width + 1) := by
        have read := signed_emod (first :: rest)
        rw [List.length_cons, restSize] at read
        rw [read, ← spelled, unsigned_octets]
      have modulus : (256 : Int) ^ (width + 1) = 2 * (128 * 256 ^ width) := by
        rw [pow_succ]
        ring
      rw [modulus] at same
      exact eq_of_emod_eq readLow readHigh low high same

/-! ## The shortest form -/

theorem bitLength_le_iff {value bits : Nat} : bitLength value ≤ bits ↔ value < 2 ^ bits := by
  unfold bitLength
  by_cases zero : value = 0
  · simp [zero]
  · rw [if_neg zero, Nat.succ_le_iff, Nat.log2_lt zero]

/-- A width holds a value if and only if the shortest form is no wider. -/
theorem byteWidth_le_iff {width : Nat} {value : Int} :
    byteWidth value ≤ width + 1 ↔ -(128 * 256 ^ width) ≤ value ∧ value < 128 * 256 ^ width := by
  have power : 2 ^ (8 * width + 7) = 128 * 256 ^ width := by
    rw [pow_add, pow_mul]
    ring
  have bits : ∀ magnitude : Nat,
      bitLength magnitude / 8 + 1 ≤ width + 1 ↔ magnitude < 128 * 256 ^ width := by
    intro magnitude
    rw [← power, ← bitLength_le_iff]
    omega
  have cast : ((128 * 256 ^ width : Nat) : Int) = 128 * 256 ^ width := by push_cast; rfl
  rw [byteWidth, bits, ← cast]
  split <;> omega

theorem byteWidth_pos (value : Int) : 0 < byteWidth value := Nat.succ_pos _

/-- No form of a number is shorter than the shortest form. -/
theorem byteWidth_signed_le {content : Bytes} (nonempty : content ≠ []) :
    byteWidth (signed content) ≤ content.length := by
  cases content with
  | nil => exact absurd rfl nonempty
  | cons first rest => exact byteWidth_le_iff.2 (signed_bounds first rest)

/-- The shortest form of a number spells it. -/
theorem signed_bytes (value : Int) : signed (bytes value) = value := by
  obtain ⟨width, size⟩ := Nat.exists_eq_succ_of_ne_zero (byteWidth_pos value).ne'
  obtain ⟨low, high⟩ := byteWidth_le_iff.1 (Nat.le_of_eq size)
  rw [bytes, size]
  exact signed_octets low high

/-! ## The integers of messages -/

theorem toInt_bounds (value : Int32) :
    -(128 * 256 ^ 3) ≤ value.toInt ∧ value.toInt < 128 * 256 ^ 3 := by
  have low := value.le_toInt
  have high := value.toInt_lt
  constructor <;> norm_num at * <;> omega

theorem byteWidth_toInt_le (value : Int32) : byteWidth value.toInt ≤ maxSize :=
  byteWidth_le_iff.2 (toInt_bounds value)

end LdapWire.Ber.Integer
