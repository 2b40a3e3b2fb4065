import LdapWire.Ber.Length
import LdapWire.Proofs.Ber.Integer

/-!
# Lengths there and back

A length takes `Length.width` octets, more for longer content (`width_mono`), and
no accepted spelling of a length is shorter.
-/

set_option autoImplicit false

namespace LdapWire.Ber.Length

theorem bitLength_mono {less more : Nat} (le : less ≤ more) :
    Integer.bitLength less ≤ Integer.bitLength more :=
  Integer.bitLength_le_iff.2
    (Nat.lt_of_le_of_lt le (Integer.bitLength_le_iff.1 (Nat.le_refl _)))

theorem octetCount_le_iff {length count : Nat} :
    octetCount length ≤ count ↔ length < 256 ^ count := by
  have power : (256 : Nat) ^ count = 2 ^ (8 * count) := by rw [pow_mul]; norm_num
  rw [power, ← Integer.bitLength_le_iff, octetCount]
  omega

theorem octetCount_pos {length : Nat} (long : 0x80 ≤ length) : 0 < octetCount length := by
  refine Nat.pos_of_ne_zero fun none => ?_
  have small := octetCount_le_iff.1 (Nat.le_of_eq none)
  rw [pow_zero] at small
  omega

theorem octetCount_mono {less more : Nat} (le : less ≤ more) :
    octetCount less ≤ octetCount more := by
  have bits := bitLength_mono le
  unfold octetCount
  omega

/-- The first octet of the long form counts those behind it. -/
theorem toNat_longMarker {length : Nat} (few : octetCount length < 0x80) :
    (longMarker length).toNat = 0x80 + octetCount length := by
  rw [longMarker, UInt8.toNat_ofNat']
  omega

/-- Longer content has no shorter length. -/
theorem width_mono {less more : Nat} (le : less ≤ more) : width less ≤ width more := by
  have octets := octetCount_mono le
  unfold width
  split <;> split <;> omega

/-- The octets that spell a length do not depend on its sign, having none. -/
theorem unsigned_longOctets (length : Nat) : Integer.unsigned (longOctets length) = length := by
  have below : length < 256 ^ octetCount length := octetCount_le_iff.1 (Nat.le_refl _)
  have spelled := Integer.unsigned_octets (octetCount length) (length : Int)
  have reduced : (length : Int) % 256 ^ octetCount length = length :=
    Int.emod_eq_of_lt (Int.natCast_nonneg _) (by exact_mod_cast below)
  rw [reduced] at spelled
  exact_mod_cast spelled

end LdapWire.Ber.Length
