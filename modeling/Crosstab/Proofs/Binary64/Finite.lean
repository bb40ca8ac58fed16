import Crosstab.Proofs.Binary64.Packing

/-!
# Operations that keep doubles finite

The sign, the absolute value, the nearest whole number, and the smaller or greater one of finite
doubles are finite. What `compose` puts together from units and a power of a finite double is
finite.
-/

namespace Crosstab.Binary64

open Float.Model (Format UnpackedFloat)
open Float.Model.UnpackedFloat

theorem isFinite_packed {u : UnpackedFloat} (hu : Canonical u) :
    (packed u).isFinite = u.isFinite := by
  show (unpacked (packed u)).isFinite = u.isFinite
  rw [unpacked_packed hu]

theorem isFinite_neg (x : Float) : (-x).isFinite = x.isFinite := by
  have hcanonical : Canonical (unpacked x).neg := by
    have hx := canonical_unpacked x
    revert hx
    cases unpacked x <;> exact id
  show (packed (unpacked x).neg).isFinite = (unpacked x).isFinite
  rw [isFinite_packed hcanonical]
  cases unpacked x <;> rfl

theorem isFinite_abs (x : Float) : x.abs.isFinite = x.isFinite := by
  have hcanonical : Canonical (unpacked x).abs := by
    have hx := canonical_unpacked x
    revert hx
    cases unpacked x <;> exact id
  show (packed (unpacked x).abs).isFinite = (unpacked x).isFinite
  rw [isFinite_packed hcanonical]
  cases unpacked x <;> rfl

section
variable {x y : Float} (hx : x.isFinite = true) (hy : y.isFinite = true)
include hx hy

theorem isFinite_lesser : (lesser x y).isFinite = true := by
  rw [lesser]
  split_ifs <;> assumption

theorem isFinite_greater : (greater x y).isFinite = true := by
  rw [greater]
  split_ifs <;> assumption

end

/-! ### Rounding -/

/-- Bits are those of a finite double unless the exponent has all ones. -/
theorem isFinite_unpack {b : BitVec Format.binary64.numBits} :
    b.toNat / 2 ^ 52 % 2 ^ 11 ≠ 2047 → (unpack .binary64 b).isFinite = true := by
  induction b using unpack_cases with
  | infinity s =>
    rw [toNat_packComponents]
    cases s <;> simp [isMinus]
  | notANumber s m hm =>
    have hlt : m.toNat < 2 ^ 52 := m.isLt
    have hones : (2047#11).toNat = 2047 := rfl
    rw [toNat_packComponents, hones]
    intro h
    cases s <;> simp [isMinus] at h <;> omega
  | zero s | subnormal s m hm | normal s e m hzero hones => exact fun _ => rfl

theorem isFinite_ofBits {n : Nat} (hn : n % 2 ^ 64 / 2 ^ 52 % 2 ^ 11 ≠ 2047) :
    (Float.ofBits (UInt64.ofNat n)).isFinite = true := by
  show (packed (unpack .binary64 (UInt64.ofNat n).toBitVec)).isFinite = true
  rw [isFinite_packed (canonical_unpack _)]
  exact isFinite_unpack hn

theorem lt_two_pow_bitLength (n : Nat) : n < 2 ^ bitLength n := by
  rw [bitLength]
  split_ifs with hn
  · omega
  · exact Nat.lt_log2_self

theorem bitLength_le {n : Nat} (hn : n < 2 ^ 53) : bitLength n ≤ 53 := by
  rw [bitLength]
  split_ifs with hzero
  · omega
  · exact (Nat.log2_lt hzero).2 hn

theorem isFinite_compose (negative : Bool) {units : Nat} (hunits : units < 2 ^ 53) {power : Int}
    (hpower : power ≤ 971) : (compose negative units power).isFinite = true := by
  have hbits := bitLength_le hunits
  have hleast : leastPower = -1074 := rfl
  rw [compose]
  generalize hshift : min (53 - bitLength units) (power - leastPower).toNat = shift
  have hshifted : units * twoTo shift < 2 ^ 53 := by
    have hsplit : 2 ^ bitLength units * 2 ^ (53 - bitLength units) = 2 ^ 53 := by
      rw [← Nat.pow_add]
      congr 1
      omega
    have hpow : twoTo shift ≤ 2 ^ (53 - bitLength units) :=
      Nat.pow_le_pow_right Nat.two_pos (by omega)
    rw [← hsplit]
    exact Nat.mul_lt_mul_of_lt_of_le (lt_two_pow_bitLength units) hpow (Nat.two_pow_pos _)
  generalize units * twoTo shift = shifted at hshifted
  apply isFinite_ofBits
  have htwo : twoTo 52 = 2 ^ 52 := rfl
  have hsign : (if negative then twoTo 63 else 0) = 0 ∨
      (if negative then twoTo 63 else 0) = 2 ^ 63 := by
    cases negative
    · exact .inl rfl
    · exact .inr rfl
  have hmagnitude : (if shifted < twoTo 52 then shifted
      else ((power - leastPower).toNat - shift + 1) * twoTo 52 + (shifted - twoTo 52)) <
        2047 * 2 ^ 52 := by
    rw [htwo]
    split_ifs <;> omega
  omega

theorem units_lt {x : Float} {negative : Bool} {units : Nat} {power : Int}
    (h : Reading.ofFloat x = .finite negative units power) : units < 2 ^ 53 := by
  have hcanonical := canonical_unpacked x
  rw [ofFloat_eq] at h
  match unpacked x, hcanonical, h with
  | .zero s, _, h => cases h; decide
  | .finite s m e hm, hfits, h => cases h; exact hfits.lt

theorem isFinite_roundHalfAway {x : Float} (hx : x.isFinite = true) :
    (roundHalfAway x).isFinite = true := by
  rw [roundHalfAway]
  split
  · rename_i negative units power hread
    split_ifs
    · exact hx
    · have hunits := units_lt hread
      apply isFinite_compose
      · have hhalf : 0 < twoTo ((-power).toNat - 1) := Nat.pow_pos Nat.two_pos
        apply Nat.div_lt_of_lt_mul
        omega
      · omega
  · exact hx

end Crosstab.Binary64
