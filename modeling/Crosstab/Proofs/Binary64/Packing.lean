import Mathlib
import Crosstab.Binary64

/-!
# Doubles unpacked

The operations on doubles are defined on unpacked numbers: a sign, a mantissa and an exponent, or an
infinity, a zero or no number. A double is the same as its unpacked number, and every unpacked
number that fits is that of a double. `Reading.ofFloat` reads the same parts off the bits.
-/

namespace Crosstab.Binary64

open Float.Model (Format UnpackedFloat)
open Float.Model.UnpackedFloat

def unpacked (x : Float) : UnpackedFloat := x.toModel.unpack

def packed (u : UnpackedFloat) : Float := .ofModel (.pack u)

/-- The mantissas and exponents of doubles: all 53 digits are used, unless the exponent is the least
one. -/
structure Fits (m : Nat) (e : Int) : Prop where
  lt : m < 2 ^ 53
  least : -1074 ≤ e
  most : e ≤ 971
  full : 2 ^ 52 ≤ m ∨ e = -1074

def Canonical : UnpackedFloat → Prop
  | .finite _ m e _ => Fits m e
  | _ => True

/-! ### Parts of the bits -/

/-- Every row of bits is put together from a sign, an exponent and a mantissa. -/
theorem exists_packComponents (b : BitVec Format.binary64.numBits) :
    ∃ s e m, b = packComponents .binary64 s e m :=
  ⟨_, _, _, (packComponents_unpackSign_unpackExponent_unpackMantissa b).symm⟩

theorem unpack_special (s : Sign) (m : BitVec 52) :
    unpack .binary64 (packComponents .binary64 s 2047#11 m) =
      if m = 0#52 then .infinity s else .notANumber := by
  simp [unpack]

theorem unpack_zero (s : Sign) :
    unpack .binary64 (packComponents .binary64 s 0#11 0#52) = .zero s := by
  simp [unpack]

theorem unpack_subnormal (s : Sign) {m : BitVec 52} (hm : 0 < m.toNat) :
    unpack .binary64 (packComponents .binary64 s 0#11 m) = .finite s m.toNat (-1074) hm := by
  have hne : m ≠ 0#52 := by rintro rfl; exact absurd hm (by decide)
  simp [unpack, hne, Format.exponentBias]

theorem toNat_implicit (m : BitVec 52) : (1#1 ++ m).toNat = 2 ^ 52 + m.toNat := by
  rw [BitVec.toNat_append, ← Nat.shiftLeft_add_eq_or_of_lt m.isLt]
  rfl

theorem unpack_normal (s : Sign) {e : BitVec 11} (hzero : e ≠ 0#11) (hones : e ≠ 2047#11)
    (m : BitVec 52) :
    unpack .binary64 (packComponents .binary64 s e m) =
      .finite s (2 ^ 52 + m.toNat) (e.toNat - 1075) (by omega) := by
  simp [unpack, hzero, hones, toNat_implicit, Format.exponentBias]

theorem log2_add_one_eq_iff {m : Nat} (hm : m < 2 ^ 53) (hpos : 0 < m) :
    m.log2 + 1 = 53 ↔ 2 ^ 52 ≤ m := by
  have hne : m ≠ 0 := Nat.ne_of_gt hpos
  have hlt : m.log2 < 53 := (Nat.log2_lt hne).2 hm
  rw [← Nat.le_log2 hne]
  omega

theorem pack_finite (s : Sign) {m : Nat} {e : Int} (hpos : 0 < m) (h : Fits m e) :
    pack .binary64 (.finite s m e hpos) =
      packComponents .binary64 s
        (if 2 ^ 52 ≤ m then BitVec.ofNat 11 (e + 1075).toNat else 0#11) (BitVec.ofNat 52 m) := by
  have hbiased : (e + (Format.binary64.exponentBias : Nat) +
      (Format.binary64.mantissaBitsWithoutImplicit : Nat)).toNat = (e + 1075).toNat := by
    simp only [Format.exponentBias]
    omega
  have hmost : ¬ 2 ^ 11 ≤ (e + 1075).toNat + 1 := by
    have := h.most
    omega
  have hlog : m.log2 + 1 = Format.binary64.mantissaBits ↔ 2 ^ 52 ≤ m :=
    log2_add_one_eq_iff h.lt hpos
  simp only [pack, hbiased, hmost, hlog, if_false]
  split <;> rfl

/-! ### Both ways -/

theorem unpack_pack {u : UnpackedFloat} (h : Canonical u) :
    unpack .binary64 (pack .binary64 u) = u := by
  match u, h with
  | .infinity s, _ => exact unpack_special s 0#52
  | .notANumber, _ => exact unpack_special .positive _
  | .zero s, _ => exact unpack_zero s
  | .finite s m e hpos, h =>
    have hlt := h.lt
    have hleast := h.least
    have hmost := h.most
    rw [pack_finite s hpos h]
    by_cases hm : 2 ^ 52 ≤ m
    · rw [if_pos hm]
      have he : (BitVec.ofNat 11 (e + 1075).toNat).toNat = (e + 1075).toNat := by
        rw [BitVec.toNat_ofNat]
        omega
      have hmantissa : 2 ^ 52 + (BitVec.ofNat 52 m).toNat = m := by
        rw [BitVec.toNat_ofNat]
        omega
      rw [unpack_normal s (by simp [← BitVec.toNat_inj, he]; omega)
        (by simp [← BitVec.toNat_inj, he]; omega)]
      simp only [hmantissa, he]
      congr 1
      omega
    · rw [if_neg hm]
      have hmantissa : (BitVec.ofNat 52 m).toNat = m := by
        rw [BitVec.toNat_ofNat]
        omega
      obtain rfl : e = -1074 := h.full.resolve_left hm
      rw [unpack_subnormal s (by omega)]
      simp only [hmantissa]

theorem unpacked_packed {u : UnpackedFloat} (h : Canonical u) : unpacked (packed u) = u :=
  unpack_pack h

/-- The five kinds of bits and what they unpack to. -/
theorem unpack_cases {P : BitVec Format.binary64.numBits → UnpackedFloat → Prop}
    (infinity : ∀ s, P (packComponents .binary64 s 2047#11 0#52) (.infinity s))
    (notANumber : ∀ s m, m ≠ 0#52 → P (packComponents .binary64 s 2047#11 m) .notANumber)
    (zero : ∀ s, P (packComponents .binary64 s 0#11 0#52) (.zero s))
    (subnormal : ∀ s (m : BitVec 52) (hm : 0 < m.toNat),
      P (packComponents .binary64 s 0#11 m) (.finite s m.toNat (-1074) hm))
    (normal : ∀ s (e : BitVec 11) (m : BitVec 52), e.toNat ≠ 0 → e.toNat < 2047 →
      P (packComponents .binary64 s e m) (.finite s (2 ^ 52 + m.toNat) (e.toNat - 1075) (by omega)))
    (b : BitVec Format.binary64.numBits) : P b (unpack .binary64 b) := by
  obtain ⟨s, e, m, rfl⟩ := exists_packComponents b
  by_cases hones : e = 2047#11
  · rw [hones, unpack_special]
    split
    · subst m
      exact infinity s
    · exact notANumber s m ‹_›
  · by_cases hzero : e = 0#11
    · by_cases hnone : m = 0#52
      · rw [hzero, hnone, unpack_zero]
        exact zero s
      · have hpos : 0 < m.toNat := by
          simpa [Nat.pos_iff_ne_zero, ← BitVec.toNat_inj] using hnone
        rw [hzero, unpack_subnormal s hpos]
        exact subnormal s m hpos
    · rw [unpack_normal s hzero hones]
      have he : e.toNat < 2 ^ 11 := e.isLt
      have hlast : e.toNat ≠ 2047 := by simpa [← BitVec.toNat_inj] using hones
      exact normal s e m (by simpa [← BitVec.toNat_inj] using hzero) (by omega)

theorem fits_subnormal (m : BitVec 52) : Fits m.toNat (-1074) :=
  ⟨by omega, Int.le_refl _, by omega, .inr rfl⟩

theorem fits_normal {e : BitVec 11} (m : BitVec 52) (hzero : e.toNat ≠ 0) (hones : e.toNat < 2047) :
    Fits (2 ^ 52 + m.toNat) (e.toNat - 1075) :=
  ⟨by omega, by omega, by omega, .inl (by omega)⟩

theorem canonical_unpack (b : BitVec Format.binary64.numBits) :
    Canonical (unpack .binary64 b) := by
  induction b using unpack_cases with
  | infinity s => trivial
  | notANumber s m => trivial
  | zero s => trivial
  | subnormal s m => exact fits_subnormal m
  | normal s e m hzero hones => exact fits_normal m hzero hones

theorem canonical_unpacked (x : Float) : Canonical (unpacked x) := canonical_unpack _

theorem packed_unpacked (x : Float) : packed (unpacked x) = x := by
  obtain ⟨bits, hbits⟩ := x
  show Float.ofModel ⟨UInt64.ofBitVec (pack .binary64 (unpack .binary64 bits.toBitVec)), _⟩ = _
  simp only [pack_unpack_of_valid hbits]

theorem unpacked_injective {x y : Float} (h : unpacked x = unpacked y) : x = y := by
  rw [← packed_unpacked x, ← packed_unpacked y, h]

/-! ### Readings -/

def isMinus : Sign → Bool
  | .negative => true
  | .positive => false

def readingOf : UnpackedFloat → Reading
  | .notANumber => .nan
  | .infinity s => .infinite (isMinus s)
  | .zero s => .finite (isMinus s) 0 leastPower
  | .finite s m e _ => .finite (isMinus s) m e

theorem toNat_packComponents (s : Sign) (e : BitVec 11) (m : BitVec 52) :
    (packComponents .binary64 s e m).toNat =
      (if isMinus s then 2 ^ 63 else 0) + e.toNat * 2 ^ 52 + m.toNat := by
  rw [packComponents, BitVec.toNat_append, BitVec.toNat_append,
    ← Nat.shiftLeft_add_eq_or_of_lt m.isLt, ← Nat.shiftLeft_add_eq_or_of_lt e.isLt]
  cases s with
  | positive => simp [Nat.shiftLeft_eq, isMinus, Sign.toBitVec]
  | negative =>
    simp [Nat.shiftLeft_eq, isMinus, Sign.toBitVec]
    omega

def readingOfParts (negative : Bool) (field fraction : Nat) : Reading :=
  if field = 2047 then
    if fraction = 0 then .infinite negative else .nan
  else if field = 0 then .finite negative fraction leastPower
  else .finite negative (fraction + twoTo 52) (leastPower + (field - 1 : Nat))

theorem ofFloat_eq_parts {x : Float} {s : Sign} {e : BitVec 11} {m : BitVec 52}
    (h : x.toModel.toBits.toBitVec = packComponents .binary64 s e m) :
    Reading.ofFloat x = readingOfParts (isMinus s) e.toNat m.toNat := by
  have hbits : x.toBits.toNat = (if isMinus s then 2 ^ 63 else 0) + e.toNat * 2 ^ 52 + m.toNat := by
    rw [← toNat_packComponents, ← h]
    rfl
  have hm : m.toNat < 2 ^ 52 := m.isLt
  have he : e.toNat < 2 ^ 11 := e.isLt
  have hnegative : decide (twoTo 63 ≤ x.toBits.toNat) = isMinus s := by
    rw [hbits]
    cases s <;> simp [isMinus, twoTo] <;> omega
  have hfield : x.toBits.toNat / twoTo 52 % twoTo 11 = e.toNat := by
    rw [hbits]
    cases s <;> simp [isMinus, twoTo] <;> omega
  have hfraction : x.toBits.toNat % twoTo 52 = m.toNat := by
    rw [hbits]
    cases s <;> simp [isMinus, twoTo] <;> omega
  rw [Reading.ofFloat, hnegative, hfield, hfraction, readingOfParts]

/-- `Reading.ofFloat` reads off what a double is unpacked to. -/
theorem ofFloat_eq (x : Float) : Reading.ofFloat x = readingOf (unpacked x) := by
  have hparts (b : BitVec Format.binary64.numBits) :
      x.toModel.toBits.toBitVec = b → Reading.ofFloat x = readingOf (unpack .binary64 b) := by
    induction b using unpack_cases with
    | infinity s | zero s => exact ofFloat_eq_parts
    | notANumber s m hm =>
      intro h
      have hne : m.toNat ≠ 0 := by simpa [← BitVec.toNat_inj] using hm
      simp [ofFloat_eq_parts h, readingOfParts, readingOf, hne]
    | subnormal s m hpos =>
      intro h
      simp [ofFloat_eq_parts h, readingOfParts, readingOf, leastPower]
    | normal s e m hzero hones =>
      intro h
      have hlast : e.toNat ≠ 2047 := by omega
      simp only [ofFloat_eq_parts h, readingOfParts, readingOf, hzero, hlast, if_false, leastPower,
        twoTo, Reading.finite.injEq, true_and]
      constructor
      · exact Nat.add_comm _ _
      · omega
  exact hparts _ rfl

end Crosstab.Binary64
