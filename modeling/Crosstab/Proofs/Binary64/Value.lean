import Crosstab.Proofs.Binary64.Rounding

/-!
# The values of doubles

`value` is the rational number that a finite double stands for. Doubles of one value are equal as
doubles, whole numbers of fewer than 54 binary digits are values, and a sum that is a value is not
rounded.
-/

namespace Crosstab.Binary64

open Float.Model (Format UnpackedFloat)
open Float.Model.UnpackedFloat

/-- The number that a reading stands for, and 0 for the readings that stand for none. -/
def Reading.value : Reading → ℚ
  | finite negative units power => (if negative then -1 else 1) * units * 2 ^ power
  | _ => 0

def value (x : Float) : ℚ := (Reading.ofFloat x).value

def scaled : UnpackedFloat → ℤ
  | .finite s m e _ => s.apply (steps m e)
  | _ => 0

def unitsPerOne : ℕ := steps 1 0

theorem unitsPerOne_pos : 0 < unitsPerOne := steps_pos Nat.one_pos 0

theorem unitsPerOne_ne_zero : (unitsPerOne : ℚ) ≠ 0 := Nat.cast_ne_zero.2 unitsPerOne_pos.ne'

theorem unitsPerOne_eq {k l : ℕ} (h : k + l = 1074) : unitsPerOne = 2 ^ k * 2 ^ l := by
  have hexponent : ((0 : ℤ) + 1074).toNat = k + l := by omega
  rw [unitsPerOne, steps, hexponent, pow_add, one_mul]

theorem steps_le_steps (m : ℕ) {e e' : ℤ} (h : e ≤ e') : steps m e ≤ steps m e' :=
  Nat.mul_le_mul_left m (Nat.pow_le_pow_right two_pos (by omega))

theorem steps_eq_mul (m : ℕ) (e : ℤ) : steps m e = m * steps 1 e := by
  rw [steps, steps, one_mul]

theorem steps_eq {m : ℕ} {e : ℤ} (he : -1074 ≤ e) :
    (steps m e : ℚ) = m * 2 ^ e * unitsPerOne := by
  have hnat : ((e + 1074).toNat : ℤ) = e + 1074 := Int.toNat_of_nonneg (by omega)
  have hnat' : (((0 : ℤ) + 1074).toNat : ℤ) = 1074 := rfl
  rw [unitsPerOne, steps, steps, one_mul, Nat.cast_mul, Nat.cast_pow, Nat.cast_pow, Nat.cast_ofNat,
    ← zpow_natCast, ← zpow_natCast, hnat, hnat', zpow_add₀ two_ne_zero, mul_assoc]

theorem value_eq_scaled (x : Float) : value x * unitsPerOne = scaled (unpacked x) := by
  have hcanonical := canonical_unpacked x
  rw [value, ofFloat_eq]
  match unpacked x, hcanonical with
  | .notANumber, _ | .infinity s, _ =>
    simp only [readingOf, Reading.value, scaled, zero_mul, Int.cast_zero]
  | .zero s, _ =>
    simp only [readingOf, Reading.value, scaled, Nat.cast_zero, mul_zero, zero_mul, Int.cast_zero]
  | .finite s m e hm, h =>
    cases s <;>
      simp only [readingOf, Reading.value, scaled, isMinus, Sign.apply, Int.cast_neg,
        Int.cast_natCast, steps_eq h.least, Bool.false_eq_true, if_true, if_false, one_mul, neg_mul]

theorem value_zero : value 0.0 = 0 := by
  rw [value, ofFloat_eq]
  show Reading.value (.finite false 0 leastPower) = 0
  simp [Reading.value]

theorem value_eq_iff {x y : Float} :
    value x = value y ↔ scaled (unpacked x) = scaled (unpacked y) := by
  rw [← Int.cast_inj (α := ℚ), ← value_eq_scaled, ← value_eq_scaled]
  exact (mul_left_inj' unitsPerOne_ne_zero).symm

theorem value_eq_add_iff {x y z : Float} :
    value z = value x + value y ↔
      scaled (unpacked z) = scaled (unpacked x) + scaled (unpacked y) := by
  rw [← Int.cast_inj (α := ℚ), Int.cast_add, ← value_eq_scaled, ← value_eq_scaled,
    ← value_eq_scaled, ← add_mul]
  exact (mul_left_inj' unitsPerOne_ne_zero).symm

/-! ### Equal values -/

theorem scaled_pos_iff {u : UnpackedFloat} :
    0 < scaled u ↔ ∃ m e hm, u = .finite .positive m e hm := by
  match u with
  | .notANumber | .infinity s | .zero s => simp [scaled]
  | .finite .positive m e hm => simp [scaled, Sign.apply, steps_pos hm, hm]
  | .finite .negative m e hm => simp [scaled, Sign.apply]

theorem scaled_neg_iff {u : UnpackedFloat} :
    scaled u < 0 ↔ ∃ m e hm, u = .finite .negative m e hm := by
  match u with
  | .notANumber | .infinity s | .zero s => simp [scaled]
  | .finite .negative m e hm => simp [scaled, Sign.apply, steps_pos hm, hm]
  | .finite .positive m e hm => simp [scaled, Sign.apply]

theorem scaled_eq_zero_iff {u : UnpackedFloat} (hu : u.isFinite = true) :
    scaled u = 0 ↔ ∃ s, u = .zero s := by
  match u, hu with
  | .zero s, _ => simp [scaled]
  | .finite .positive m e hm, _ => simp [scaled, Sign.apply, Nat.ne_of_gt (steps_pos hm e)]
  | .finite .negative m e hm, _ => simp [scaled, Sign.apply, Nat.ne_of_gt (steps_pos hm e)]

theorem compare_of_steps (s : Sign) {m m' : ℕ} {e e' : ℤ} (h : Fits m e) (h' : Fits m' e')
    (hm : 0 < m) (hm' : 0 < m') (hsteps : steps m' e' = steps m e) :
    (UnpackedFloat.finite s m e hm).compare (.finite s m' e' hm') = some .eq := by
  obtain ⟨rfl, rfl⟩ := Fits.unique h h' hm hm' hsteps
  cases s <;> simp [UnpackedFloat.compare]

/-- Unpacked numbers of one value compare as equal. -/
theorem compare_of_scaled {u v : UnpackedFloat} (hu : Canonical u) (hv : Canonical v)
    (hu' : u.isFinite = true) (hv' : v.isFinite = true) (h : scaled u = scaled v) :
    u.compare v = some .eq := by
  rcases lt_trichotomy (scaled u) 0 with hlt | heq | hgt
  · obtain ⟨m, e, hm, rfl⟩ := scaled_neg_iff.1 hlt
    obtain ⟨m', e', hm', rfl⟩ := scaled_neg_iff.1 (h ▸ hlt)
    simp only [scaled, Sign.apply] at h
    exact compare_of_steps _ hu hv hm hm' (by omega)
  · obtain ⟨s, rfl⟩ := (scaled_eq_zero_iff hu').1 heq
    obtain ⟨s', rfl⟩ := (scaled_eq_zero_iff hv').1 (h ▸ heq)
    rfl
  · obtain ⟨m, e, hm, rfl⟩ := scaled_pos_iff.1 hgt
    obtain ⟨m', e', hm', rfl⟩ := scaled_pos_iff.1 (h ▸ hgt)
    simp only [scaled, Sign.apply] at h
    exact compare_of_steps _ hu hv hm hm' (by omega)

/-- Finite doubles of one value are equal as doubles. -/
theorem beq_of_value_eq {x y : Float} (hx : x.isFinite = true) (hy : y.isFinite = true)
    (h : value x = value y) : (x == y) = true := by
  have hcompare := compare_of_scaled (canonical_unpacked x) (canonical_unpacked y) hx hy
    (value_eq_iff.1 h)
  show ((unpacked x).compare (unpacked y) == some .eq) = true
  rw [hcompare]
  rfl

/-! ### Sums that are not rounded -/

/-- An unpacked number counted with its mantissa moved to a smaller exponent. -/
theorem apply_steps (s : Sign) (m : ℕ) {e e' : ℤ} (hle : e' ≤ e) (he' : -1074 ≤ e') :
    s.apply (steps m e) = s.apply (m <<< (e - e').toNat : ℕ) * 2 ^ (e' + 1074).toNat := by
  have hsplit : (e + 1074).toNat = (e - e').toNat + (e' + 1074).toNat := by omega
  rw [steps, hsplit, pow_add, ← mul_assoc, Nat.shiftLeft_eq]
  cases s <;> simp [Sign.apply]

theorem cast_steps_toNat {k : ℤ} (hk : 0 ≤ k) (e : ℤ) :
    (steps k.toNat e : ℤ) = k * 2 ^ (e + 1074).toNat := by
  rw [steps, Nat.cast_mul, Int.toNat_of_nonneg hk]
  norm_cast

/-- A signed mantissa that stands for a double is normalized to it. -/
theorem normalize_exact {w : UnpackedFloat} (hw : Canonical w) {k e : ℤ} (he : -1074 ≤ e)
    (h : scaled w = k * 2 ^ (e + 1074).toNat) (s : Sign) :
    UnpackedFloat.normalize .binary64 k e s = w ∨
      scaled w = 0 ∧ UnpackedFloat.normalize .binary64 k e s = .zero s := by
  have hpow : (0 : ℤ) < 2 ^ (e + 1074).toNat := by positivity
  rcases lt_trichotomy k 0 with hlt | rfl | hgt
  · obtain ⟨m', e', hm', rfl⟩ := scaled_neg_iff.1 (h ▸ mul_neg_of_neg_of_pos hlt hpow)
    have hsteps : steps (-k).toNat e = steps m' e' := by
      have hk := cast_steps_toNat (k := -k) (by omega) e
      simp only [scaled, Sign.apply] at h
      rw [neg_mul, ← h, neg_neg] at hk
      exact_mod_cast hk
    have hcompare : compare k 0 = .lt := compare_lt_iff_lt.2 hlt
    left
    simp only [UnpackedFloat.normalize, hcompare]
    exact round_exact .negative hw hm' (by omega) he hsteps
  · right
    rw [h, zero_mul]
    exact ⟨rfl, rfl⟩
  · obtain ⟨m', e', hm', rfl⟩ := scaled_pos_iff.1 (h ▸ mul_pos hgt hpow)
    have hsteps : steps k.toNat e = steps m' e' := by
      have hk := cast_steps_toNat (k := k) (by omega) e
      simp only [scaled, Sign.apply] at h
      rw [← h] at hk
      exact_mod_cast hk
    have hcompare : compare k 0 = .gt := compare_gt_iff_gt.2 hgt
    left
    simp only [UnpackedFloat.normalize, hcompare]
    exact round_exact .positive hw hm' (by omega) he hsteps

theorem add_finite_exact {s s' : Sign} {m m' : ℕ} {e e' : ℤ} (hm : 0 < m) (hm' : 0 < m')
    (he : -1074 ≤ e) (he' : -1074 ≤ e') {w : UnpackedFloat} (hw : Canonical w)
    (h : scaled w = s.apply (steps m e) + s'.apply (steps m' e')) :
    add .binary64 (.finite s m e hm) (.finite s' m' e' hm') = w ∨
      scaled w = 0 ∧ add .binary64 (.finite s m e hm) (.finite s' m' e' hm') = .zero .positive := by
  have hleast : -1074 ≤ min e e' := le_min he he'
  have hsum : scaled w = (s.apply (m <<< (e - min e e').toNat : ℕ) +
      s'.apply (m' <<< (e' - min e e').toNat : ℕ)) * 2 ^ (min e e' + 1074).toNat := by
    rw [h, add_mul, ← apply_steps s m (min_le_left e e') hleast,
      ← apply_steps s' m' (min_le_right e e') hleast]
  exact normalize_exact hw hleast hsum .positive

theorem add_exact {u v w : UnpackedFloat} (hu : Canonical u) (hv : Canonical v) (hw : Canonical w)
    (hu' : u.isFinite = true) (hv' : v.isFinite = true) (hw' : w.isFinite = true)
    (h : scaled w = scaled u + scaled v) :
    Canonical (add .binary64 u v) ∧ (add .binary64 u v).isFinite = true ∧
      scaled (add .binary64 u v) = scaled w := by
  cases u with
  | notANumber | infinity s => cases hu'
  | zero s =>
    cases v with
    | notANumber | infinity s' => cases hv'
    | zero s' =>
      rw [h]
      cases s <;> cases s' <;> exact ⟨trivial, rfl, rfl⟩
    | finite s' m' e' hm' =>
      rw [h]
      exact ⟨hv, rfl, (zero_add _).symm⟩
  | finite s m e hm =>
    cases v with
    | notANumber | infinity s' => cases hv'
    | zero s' =>
      rw [h]
      exact ⟨hu, rfl, (add_zero _).symm⟩
    | finite s' m' e' hm' =>
      rcases add_finite_exact hm hm' hu.least hv.least hw h with hsum | ⟨hzero, hsum⟩
      · rw [hsum]
        exact ⟨hw, hw', rfl⟩
      · rw [hsum, hzero]
        exact ⟨trivial, rfl, rfl⟩

/-- A sum of two doubles that is a double has that value. -/
theorem value_add {x y z : Float} (hx : x.isFinite = true) (hy : y.isFinite = true)
    (hz : z.isFinite = true) (h : value z = value x + value y) :
    (x + y).isFinite = true ∧ value (x + y) = value x + value y := by
  obtain ⟨hcanonical, hfinite, hscaled⟩ := add_exact (canonical_unpacked x) (canonical_unpacked y)
    (canonical_unpacked z) hx hy hz (value_eq_add_iff.1 h)
  have hunpacked : unpacked (x + y) = add .binary64 (unpacked x) (unpacked y) :=
    unpacked_packed hcanonical
  constructor
  · show (unpacked (x + y)).isFinite = true
    rw [hunpacked, hfinite]
  · rw [← h, value_eq_iff, hunpacked, hscaled]

/-! ### Whole numbers -/

theorem exists_fits {n : ℕ} (hpos : 0 < n) (hn : n < 2 ^ 53) :
    ∃ m e, Fits m e ∧ 0 < m ∧ steps m e = n * unitsPerOne := by
  have hlog : n.log2 < 53 := (Nat.log2_lt (Nat.ne_of_gt hpos)).2 hn
  have hle := Nat.log2_self_le (Nat.ne_of_gt hpos)
  have hlt := Nat.lt_log2_self (n := n)
  have hfull : 2 ^ n.log2 * 2 ^ (52 - n.log2) = 2 ^ 52 := by
    rw [← pow_add]
    congr 1
    omega
  have htop : 2 ^ (n.log2 + 1) * 2 ^ (52 - n.log2) = 2 ^ 53 := by
    rw [← pow_add]
    congr 1
    omega
  have hscale : 0 < 2 ^ (52 - n.log2) := by positivity
  refine ⟨n * 2 ^ (52 - n.log2), n.log2 - 52, ⟨?_, by omega, by omega, .inl ?_⟩,
    Nat.mul_pos hpos hscale, ?_⟩
  · rw [← htop]
    exact Nat.mul_lt_mul_of_pos_right hlt hscale
  · rw [← hfull]
    exact Nat.mul_le_mul_right _ hle
  · have hexponent : ((n.log2 : ℤ) - 52 + 1074).toNat = 1022 + n.log2 := by omega
    rw [steps, hexponent, mul_assoc, ← unitsPerOne_eq (by omega)]

theorem exists_scaled {k : ℤ} (hk : k.natAbs < 2 ^ 53) :
    ∃ u : UnpackedFloat, Canonical u ∧ u.isFinite = true ∧ scaled u = k * unitsPerOne := by
  rcases lt_trichotomy k 0 with hlt | rfl | hgt
  · obtain ⟨m, e, hfits, hm, hsteps⟩ := exists_fits (Int.natAbs_pos.2 hlt.ne) hk
    refine ⟨.finite .negative m e hm, hfits, rfl, ?_⟩
    have habs : (k.natAbs : ℤ) = -k := Int.ofNat_natAbs_of_nonpos hlt.le
    rw [scaled, Sign.apply, hsteps, Nat.cast_mul, habs, neg_mul, neg_neg]
  · exact ⟨.zero .positive, trivial, rfl, (zero_mul _).symm⟩
  · obtain ⟨m, e, hfits, hm, hsteps⟩ := exists_fits (Int.natAbs_pos.2 hgt.ne') hk
    refine ⟨.finite .positive m e hm, hfits, rfl, ?_⟩
    have habs : (k.natAbs : ℤ) = k := Int.natAbs_of_nonneg hgt.le
    rw [scaled, Sign.apply, hsteps, Nat.cast_mul, habs]

/-- Every whole number below `2 ^ 53` is the value of a double. -/
theorem exists_value_eq {k : ℤ} (hk : k.natAbs < 2 ^ 53) :
    ∃ z : Float, z.isFinite = true ∧ value z = k := by
  obtain ⟨u, hu, hfinite, hscaled⟩ := exists_scaled hk
  have hunpacked := unpacked_packed hu
  refine ⟨packed u, ?_, ?_⟩
  · show (unpacked (packed u)).isFinite = true
    rw [hunpacked, hfinite]
  · have hvalue := value_eq_scaled (packed u)
    rw [hunpacked, hscaled, Int.cast_mul, Int.cast_natCast] at hvalue
    exact mul_right_cancel₀ unitsPerOne_ne_zero hvalue

/-! ### Counts -/

theorem toFloat_toUInt64 {n : ℕ} (hn : n < 2 ^ 53) :
    n.toUInt64.toFloat = packed (UnpackedFloat.normalize .binary64 n 0 .positive) := by
  have htoNat : n.toUInt64.toNat = n := UInt64.toNat_ofNat_of_lt (Nat.lt_trans hn (by decide))
  show packed (UnpackedFloat.normalize .binary64 (n.toUInt64.toNat : ℕ) 0 .positive) = _
  rw [htoNat]

theorem ofNat_eq (n : ℕ) : Float.ofNat n =
    if n < 2 ^ 53 then n.toUInt64.toFloat * 1.0
    else packed (ofScientific .binary64 n 0) := by
  show Float.ofScientific n false 0 = _
  rw [Float.ofScientific]
  by_cases hn : n < 2 ^ 53
  · rw [dif_pos ⟨hn, Nat.zero_le 22⟩, if_pos hn]
    rfl
  · rw [dif_neg (fun h => hn h.1), if_neg hn]
    rfl

theorem ofScientific_of_pos {n : ℕ} (hn : 0 < n) :
    ofScientific .binary64 n 0 =
      roundWithAccuracy .binary64 .positive ((n <<< 53) * 10 ^ 0) (-53 + 0) .exact := by
  have hsmall : ¬ (0 : ℤ) > 2 ^ Format.binary64.exponentBits := by decide
  have hlarge : ¬ (0 : ℤ) < -((2 ^ Format.binary64.exponentBits : ℤ) + n.log2) := by
    show ¬ (0 : ℤ) < -((2 ^ 11 : ℤ) + n.log2)
    omega
  rw [ofScientific, dif_neg hn.ne', if_neg hsmall, if_neg hlarge, if_pos (Int.le_refl 0)]
  rfl

theorem steps_shiftLeft (n : ℕ) {k : ℕ} (hk : k ≤ 1074) :
    steps (n <<< k) (-k) = n * unitsPerOne := by
  have hexponent : (-(k : ℤ) + 1074).toNat = 1074 - k := by omega
  rw [steps, hexponent, Nat.shiftLeft_eq, mul_assoc, ← unitsPerOne_eq (by omega)]

/-- A count that is the value of a double is turned into that double. -/
theorem ofNat_exact {n : ℕ} (hpos : 0 < n) {w : UnpackedFloat} (hw : Canonical w)
    (h : scaled w = n * unitsPerOne) : Float.ofNat n = packed w := by
  have hone : (unitsPerOne : ℤ) = 2 ^ ((0 : ℤ) + 1074).toNat := by
    rw [unitsPerOne, steps, one_mul, Nat.cast_pow, Nat.cast_ofNat]
  have hscaled : 0 < scaled w := by
    rw [h]
    exact_mod_cast Nat.mul_pos hpos unitsPerOne_pos
  rw [ofNat_eq]
  split_ifs with hn
  · rw [hone] at h
    rcases normalize_exact hw (by omega) h .positive with hnormal | ⟨hzero, -⟩
    · rw [float_mul_one, toFloat_toUInt64 hn, hnormal]
    · exact absurd hzero hscaled.ne'
  · obtain ⟨m, e, hm, rfl⟩ := scaled_pos_iff.1 hscaled
    have hsteps : steps m e = n * unitsPerOne := by
      simp only [scaled, Sign.apply] at h
      exact_mod_cast h
    have he : 0 < e := by
      by_contra hle
      have hunits : steps 1 e ≤ unitsPerOne := steps_le_steps 1 (by omega)
      have hlt : steps m e < 2 ^ 53 * unitsPerOne := by
        rw [steps_eq_mul]
        exact Nat.mul_lt_mul_of_lt_of_le hw.lt hunits unitsPerOne_pos
      rw [hsteps] at hlt
      exact absurd (Nat.lt_of_mul_lt_mul_right hlt) hn
    have hshift : steps ((n <<< 53) * 10 ^ 0) (-53 + 0) = steps m e := by
      rw [pow_zero, mul_one, add_zero, hsteps]
      exact steps_shiftLeft n (k := 53) (by omega)
    rw [ofScientific_of_pos hpos, roundWithAccuracy_of_steps .positive hw hm (by omega) (by omega)
      hshift]

theorem value_ofNat {n : ℕ} {z : Float} (hz : z.isFinite = true) (h : value z = n) :
    (Float.ofNat n).isFinite = true ∧ value (Float.ofNat n) = n := by
  rcases Nat.eq_zero_or_pos n with rfl | hpos
  · exact ⟨rfl, value_zero⟩
  · have hscaled : scaled (unpacked z) = n * unitsPerOne := by
      have hvalue := value_eq_scaled z
      apply Int.cast_injective (α := ℚ)
      rw [← hvalue, h, Int.cast_mul, Int.cast_natCast, Int.cast_natCast]
    rw [ofNat_exact hpos (canonical_unpacked z) hscaled, packed_unpacked]
    exact ⟨hz, h⟩

end Crosstab.Binary64
