import Crosstab.Proofs.Binary64.Packing

/-!
# Rounding what needs no rounding

A mantissa at an exponent stands for a whole number of units of the least power, which is the same
for every way to write one number. A number that is written as a double in one way is rounded to
exactly that double, however it is written.
-/

namespace Crosstab.Binary64

open Float.Model (Format UnpackedFloat totalExponent)
open Float.Model.UnpackedFloat

/-- The units of the least power in a mantissa at an exponent. -/
def steps (m : Nat) (e : Int) : Nat := m * 2 ^ (e + 1074).toNat

theorem steps_pos {m : Nat} (hm : 0 < m) (e : Int) : 0 < steps m e :=
  Nat.mul_pos hm (Nat.pow_pos Nat.two_pos)

theorem log2_mul_two_pow {m : Nat} (hm : 0 < m) (k : Nat) : (m * 2 ^ k).log2 = m.log2 + k := by
  induction k with
  | zero => simp
  | succ k ih =>
    have hpos : m * 2 ^ k ≠ 0 := Nat.ne_of_gt (Nat.mul_pos hm (Nat.pow_pos Nat.two_pos))
    rw [Nat.pow_succ, ← Nat.mul_assoc, Nat.mul_comm, Nat.log2_two_mul hpos, ih]
    omega

theorem totalExponent_eq_steps {m : Nat} (hm : 0 < m) {e : Int} (he : -1074 ≤ e) :
    totalExponent m e = ((steps m e).log2 : Int) - 1073 := by
  rw [totalExponent, steps, log2_mul_two_pow hm]
  omega

theorem targetExponent_eq (t : Int) :
    Format.binary64.targetExponent t = max (t - 53) (-1074) := rfl

/-- A mantissa that fits stands at the exponent that rounding aims at. -/
theorem Fits.targetExponent {m : Nat} {e : Int} (h : Fits m e) (hm : 0 < m) :
    Format.binary64.targetExponent (totalExponent m e) = e := by
  have hlt : m.log2 < 53 := (Nat.log2_lt (Nat.ne_of_gt hm)).2 h.lt
  have hleast := h.least
  rw [targetExponent_eq, totalExponent]
  rcases h.full with hfull | hfull
  · have hlog := (log2_add_one_eq_iff h.lt hm).2 hfull
    omega
  · omega

/-- What rounding aims at does not depend on how the number is written. -/
theorem targetExponent_of_steps {m m' : Nat} {e e' : Int} (h : Fits m e) (hm : 0 < m)
    (hm' : 0 < m') (he' : -1074 ≤ e') (hsteps : steps m' e' = steps m e) :
    Format.binary64.targetExponent (totalExponent m' e') = e := by
  rw [totalExponent_eq_steps hm' he', hsteps, ← totalExponent_eq_steps hm h.least,
    h.targetExponent hm]

theorem shiftRight_exact (m k : Nat) :
    (ExtendedMantissa.mk (m * 2 ^ k) false false) >>> k = ⟨m, false, false⟩ := by
  show Nat.repeat ExtendedMantissa.shiftRightOne k _ = _
  induction k generalizing m with
  | zero => simp [Nat.repeat]
  | succ k ih =>
    have hsplit : m * 2 ^ (k + 1) = (m * 2) * 2 ^ k := by rw [Nat.pow_succ', Nat.mul_assoc]
    rw [Nat.repeat, hsplit, ih]
    simp [ExtendedMantissa.shiftRightOne]

/-- A mantissa written with `k` more digits, all of them zeros, loses them again. -/
theorem roundWithAccuracy_exact (s : Sign) {m : Nat} {e : Int} (h : Fits m e) (hm : 0 < m)
    (k : Nat) :
    roundWithAccuracy .binary64 s (m * 2 ^ k) (e - k) .exact = .finite s m e hm := by
  have htotal : totalExponent (m * 2 ^ k) (e - k) = totalExponent m e := by
    rw [totalExponent, totalExponent, log2_mul_two_pow hm]
    omega
  have hshift : (e - (e - (k : Int))).toNat = k := by omega
  have hback : e - (k : Int) + (k : Int) = e := by omega
  have hagain : (e - e).toNat = 0 := by omega
  have hzeros := shiftRight_exact m k
  have hnone := shiftRight_exact m 0
  rw [Nat.pow_zero, Nat.mul_one] at hnone
  simp only [roundWithAccuracy, shiftToTargetExponent, shiftToExponent, htotal, h.targetExponent hm,
    hshift, hback, ExtendedMantissa.ofMantissaAndAccuracy, hzeros,
    ExtendedMantissa.roundedMantissa, ExtendedMantissa.accuracy, Accuracy.roundToNearestEven,
    hagain, hnone, Nat.ne_of_gt hm, dif_neg, not_false_eq_true]
  simp

/-- A number that is a double, written with as many digits as that or more, is rounded to it. -/
theorem roundWithAccuracy_of_steps (s : Sign) {m m' : Nat} {e e' : Int} (h : Fits m e) (hm : 0 < m)
    (he' : -1074 ≤ e') (hle : e' ≤ e) (hsteps : steps m' e' = steps m e) :
    roundWithAccuracy .binary64 s m' e' .exact = .finite s m e hm := by
  obtain ⟨k, rfl⟩ : ∃ k : Nat, e' = e - k := ⟨(e - e').toNat, by omega⟩
  have hmantissa : m' = m * 2 ^ k := by
    have hsplit : (e + 1074).toNat = k + (e - k + 1074).toNat := by omega
    rw [steps, steps, hsplit, Nat.pow_add, ← Nat.mul_assoc] at hsteps
    exact Nat.eq_of_mul_eq_mul_right (Nat.pow_pos Nat.two_pos) hsteps
  rw [hmantissa]
  exact roundWithAccuracy_exact s h hm k

/-- A number that is a double is rounded to that double. -/
theorem round_exact (s : Sign) {m m' : Nat} {e e' : Int} (h : Fits m e) (hm : 0 < m)
    (hm' : 0 < m') (he' : -1074 ≤ e') (hsteps : steps m' e' = steps m e) :
    UnpackedFloat.round .binary64 s m' e' = .finite s m e hm := by
  have hleast := h.least
  rw [UnpackedFloat.round, targetExponent_of_steps h hm hm' he' hsteps]
  by_cases hle : e ≤ e'
  · have hexponent : e' - ((e' - e).toNat : Int) = e := by omega
    have hmantissa : steps (m' <<< (e' - e).toNat) e = steps m e := by
      have hsplit : (e' + 1074).toNat = (e' - e).toNat + (e + 1074).toNat := by omega
      rw [← hsteps, steps, steps, hsplit, Nat.pow_add, ← Nat.mul_assoc, Nat.shiftLeft_eq]
    simp only [decreaseExponent, hexponent]
    exact roundWithAccuracy_of_steps s h hm hleast (Int.le_refl e) hmantissa
  · have hnone : (e' - e).toNat = 0 := by omega
    simp only [decreaseExponent, hnone, Nat.shiftLeft_zero]
    exact roundWithAccuracy_of_steps s h hm (by omega) (by omega) (by simpa using hsteps)

/-! ### One as a factor and as a divisor -/

theorem unpacked_one : unpacked 1.0 = .finite .positive (2 ^ 52) (-52) (by decide) := rfl

theorem unpacked_mul_one {u : UnpackedFloat} (h : Canonical u) :
    mul .binary64 u (unpacked 1.0) = u := by
  rw [unpacked_one]
  cases u with
  | notANumber => rfl
  | infinity s | zero s => cases s <;> rfl
  | finite s m e hm =>
    have hsign : s * .positive = s := by cases s <;> rfl
    simp only [mul, hsign]
    exact roundWithAccuracy_exact s h hm 52

theorem divCore_one {m : Nat} {e : Int} (h : Fits m e) (hm : 0 < m) :
    ∃ k : Nat, divCore .binary64 m e (2 ^ 52) (-52) = (m * 2 ^ k, e - k, .exact) := by
  have hlt : m.log2 < 53 := (Nat.log2_lt (Nat.ne_of_gt hm)).2 h.lt
  have hleast := h.least
  have htotal : totalExponent (2 ^ 52) (-52) = 1 := by rw [totalExponent, Nat.log2_two_pow]; rfl
  have htarget : Format.binary64.targetExponent (totalExponent m e - 1) ≤ e := by
    rw [targetExponent_eq, totalExponent]
    omega
  generalize hk : Format.binary64.targetExponent (totalExponent m e - 1) = t at htarget
  refine ⟨(e - t).toNat, ?_⟩
  have hmin : min (e - -52) t = t := by omega
  have hshift : (e - -52 - t).toNat = (e - t).toNat + 52 := by omega
  have hmantissa : m <<< ((e - t).toNat + 52) = m * 2 ^ (e - t).toNat * 2 ^ 52 := by
    rw [Nat.shiftLeft_eq, Nat.pow_add, Nat.mul_assoc]
  have hexponent : t = e - ((e - t).toNat : Int) := by omega
  simp only [divCore, htotal, hk, hmin, hshift, hmantissa, accuracyOfFraction,
    Nat.mul_mod_left, if_true, Nat.mul_div_cancel _ (Nat.pow_pos Nat.two_pos)]
  rw [← hexponent]

theorem unpacked_div_one {u : UnpackedFloat} (h : Canonical u) :
    div .binary64 u (unpacked 1.0) = u := by
  rw [unpacked_one]
  cases u with
  | notANumber => rfl
  | infinity s | zero s => cases s <;> rfl
  | finite s m e hm =>
    obtain ⟨k, hcore⟩ := divCore_one h hm
    have hsign : s / .positive = s := by cases s <;> rfl
    simp only [div, hcore, hsign]
    exact roundWithAccuracy_exact s h hm k

theorem float_mul_one (x : Float) : x * 1.0 = x := by
  show packed (mul .binary64 (unpacked x) (unpacked 1.0)) = x
  rw [unpacked_mul_one (canonical_unpacked x), packed_unpacked]

theorem float_div_one (x : Float) : x / 1.0 = x := by
  show packed (div .binary64 (unpacked x) (unpacked 1.0)) = x
  rw [unpacked_div_one (canonical_unpacked x), packed_unpacked]

/-- A number is a double in one way at most. -/
theorem Fits.unique {m m' : Nat} {e e' : Int} (h : Fits m e) (h' : Fits m' e') (hm : 0 < m)
    (hm' : 0 < m') (hsteps : steps m' e' = steps m e) : m' = m ∧ e' = e := by
  have htarget := targetExponent_of_steps h hm hm' h'.least hsteps
  rw [h'.targetExponent hm'] at htarget
  subst htarget
  exact ⟨Nat.eq_of_mul_eq_mul_right (Nat.pow_pos Nat.two_pos) hsteps, rfl⟩

end Crosstab.Binary64
