import Crosstab.Proofs.Binary64.Packing

/-!
# The sign of zero

Two doubles are alike if they are the same or both zeros. Every operation of formulas takes doubles
that are alike to results that are alike, but for a division by zero, which formulas refuse, and for
a negative power of zero, which is infinite.
-/

namespace Crosstab.Binary64

open Float.Model (Format UnpackedFloat)
open Float.Model.UnpackedFloat

/-- Two doubles are the same but perhaps for the sign of zero. -/
def Alike (x y : Float) : Prop := x = y ∨ (x == 0.0) = true ∧ (y == 0.0) = true

inductive UnpackedAlike : UnpackedFloat → UnpackedFloat → Prop
  | same (u : UnpackedFloat) : UnpackedAlike u u
  | zeros (s s' : Sign) : UnpackedAlike (.zero s) (.zero s')

theorem beq_zero_iff {x : Float} : (x == 0.0) = true ↔ ∃ s, unpacked x = .zero s := by
  show ((unpacked x).compare (.zero .positive) == some .eq) = true ↔ _
  cases unpacked x with
  | notANumber => simp [UnpackedFloat.compare]
  | infinity s => cases s <;> simp [UnpackedFloat.compare]
  | zero s => simp [UnpackedFloat.compare]
  | finite s m e hm => cases s <;> simp [UnpackedFloat.compare]

theorem alike_iff {x y : Float} : Alike x y ↔ UnpackedAlike (unpacked x) (unpacked y) := by
  constructor
  · rintro (rfl | ⟨hx, hy⟩)
    · exact .same _
    · obtain ⟨s, hs⟩ := beq_zero_iff.1 hx
      obtain ⟨s', hs'⟩ := beq_zero_iff.1 hy
      rw [hs, hs']
      exact .zeros s s'
  · generalize hu : unpacked x = u
    generalize hv : unpacked y = v
    rintro (_ | ⟨s, s'⟩)
    · exact .inl (unpacked_injective (hu.trans hv.symm))
    · exact .inr ⟨beq_zero_iff.2 ⟨s, hu⟩, beq_zero_iff.2 ⟨s', hv⟩⟩

namespace UnpackedAlike
variable {u u' v v' w : UnpackedFloat}

theorem packed (h : UnpackedAlike u v) : Alike (packed u) (packed v) := by
  cases h with
  | same => exact .inl rfl
  | zeros s s' =>
    rw [alike_iff, unpacked_packed (u := .zero s) trivial, unpacked_packed (u := .zero s') trivial]
    exact .zeros s s'

theorem trans (h : UnpackedAlike u v) (h' : UnpackedAlike v w) : UnpackedAlike u w := by
  cases h with
  | same => exact h'
  | zeros s s' => cases h' <;> exact .zeros _ _

/-- That an operation does not depend on the sign of a zero is shown for one operand at a time. -/
theorem operation {op : UnpackedFloat → UnpackedFloat → UnpackedFloat}
    (left : ∀ s s' v, UnpackedAlike (op (.zero s) v) (op (.zero s') v))
    (right : ∀ u s s', UnpackedAlike (op u (.zero s)) (op u (.zero s')))
    (hu : UnpackedAlike u u') (hv : UnpackedAlike v v') : UnpackedAlike (op u v) (op u' v') := by
  have hleft : UnpackedAlike (op u v) (op u' v) := by
    cases hu with
    | same => exact .same _
    | zeros s s' => exact left s s' v
  refine hleft.trans ?_
  cases hv with
  | same => exact .same _
  | zeros s s' => exact right u' s s'

theorem add (hu : UnpackedAlike u u') (hv : UnpackedAlike v v') :
    UnpackedAlike (UnpackedFloat.add .binary64 u v) (UnpackedFloat.add .binary64 u' v') := by
  refine operation ?_ ?_ hu hv
  · intro s s' v
    cases v with
    | zero t => cases s <;> cases s' <;> cases t <;> exact .zeros _ _
    | _ => exact .same _
  · intro u s s'
    cases u with
    | zero t => cases s <;> cases s' <;> cases t <;> exact .zeros _ _
    | _ => exact .same _

theorem sub (hu : UnpackedAlike u u') (hv : UnpackedAlike v v') :
    UnpackedAlike (UnpackedFloat.sub .binary64 u v) (UnpackedFloat.sub .binary64 u' v') := by
  refine operation ?_ ?_ hu hv
  · intro s s' v
    cases v with
    | zero t => cases s <;> cases s' <;> cases t <;> exact .zeros _ _
    | _ => exact .same _
  · intro u s s'
    cases u with
    | zero t => cases s <;> cases s' <;> cases t <;> exact .zeros _ _
    | _ => exact .same _

theorem mul (hu : UnpackedAlike u u') (hv : UnpackedAlike v v') :
    UnpackedAlike (UnpackedFloat.mul .binary64 u v) (UnpackedFloat.mul .binary64 u' v') := by
  refine operation ?_ ?_ hu hv
  · intro s s' v
    cases v with
    | zero t | finite t m e hm => exact .zeros _ _
    | _ => exact .same _
  · intro u s s'
    cases u with
    | zero t | finite t m e hm => exact .zeros _ _
    | _ => exact .same _

theorem div (hu : UnpackedAlike u u') (hv : ∀ s, v ≠ .zero s) :
    UnpackedAlike (UnpackedFloat.div .binary64 u v) (UnpackedFloat.div .binary64 u' v) := by
  cases hu with
  | same => exact .same _
  | zeros s s' =>
    cases v with
    | notANumber => exact .same _
    | infinity t | finite t m e hm => exact .zeros _ _
    | zero t => exact absurd rfl (hv t)

theorem neg (hu : UnpackedAlike u u') : UnpackedAlike u.neg u'.neg := by
  cases hu with
  | same => exact .same _
  | zeros s s' => exact .zeros _ _

theorem zero_add (u : UnpackedFloat) (s : Sign) :
    UnpackedAlike u (UnpackedFloat.add .binary64 (.zero s) u) := by
  cases u with
  | zero t => cases s <;> cases t <;> exact .zeros _ _
  | _ => exact .same _

theorem abs (hu : UnpackedAlike u u') : UnpackedAlike u.abs u'.abs := by
  cases hu <;> exact .same _

theorem compare_eq (hu : UnpackedAlike u u') (hv : UnpackedAlike v v') :
    u.compare v = u'.compare v' := by
  have hleft : u.compare v = u'.compare v := by
    cases hu with
    | same => rfl
    | zeros s s' =>
      cases v with
      | infinity t | finite t m e hm => cases t <;> rfl
      | _ => rfl
  rw [hleft]
  cases hv with
  | same => rfl
  | zeros s s' =>
    cases u' with
    | infinity t | finite t m e hm => cases t <;> rfl
    | _ => rfl

theorem isNaN_eq (hu : UnpackedAlike u u') : u.isNaN = u'.isNaN := by
  cases hu <;> rfl

theorem isFinite_eq (hu : UnpackedAlike u u') : u.isFinite = u'.isFinite := by
  cases hu <;> rfl

end UnpackedAlike

namespace Alike
variable {x x' y y' : Float}

@[refl]
theorem refl (x : Float) : Alike x x := .inl rfl

theorem of_zeros (hx : (x == 0.0) = true) (hy : (y == 0.0) = true) : Alike x y := .inr ⟨hx, hy⟩

theorem add (hx : Alike x x') (hy : Alike y y') : Alike (x + y) (x' + y') :=
  ((alike_iff.1 hx).add (alike_iff.1 hy)).packed

theorem zero_add (x : Float) : Alike x (0.0 + x) := by
  have hsum := (UnpackedAlike.zero_add (unpacked x) .positive).packed
  rwa [packed_unpacked] at hsum

theorem sub (hx : Alike x x') (hy : Alike y y') : Alike (x - y) (x' - y') :=
  ((alike_iff.1 hx).sub (alike_iff.1 hy)).packed

theorem mul (hx : Alike x x') (hy : Alike y y') : Alike (x * y) (x' * y') :=
  ((alike_iff.1 hx).mul (alike_iff.1 hy)).packed

theorem div (hx : Alike x x') (hy : ¬ (y == 0.0) = true) : Alike (x / y) (x' / y) :=
  ((alike_iff.1 hx).div fun s hs => hy (beq_zero_iff.2 ⟨s, hs⟩)).packed

theorem neg (hx : Alike x x') : Alike (-x) (-x') := (alike_iff.1 hx).neg.packed

theorem abs (hx : Alike x x') : Alike x.abs x'.abs := (alike_iff.1 hx).abs.packed

theorem compare_eq (hx : Alike x x') (hy : Alike y y') :
    (unpacked x).compare (unpacked y) = (unpacked x').compare (unpacked y') :=
  (alike_iff.1 hx).compare_eq (alike_iff.1 hy)

theorem isNaN_eq (hx : Alike x x') : x.isNaN = x'.isNaN := (alike_iff.1 hx).isNaN_eq

theorem isFinite_eq (hx : Alike x x') : x.isFinite = x'.isFinite := (alike_iff.1 hx).isFinite_eq

end Alike

/-! ### Comparisons -/

theorem lt_iff_compare {x y : Float} : x < y ↔ (unpacked x).compare (unpacked y) = some .lt := by
  show decide (x.toModel < y.toModel) = true ↔ _
  rw [decide_eq_true_iff]
  show ((unpacked x).compare (unpacked y) == some .lt) = true ↔ _
  exact beq_iff_eq

theorem le_iff_compare {x y : Float} :
    x ≤ y ↔ ((unpacked x).compare (unpacked y)).any (·.isLE) = true := by
  show decide (x.toModel ≤ y.toModel) = true ↔ _
  rw [decide_eq_true_iff]
  rfl

theorem beq_iff_compare {x y : Float} :
    (x == y) = true ↔ (unpacked x).compare (unpacked y) = some .eq := by
  show ((unpacked x).compare (unpacked y) == some .eq) = true ↔ _
  exact beq_iff_eq

namespace Alike
variable {x x' y y' : Float} (hx : Alike x x') (hy : Alike y y')
include hx hy

theorem lt_iff : x < y ↔ x' < y' := by
  rw [lt_iff_compare, lt_iff_compare, hx.compare_eq hy]

theorem le_iff : x ≤ y ↔ x' ≤ y' := by
  rw [le_iff_compare, le_iff_compare, hx.compare_eq hy]

theorem beq_eq : (x == y) = (x' == y') := by
  rw [Bool.eq_iff_iff, beq_iff_compare, beq_iff_compare, hx.compare_eq hy]

theorem lesser : Alike (lesser x y) (lesser x' y') := by
  simp only [Binary64.lesser, hy.isNaN_eq, hx.lt_iff hy]
  split_ifs
  · exact hx
  · exact hx
  · exact hy

theorem greater : Alike (greater x y) (greater x' y') := by
  simp only [Binary64.greater, hy.isNaN_eq, hy.lt_iff hx]
  split_ifs
  · exact hx
  · exact hx
  · exact hy

end Alike

/-! ### Readings of zeros -/

theorem beq_compose_zero (negative : Bool) (power : Int) :
    (compose negative 0 power == 0.0) = true := by
  have hbits : compose negative 0 power =
      Float.ofBits (UInt64.ofNat (0 + if negative then twoTo 63 else 0)) := by
    have hsmall : 0 < twoTo 52 := by decide
    simp only [compose, Nat.zero_mul, if_pos hsmall]
  rw [hbits]
  cases negative <;> decide

theorem ofFloat_of_zero {x : Float} (hx : (x == 0.0) = true) :
    ∃ negative, Reading.ofFloat x = .finite negative 0 leastPower := by
  obtain ⟨s, hs⟩ := beq_zero_iff.1 hx
  exact ⟨isMinus s, by rw [ofFloat_eq, hs, readingOf]⟩

/-- The remainder of a zero is a zero, or does not depend on its sign. -/
theorem remainder_zero_left {x x' : Float} (hx : (x == 0.0) = true) (hx' : (x' == 0.0) = true)
    (y : Float) : Alike (remainder x y) (remainder x' y) := by
  obtain ⟨negative, hread⟩ := ofFloat_of_zero hx
  obtain ⟨negative', hread'⟩ := ofFloat_of_zero hx'
  simp only [remainder, hread, hread']
  cases Reading.ofFloat y with
  | nan => exact .refl _
  | infinite t => exact .of_zeros hx hx'
  | finite t b q =>
    simp only [Nat.zero_mul, Nat.zero_mod]
    split_ifs
    · exact .refl _
    · exact .of_zeros (beq_compose_zero _ _) (beq_compose_zero _ _)

theorem remainder_zero_right {y y' : Float} (hy : (y == 0.0) = true) (hy' : (y' == 0.0) = true)
    (x : Float) : remainder x y = remainder x y' := by
  obtain ⟨negative, hread⟩ := ofFloat_of_zero hy
  obtain ⟨negative', hread'⟩ := ofFloat_of_zero hy'
  simp only [remainder, hread, hread']
  cases Reading.ofFloat x <;> rfl

theorem beq_roundHalfAway_zero {x : Float} (hx : (x == 0.0) = true) :
    (roundHalfAway x == 0.0) = true := by
  obtain ⟨negative, hread⟩ := ofFloat_of_zero hx
  have hnegative : ¬ (0 : Int) ≤ leastPower := by decide
  have hhalf (n : Nat) : (0 + twoTo n) / (2 * twoTo n) = 0 := by
    have hpos : 0 < twoTo n := Nat.pow_pos Nat.two_pos
    exact Nat.div_eq_of_lt (by omega)
  simp only [roundHalfAway, hread, if_neg hnegative, hhalf]
  exact beq_compose_zero _ _

theorem isFinite_one_div_zero {x : Float} (hx : (x == 0.0) = true) :
    (1.0 / x).isFinite = false := by
  obtain ⟨s, hs⟩ := beq_zero_iff.1 hx
  show (unpacked (packed (UnpackedFloat.div .binary64 (unpacked 1.0) (unpacked x)))).isFinite =
    false
  rw [hs]
  cases s <;> rfl

/-- The zero that a power of zero is, or by which 1 is divided. -/
def oddZero (x y : Float) : Float := if isOdd y then x else 0.0

theorem beq_oddZero {x : Float} (hx : (x == 0.0) = true) (y : Float) :
    (oddZero x y == 0.0) = true := by
  rw [oddZero]
  split_ifs
  · exact hx
  · decide

theorem power_of_zero {x y : Float} (hx : (x == 0.0) = true) (hy : ¬ (y == 0.0) = true) :
    power x y =
      if y.isNaN then y else if y < 0.0 then 1.0 / oddZero x y else oddZero x y := by
  rw [power, if_neg hy, if_pos hx]
  rfl

namespace Alike
variable {x x' y y' : Float}

theorem remainder (hx : Alike x x') (hy : Alike y y') :
    Alike (remainder x y) (remainder x' y') := by
  have hright : Binary64.remainder x' y = Binary64.remainder x' y' := by
    rcases hy with rfl | ⟨hy, hy'⟩
    · rfl
    · exact remainder_zero_right hy hy' x'
  rw [← hright]
  rcases hx with rfl | ⟨hx, hx'⟩
  · exact .refl _
  · exact remainder_zero_left hx hx' y

theorem roundHalfAway (hx : Alike x x') : Alike (roundHalfAway x) (roundHalfAway x') := by
  rcases hx with rfl | ⟨hx, hx'⟩
  · exact .refl _
  · exact .of_zeros (beq_roundHalfAway_zero hx) (beq_roundHalfAway_zero hx')

/-- Powers are alike unless they are infinite. -/
theorem power (hx : Alike x x') (hy : Alike y y') :
    Alike (power x y) (power x' y') ∨
      (Binary64.power x y).isFinite = false ∧ (Binary64.power x' y').isFinite = false := by
  by_cases hzero : (y == 0.0) = true
  · have hzero' : (y' == 0.0) = true := by rwa [← hy.beq_eq (.refl 0.0)]
    rw [Binary64.power, Binary64.power, if_pos hzero, if_pos hzero']
    exact .inl (.refl 1.0)
  · obtain rfl : y = y' := hy.resolve_right fun h => hzero h.1
    rcases hx with rfl | ⟨hx, hx'⟩
    · exact .inl (.refl _)
    · have hodd := beq_oddZero hx y
      have hodd' := beq_oddZero hx' y
      rw [power_of_zero hx hzero, power_of_zero hx' hzero]
      by_cases hnan : y.isNaN = true
      · rw [if_pos hnan, if_pos hnan]
        exact .inl (.refl y)
      · rw [if_neg hnan, if_neg hnan]
        by_cases hlt : y < 0.0
        · rw [if_pos hlt, if_pos hlt]
          exact .inr ⟨isFinite_one_div_zero hodd, isFinite_one_div_zero hodd'⟩
        · rw [if_neg hlt, if_neg hlt]
          exact .inl (.of_zeros hodd hodd')

end Alike

end Crosstab.Binary64
