import Crosstab.Proofs.Binary64.Zeros
import Crosstab.Proofs.Comparison

/-!
# The order of doubles

Every double has a place among the others, the two zeros the same one; only what is no number has
none. Doubles compare as their places do.
-/

namespace Crosstab.Binary64

open Float.Model (UnpackedFloat)
open Float.Model.UnpackedFloat

/-- The side of zero on which a number stands, the infinities beyond all others, and the exponent
and the mantissa, which count backward below zero. -/
structure Place where
  side : Int
  exponent : Int
  mantissa : Int

def Place.compare (p q : Place) : Ordering :=
  (Ord.compare p.side q.side).then
    ((Ord.compare p.exponent q.exponent).then (Ord.compare p.mantissa q.mantissa))

instance : Std.TransCmp Place.compare :=
  inferInstanceAs (Std.TransCmp (compareLex (compareOn Place.side)
    (compareLex (compareOn Place.exponent) (compareOn Place.mantissa))))

def placeOf? : UnpackedFloat → Option Place
  | .notANumber => none
  | .infinity .negative => some ⟨-2, 0, 0⟩
  | .finite .negative m e _ => some ⟨-1, -e, -m⟩
  | .zero _ => some ⟨0, 0, 0⟩
  | .finite .positive m e _ => some ⟨1, e, m⟩
  | .infinity .positive => some ⟨2, 0, 0⟩

theorem compare_natCast (m n : Nat) : compare (m : Int) n = compare m n := by
  rw [Int.compare_eq_ite_lt, Nat.compare_eq_ite_lt]
  simp only [Nat.cast_lt]

theorem compare_neg (j k : Int) : compare (-j) (-k) = compare k j := by
  rw [Int.compare_eq_ite_lt, Int.compare_eq_ite_lt]
  simp only [neg_lt_neg_iff]

theorem compare_finite (s : Sign) {m m' : Nat} {e e' : Int} (hm : 0 < m) (hm' : 0 < m') :
    (UnpackedFloat.finite s m e hm).compare (.finite s m' e' hm') =
      compareViews placeOf? Place.compare (.finite s m e hm) (.finite s m' e' hm') := by
  cases s with
  | positive =>
    simp only [UnpackedFloat.compare, compareViews, placeOf?, Place.compare, compare_natCast]
    rfl
  | negative =>
    simp only [UnpackedFloat.compare, compareViews, placeOf?, Place.compare, compare_neg,
      compare_natCast, Ordering.swap_then, Int.compare_swap, Nat.compare_swap]
    rfl

theorem compare_eq_compareViews (u v : UnpackedFloat) :
    u.compare v = compareViews placeOf? Place.compare u v := by
  cases u with
  | notANumber => rfl
  | infinity s =>
    cases v with
    | notANumber | zero t => cases s <;> rfl
    | infinity t | finite t m e hm => cases s <;> cases t <;> rfl
  | zero s =>
    cases v with
    | notANumber | zero t => rfl
    | infinity t | finite t m e hm => cases t <;> rfl
  | finite s m e hm =>
    cases v with
    | notANumber | zero t => cases s <;> rfl
    | infinity t => cases s <;> cases t <;> rfl
    | finite t m' e' hm' =>
      match s, t with
      | .positive, .positive => exact compare_finite .positive hm hm'
      | .negative, .negative => exact compare_finite .negative hm hm'
      | .positive, .negative | .negative, .positive => rfl

/-! ### Doubles -/

def place? (x : Float) : Option Place := placeOf? (unpacked x)

theorem place?_eq_none_iff {x : Float} : place? x = none ↔ x.isNaN = true := by
  show placeOf? (unpacked x) = none ↔ (unpacked x).isNaN = true
  match unpacked x with
  | .notANumber => exact ⟨fun _ => rfl, fun _ => rfl⟩
  | .zero s => exact ⟨nofun, nofun⟩
  | .infinity s | .finite s m e hm => cases s <;> exact ⟨nofun, nofun⟩

theorem compare?_eq_compareViews : compare? = compareViews place? Place.compare := by
  funext x y
  have hcompare : (unpacked x).compare (unpacked y) = compareViews place? Place.compare x y :=
    compare_eq_compareViews (unpacked x) (unpacked y)
  have hswap : (unpacked y).compare (unpacked x) =
      (compareViews place? Place.compare x y).map Ordering.swap :=
    (compare_eq_compareViews (unpacked y) (unpacked x)).trans
      ((consistent_compareViews place? Place.compare).swap x y)
  simp only [compare?, lt_iff_compare, beq_iff_compare, hcompare, hswap]
  rcases compareViews place? Place.compare x y with _ | (_ | _ | _) <;> rfl

theorem consistent_compare? : Consistent compare? :=
  compare?_eq_compareViews ▸ consistent_compareViews place? Place.compare

theorem compare?_eq_lt_iff {x y : Float} : compare? x y = some .lt ↔ x < y := by
  rw [compare?_eq_compareViews, lt_iff_compare, compare_eq_compareViews]
  rfl

theorem compare?_eq_eq_iff {x y : Float} : compare? x y = some .eq ↔ (x == y) = true := by
  rw [compare?_eq_compareViews, beq_iff_compare, compare_eq_compareViews]
  rfl

/-- A double is as great as itself unless it is no number. -/
theorem beq_self_iff {x : Float} : (x == x) = true ↔ x.isNaN = false := by
  rw [← Bool.not_eq_true, ← place?_eq_none_iff, ← compare?_eq_eq_iff, compare?_eq_compareViews,
    compareViews]
  cases place? x with
  | none => simp
  | some p => simp [Std.ReflCmp.compare_self]

end Crosstab.Binary64
