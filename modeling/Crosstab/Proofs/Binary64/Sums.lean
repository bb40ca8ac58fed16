import Crosstab.Proofs.Binary64.Value

/-!
# Sums of doubles

Doubles are added up one after the other, and every addition may round. `AddsExactly` says that none
of them does. Whole numbers whose absolute values sum to less than `2 ^ 53` add up exactly in any
order, and so do as many ones as a double can count.
-/

namespace Crosstab.Binary64

def sum (xs : List Float) : Float := xs.foldl (· + ·) 0.0

/-- No addition rounds while numbers are added to a first one, one after the other. -/
def AddsExactly : Float → List Float → Prop
  | _, [] => True
  | acc, x :: xs => (acc + x).isFinite = true ∧ value (acc + x) = value acc + value x ∧
      AddsExactly (acc + x) xs

theorem foldl_of_addsExactly {acc : Float} {xs : List Float} (hacc : acc.isFinite = true)
    (h : AddsExactly acc xs) :
    (xs.foldl (· + ·) acc).isFinite = true ∧
      value (xs.foldl (· + ·) acc) = value acc + (xs.map value).sum := by
  induction xs generalizing acc with
  | nil => simp [hacc]
  | cons x xs ih =>
    obtain ⟨hfinite, hvalue, hrest⟩ := h
    obtain ⟨hsum, heq⟩ := ih hfinite hrest
    refine ⟨hsum, ?_⟩
    rw [List.foldl_cons, heq, hvalue, List.map_cons, List.sum_cons, add_assoc]

theorem isFinite_sum {xs : List Float} (h : AddsExactly 0.0 xs) : (sum xs).isFinite = true :=
  (foldl_of_addsExactly rfl h).1

theorem value_sum {xs : List Float} (h : AddsExactly 0.0 xs) :
    value (sum xs) = (xs.map value).sum := by
  rw [sum, (foldl_of_addsExactly rfl h).2, value_zero, zero_add]

/-! ### Whole numbers -/

structure Whole (x : Float) : Prop where
  finite : x.isFinite = true
  whole : ∃ k : ℤ, value x = k

theorem isFinite_and_value_ofNat {n : ℕ} (hn : n < 2 ^ 53) :
    (Float.ofNat n).isFinite = true ∧ value (Float.ofNat n) = n := by
  obtain ⟨z, hz, hvalue⟩ := exists_value_eq (k := n) (by omega)
  exact value_ofNat hz hvalue

theorem value_one : value 1.0 = 1 := by
  have hone : (1.0 : Float) = Float.ofNat 1 := by decide
  rw [hone, (isFinite_and_value_ofNat (by omega)).2, Nat.cast_one]

theorem whole_ofNat {n : ℕ} (hn : n < 2 ^ 53) : Whole (Float.ofNat n) :=
  have h := isFinite_and_value_ofNat hn
  ⟨h.1, n, h.2⟩

/-- A sum of two whole numbers below `2 ^ 53` is exact. -/
theorem Whole.add {x y : Float} (hx : Whole x) (hy : Whole y)
    (h : |value x| + |value y| < 2 ^ 53) :
    Whole (x + y) ∧ value (x + y) = value x + value y := by
  obtain ⟨j, hj⟩ := hx.whole
  obtain ⟨k, hk⟩ := hy.whole
  have hsum : value x + value y = (j + k : ℤ) := by rw [hj, hk, Int.cast_add]
  have hsmall : (j + k).natAbs < 2 ^ 53 := by
    have habs : |((j + k : ℤ) : ℚ)| < 2 ^ 53 := by
      rw [← hsum]
      exact lt_of_le_of_lt (abs_add_le _ _) h
    rw [← Int.cast_abs, Int.abs_eq_natAbs] at habs
    exact_mod_cast habs
  obtain ⟨z, hz, hvalue⟩ := exists_value_eq hsmall
  obtain ⟨hfinite, hadd⟩ := value_add hx.finite hy.finite hz (hvalue.trans hsum.symm)
  exact ⟨⟨hfinite, j + k, by rw [hadd, hsum]⟩, hadd⟩

/-- Whole numbers add up exactly as long as their absolute values sum to less than `2 ^ 53`. -/
theorem addsExactly_of_whole {acc : Float} {xs : List Float} (hacc : Whole acc)
    (hxs : ∀ x ∈ xs, Whole x) (h : |value acc| + (xs.map fun x => |value x|).sum < 2 ^ 53) :
    AddsExactly acc xs := by
  induction xs generalizing acc with
  | nil => trivial
  | cons x xs ih =>
    rw [List.map_cons, List.sum_cons, ← add_assoc] at h
    have hrest : 0 ≤ (xs.map fun x => |value x|).sum :=
      List.sum_nonneg (by simp)
    obtain ⟨hwhole, hvalue⟩ :=
      hacc.add (hxs x List.mem_cons_self) (lt_of_le_of_lt (le_add_of_nonneg_right hrest) h)
    refine ⟨hwhole.finite, hvalue, ih hwhole (fun y hy => hxs y (List.mem_cons_of_mem x hy)) ?_⟩
    rw [hvalue]
    exact lt_of_le_of_lt (add_le_add_left (abs_add_le _ _) _) h

/-- So do any of them, taken in order. -/
theorem addsExactly_of_sublist {xs ys : List Float} (hsub : xs.Sublist ys)
    (hys : ∀ y ∈ ys, Whole y) (h : (ys.map fun y => |value y|).sum < 2 ^ 53) :
    AddsExactly 0.0 xs := by
  have hle : (xs.map fun x => |value x|).sum ≤ (ys.map fun y => |value y|).sum :=
    (hsub.map _).sum_le_sum (by simp)
  have hzero : Whole 0.0 := ⟨rfl, 0, by rw [value_zero, Int.cast_zero]⟩
  refine addsExactly_of_whole hzero (fun x hx => hys x (hsub.subset hx)) ?_
  rw [value_zero, abs_zero, zero_add]
  exact lt_of_le_of_lt hle h

end Crosstab.Binary64
