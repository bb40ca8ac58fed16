import Crosstab.Proofs.Binary64.Order

/-!
# The least and the greatest of some doubles

Doubles that are numbers are ordered by `≤`, but for the two zeros, which are equal. The lesser and
the greater of two doubles pass over what is no number, so taken one double after the other they
come to one that is extreme among all, whatever comes first.
-/

namespace Crosstab.Binary64
variable {x y z : Float}

/-! ### The order of numbers -/

theorem le_iff_compare? : x ≤ y ↔ ∃ o, compare? x y = some o ∧ o.isLE := by
  rw [le_iff_compare, Option.any_eq_true, compare?_eq_compareViews, compare_eq_compareViews]
  rfl

theorem le_iff_places :
    x ≤ y ↔ ∃ p q, place? x = some p ∧ place? y = some q ∧ (p.compare q).isLE := by
  rw [le_iff_compare?, compare?_eq_compareViews]
  simp only [compareViews_eq_some_iff]
  constructor
  · rintro ⟨_, ⟨p, q, hp, hq, rfl⟩, hle⟩
    exact ⟨p, q, hp, hq, hle⟩
  · rintro ⟨p, q, hp, hq, hle⟩
    exact ⟨_, ⟨p, q, hp, hq, rfl⟩, hle⟩

theorem exists_place (h : x.isNaN = false) : ∃ p, place? x = some p := by
  apply Option.ne_none_iff_exists'.1
  rw [Ne, place?_eq_none_iff, h]
  exact Bool.false_ne_true

theorem isNaN_of_place {p : Place} (h : place? x = some p) : x.isNaN = false := by
  rw [← Bool.not_eq_true, ← place?_eq_none_iff, h]
  exact Option.some_ne_none p

theorem isNaN_left_of_le (h : x ≤ y) : x.isNaN = false := by
  obtain ⟨p, q, hp, -, -⟩ := le_iff_places.1 h
  exact isNaN_of_place hp

theorem isNaN_right_of_le (h : x ≤ y) : y.isNaN = false := by
  obtain ⟨p, q, -, hq, -⟩ := le_iff_places.1 h
  exact isNaN_of_place hq

theorem le_of_lt (h : x < y) : x ≤ y :=
  le_iff_compare?.2 ⟨.lt, compare?_eq_lt_iff.2 h, rfl⟩

theorem le_self (h : x.isNaN = false) : x ≤ x :=
  le_iff_compare?.2 ⟨.eq, compare?_eq_eq_iff.2 (beq_self_iff.2 h), rfl⟩

theorem le_of_not_lt (hx : x.isNaN = false) (hy : y.isNaN = false) (h : ¬ x < y) : y ≤ x := by
  obtain ⟨p, hp⟩ := exists_place hx
  obtain ⟨q, hq⟩ := exists_place hy
  have hcompare : compare? x y = some (p.compare q) := by
    rw [compare?_eq_compareViews, compareViews, hp, hq]
  rw [← compare?_eq_lt_iff, hcompare, Option.some_inj] at h
  have hswap : q.compare p = (p.compare q).swap := Std.OrientedCmp.eq_swap
  refine le_iff_places.2 ⟨q, p, hq, hp, ?_⟩
  rw [hswap]
  cases ho : p.compare q with
  | lt => exact absurd ho h
  | eq | gt => rfl

theorem le_trans (h : x ≤ y) (h' : y ≤ z) : x ≤ z := by
  obtain ⟨p, q, hp, hq, hle⟩ := le_iff_places.1 h
  obtain ⟨q', r, hq', hr, hle'⟩ := le_iff_places.1 h'
  obtain rfl := Option.some.inj (hq.symm.trans hq')
  exact le_iff_places.2 ⟨p, r, hp, hr, Std.TransCmp.isLE_trans hle hle'⟩

theorem beq_of_le_of_le (h : x ≤ y) (h' : y ≤ x) : (x == y) = true := by
  obtain ⟨p, q, hp, hq, hle⟩ := le_iff_places.1 h
  obtain ⟨q', p', hq', hp', hle'⟩ := le_iff_places.1 h'
  obtain rfl := Option.some.inj (hp.symm.trans hp')
  obtain rfl := Option.some.inj (hq.symm.trans hq')
  rw [← compare?_eq_eq_iff, compare?_eq_compareViews, compareViews_eq_some_iff]
  exact ⟨p, q, hp, hq, Std.OrientedCmp.isLE_antisymm hle hle'⟩

/-- A relation, with its strict part, orders the doubles that are numbers, and only those. -/
structure OrdersNumbers (before strictly : Float → Float → Prop) : Prop where
  of_strictly {x y : Float} : strictly x y → before x y
  refl {x : Float} : x.isNaN = false → before x x
  of_not_strictly {x y : Float} : x.isNaN = false → y.isNaN = false → ¬ strictly x y → before y x
  trans {x y z : Float} : before x y → before y z → before x z
  isNaN {x y : Float} : before x y → x.isNaN = false
  antisymm {x y : Float} : before x y → before y x → (x == y) = true

theorem ordersNumbers_le : OrdersNumbers (fun x y => x ≤ y) (fun x y => x < y) where
  of_strictly := le_of_lt
  refl := le_self
  of_not_strictly := le_of_not_lt
  trans := le_trans
  isNaN := isNaN_left_of_le
  antisymm := beq_of_le_of_le

theorem ordersNumbers_ge : OrdersNumbers (fun x y => y ≤ x) (fun x y => y < x) where
  of_strictly := le_of_lt
  refl := le_self
  of_not_strictly hx hy := le_of_not_lt hy hx
  trans h h' := le_trans h' h
  isNaN := isNaN_right_of_le
  antisymm h h' := beq_of_le_of_le h' h

/-! ### Extremes -/

/-- Two doubles are equal, or neither of them is a number. -/
def SameNumber (x y : Float) : Prop := (x == y) = true ∨ x.isNaN = true ∧ y.isNaN = true

/-- A double is extreme among some: it is one of them and comes before all that are numbers. If
there are none, it is no number itself. -/
structure Extreme (before : Float → Float → Prop) (xs : List Float) (m : Float) : Prop where
  mem : m ∈ xs
  bound {x : Float} : x ∈ xs → x.isNaN = false → before m x
  nan : (∀ x ∈ xs, x.isNaN = true) → m.isNaN = true

abbrev Least : List Float → Float → Prop := Extreme fun x y => x ≤ y

abbrev Greatest : List Float → Float → Prop := Extreme fun x y => y ≤ x

section
variable {before strictly : Float → Float → Prop} [DecidableRel strictly]

/-- Of two doubles the one that comes first, passing over what is no number. -/
def firstOf (strictly : Float → Float → Prop) [DecidableRel strictly] (x y : Float) : Float :=
  if y.isNaN then x else if strictly x y then x else y

theorem firstOf_eq (strictly : Float → Float → Prop) [DecidableRel strictly] (x y : Float) :
    firstOf strictly x y = x ∨ firstOf strictly x y = y := by
  rw [firstOf]
  split_ifs <;> simp

variable (h : OrdersNumbers before strictly)
include h

theorem before_right (hy : y.isNaN = false) : before (firstOf strictly x y) y := by
  rw [firstOf, if_neg (Bool.eq_false_iff.1 hy)]
  split_ifs with hxy
  · exact h.of_strictly hxy
  · exact h.refl hy

theorem before_left (hxz : before x z) : before (firstOf strictly x y) z := by
  rw [firstOf]
  split_ifs with hnan hxy
  · exact hxz
  · exact hxz
  · exact h.trans (h.of_not_strictly (h.isNaN hxz) (Bool.eq_false_iff.2 hnan) hxy) hxz

/-- One double more leaves the one that comes first extreme. -/
theorem Extreme.concat {xs : List Float} {m : Float} (hm : Extreme before xs m) (x : Float) :
    Extreme before (xs ++ [x]) (firstOf strictly m x) where
  mem := by
    rcases firstOf_eq strictly m x with heq | heq
    · rw [heq]
      exact List.mem_append_left _ hm.mem
    · rw [heq]
      exact List.mem_append_right _ (List.mem_singleton_self x)
  bound {y} hy hnan := by
    rcases List.mem_append.1 hy with hy | hy
    · exact before_left h (hm.bound hy hnan)
    · obtain rfl := List.mem_singleton.1 hy
      exact before_right h hnan
  nan hall := by
    rcases firstOf_eq strictly m x with heq | heq
    · rw [heq]
      exact hm.nan fun y hy => hall y (List.mem_append_left _ hy)
    · rw [heq]
      exact hall x (List.mem_append_right _ (List.mem_singleton_self x))

theorem Extreme.foldl {xs : List Float} {m : Float} (hm : Extreme before xs m) (ys : List Float) :
    Extreme before (xs ++ ys) (ys.foldl (firstOf strictly) m) := by
  induction ys generalizing xs m with
  | nil => rwa [List.append_nil]
  | cons y ys ih =>
    have hrest := ih (hm.concat h y)
    rwa [List.append_assoc] at hrest

/-- The first of some doubles is taken whatever it is, and the result is extreme all the same. -/
theorem extreme_foldl (x : Float) (xs : List Float) :
    Extreme before (x :: xs) (xs.foldl (firstOf strictly) x) := by
  have hx : Extreme before [x] x := by
    refine ⟨List.mem_singleton_self x, fun hy hnan => ?_, fun hall => hall x List.mem_cons_self⟩
    obtain rfl := List.mem_singleton.1 hy
    exact h.refl hnan
  exact hx.foldl h xs

omit [DecidableRel strictly] in
/-- Extremes among the same doubles are the same. -/
theorem Extreme.sameNumber {xs ys : List Float} {m m' : Float} (hm : Extreme before xs m)
    (hm' : Extreme before ys m') (hperm : xs.Perm ys) : SameNumber m m' := by
  have hmem : m ∈ ys := hperm.mem_iff.1 hm.mem
  have hmem' : m' ∈ xs := hperm.mem_iff.2 hm'.mem
  cases hnan : m.isNaN with
  | false =>
    have hback := hm'.bound hmem hnan
    exact .inl (h.antisymm (hm.bound hmem' (h.isNaN hback)) hback)
  | true =>
    refine .inr ⟨hnan, ?_⟩
    by_contra hnumber
    rw [h.isNaN (hm.bound hmem' (Bool.eq_false_iff.2 hnumber))] at hnan
    cases hnan

end

theorem lesser_eq : lesser = firstOf fun x y => x < y := rfl

theorem greater_eq : greater = firstOf fun x y => y < x := rfl

end Crosstab.Binary64
