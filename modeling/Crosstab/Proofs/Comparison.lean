/-!
# Comparisons that may fail

Values that are compared by a view, which some of them do not have, compare where both have it. If
the views are compared by an order, so are the values: a comparison holds the other way round, and
two comparisons in one direction give a third.
-/

namespace Crosstab
variable {α β : Type}

/-- Two comparisons in one direction, of which each may also find the two values equal. -/
def SameDirection (o o' : Ordering) : Prop := o.isLE ∧ o'.isLE ∨ o.isGE ∧ o'.isGE

/-- A comparison that may fail comes from an order. -/
structure Consistent (cmp? : α → α → Option Ordering) : Prop where
  swap (a b : α) : cmp? b a = (cmp? a b).map Ordering.swap
  trans {a b c : α} {o o' : Ordering} : cmp? a b = some o → cmp? b c = some o' →
    SameDirection o o' → cmp? a c = some (o.then o')

def compareViews (view : α → Option β) (cmp : β → β → Ordering) (a b : α) : Option Ordering :=
  match view a, view b with
  | some x, some y => some (cmp x y)
  | _, _ => none

theorem compareViews_eq_some_iff {view : α → Option β} {cmp : β → β → Ordering} {a b : α}
    {o : Ordering} :
    compareViews view cmp a b = some o ↔
      ∃ x y, view a = some x ∧ view b = some y ∧ cmp x y = o := by
  cases hx : view a <;> cases hy : view b <;> simp [compareViews, hx, hy]

theorem cmp_eq_then {cmp : β → β → Ordering} [Std.TransCmp cmp] {x y z : β}
    (h : SameDirection (cmp x y) (cmp y z)) : cmp x z = (cmp x y).then (cmp y z) := by
  cases hxy : cmp x y with
  | eq => exact Std.TransCmp.congr_left hxy
  | lt =>
    have hyz : (cmp y z).isLE := by
      rw [hxy] at h
      exact (h.resolve_right nofun).2
    exact Std.TransCmp.lt_of_lt_of_isLE hxy hyz
  | gt =>
    have hyz : (cmp y z).isGE := by
      rw [hxy] at h
      exact (h.resolve_left nofun).2
    exact Std.TransCmp.gt_of_gt_of_isGE hxy hyz

theorem consistent_compareViews (view : α → Option β) (cmp : β → β → Ordering)
    [Std.TransCmp cmp] : Consistent (compareViews view cmp) where
  swap a b := by
    cases hx : view a with
    | none => cases hy : view b <;> simp [compareViews, hx, hy]
    | some x =>
      cases hy : view b with
      | none => simp [compareViews, hx, hy]
      | some y =>
        have hswap : cmp y x = (cmp x y).swap := Std.OrientedCmp.eq_swap
        simp only [compareViews, hx, hy, Option.map_some, hswap]
  trans {a b c o o'} hab hbc h := by
    obtain ⟨x, y, hx, hy, rfl⟩ := compareViews_eq_some_iff.1 hab
    obtain ⟨y', z, hy', hz, rfl⟩ := compareViews_eq_some_iff.1 hbc
    obtain rfl := Option.some.inj (hy.symm.trans hy')
    exact compareViews_eq_some_iff.2 ⟨x, z, hx, hz, cmp_eq_then h⟩

/-- What lies between two values shows that the second is not below the first. -/
theorem Consistent.ne_lt {cmp? : α → α → Option Ordering} (h : Consistent cmp?) {a b c : α}
    {o o' : Ordering} (hab : cmp? a b = some o) (ho : o.isLE) (hbc : cmp? b c = some o')
    (ho' : o'.isLE) : cmp? c a ≠ some .lt := by
  have hle : (o.then o').isLE := Ordering.isLE_then_iff_and.2 ⟨ho, .inr ho'⟩
  rw [h.swap a c, h.trans hab hbc (.inl ⟨ho, ho'⟩)]
  intro hlt
  rw [Ordering.swap_eq_lt.1 (Option.some.inj hlt)] at hle
  cases hle

end Crosstab
