import Crosstab.Pivot.Config
import Crosstab.Proofs.Binary64.Order
import Crosstab.Proofs.Calendar.Date
import Crosstab.Proofs.Text
import Mathlib.Data.String.Basic

/-!
# Filters and the order of a field

The type of a field orders its values: numbers by size, dates in time, and all else by text. Filters
follow that order on date fields. On any other field they compare two values as numbers exactly if
both stand for numbers, and by text if not, whatever the type. So they follow the order of a number
field where both values stand for numbers, and the order by text where numbers stand as their texts
do.
-/

namespace Crosstab.Pivot

/-- One value comes before another in the order of a field. -/
def Before (type : SemanticType) (v w : Value) : Prop :=
  match type with
  | .number => ∃ x y, v.asNumber? = some x ∧ w.asNumber? = some y ∧ x < y
  | .date => ∃ a b, v.asDate? = some a ∧ w.asDate? = some b ∧ a.Earlier b
  | .string | .boolean => v.display < w.display

def Same (type : SemanticType) (v w : Value) : Prop :=
  match type with
  | .number => ∃ x y, v.asNumber? = some x ∧ w.asNumber? = some y ∧ (x == y) = true
  | .date => ∃ d, v.asDate? = some d ∧ w.asDate? = some d
  | .string | .boolean => v.display = w.display

/-- What a condition says of a value in the order of a field. -/
def Condition.SatisfiedBy (type : SemanticType) (v : Value) : Condition → Prop
  | equals t => Same type v t
  | notEquals t => ¬ Same type v t
  | contains needle => ∃ key, Value.key? type (some v) = some key ∧
      (Text.lowercase needle).toList <:+: (Text.lowercase key).toList
  | greaterThan t => Before type t v
  | lessThan t => Before type v t
  | between low high =>
    (Before type low v ∨ Same type v low) ∧ (Before type v high ∨ Same type v high)
  | oneOf ts => ∃ t ∈ ts, Same type v t

def Condition.comparands : Condition → List Value
  | equals t | notEquals t | greaterThan t | lessThan t => [t]
  | contains _ => []
  | between low high => [low, high]
  | oneOf ts => ts

/-- The type of a field takes two values for what they are compared as. -/
def ComparedByType (type : SemanticType) (v w : Value) : Prop :=
  match type with
  | .number => v.asNumber?.isSome ∧ w.asNumber?.isSome
  | .date => True
  | .string | .boolean => ∀ x y, v.asNumber? = some x → w.asNumber? = some y →
      Binary64.compare? x y = some (compare v.display w.display)

/-! ### How values compare -/

section
variable {type : SemanticType} {v w : Value} {x y : Float}

theorem compare?_date :
    compare? .date (some v) w = compareViews Value.asDate? Date.compare v w := by
  cases ha : v.asDate? <;> cases hb : w.asDate? <;> simp [compare?, compareViews, ha, hb]

theorem compare?_of_numbers (htype : type ≠ .date) (hx : v.asNumber? = some x)
    (hy : w.asNumber? = some y) : compare? type (some v) w = Binary64.compare? x y := by
  simp only [compare?, if_neg htype, hx, hy]

theorem compare?_of_text (htype : type ≠ .date) (h : v.asNumber? = none ∨ w.asNumber? = none) :
    compare? type (some v) w = some (compare v.display w.display) := by
  simp only [compare?, if_neg htype, Value.key?_eq_display htype, Option.map_some]
  split
  · rename_i x y hx hy
    rw [hx, hy] at h
    exact absurd h (by simp)
  · rfl

end

/-! ### The order as a comparison -/

def order? (type : SemanticType) (v w : Value) : Option Ordering :=
  match type with
  | .number => v.asNumber?.bind fun x => w.asNumber?.bind fun y => Binary64.compare? x y
  | .date => compareViews Value.asDate? Date.compare v w
  | .string | .boolean => some (compare v.display w.display)

section
variable {type : SemanticType} {v w : Value}

theorem order?_number :
    order? .number =
      compareViews (fun v => v.asNumber?.bind Binary64.place?) Binary64.Place.compare := by
  funext v w
  simp only [order?, Binary64.compare?_eq_compareViews]
  cases hx : v.asNumber? with
  | none => simp [compareViews, hx]
  | some x =>
    cases hy : w.asNumber? with
    | none => cases hp : Binary64.place? x <;> simp [compareViews, hx, hy, hp]
    | some y => simp [compareViews, hx, hy]

theorem consistent_order? (type : SemanticType) : Consistent (order? type) := by
  cases type with
  | number => exact order?_number ▸ consistent_compareViews _ Binary64.Place.compare
  | date => exact consistent_compareViews Value.asDate? Date.compare
  | string | boolean => exact consistent_compareViews (fun v : Value => some v.display) compare

theorem order?_eq_lt_iff : order? type v w = some .lt ↔ Before type v w := by
  cases type with
  | number =>
    simp only [order?, Before, Option.bind_eq_some_iff, Binary64.compare?_eq_lt_iff,
      exists_and_left]
  | date => simp only [order?, Before, compareViews_eq_some_iff, Date.compare_eq_lt_iff]
  | string | boolean => exact Option.some_inj.trans compare_lt_iff_lt

theorem order?_eq_gt_iff : order? type v w = some .gt ↔ Before type w v := by
  rw [← order?_eq_lt_iff, (consistent_order? type).swap v w]
  cases order? type v w with
  | none => exact ⟨nofun, nofun⟩
  | some o => cases o <;> decide

theorem order?_eq_eq_iff : order? type v w = some .eq ↔ Same type v w := by
  cases type with
  | number =>
    simp only [order?, Same, Option.bind_eq_some_iff, Binary64.compare?_eq_eq_iff, exists_and_left]
  | date =>
    simp only [order?, Same, compareViews_eq_some_iff, Date.compare_eq_eq_iff]
    constructor
    · rintro ⟨a, b, ha, hb, rfl⟩
      exact ⟨a, ha, hb⟩
    · rintro ⟨a, ha, hb⟩
      exact ⟨a, a, ha, hb, rfl⟩
  | string | boolean => exact Option.some_inj.trans compare_eq_iff_eq

theorem comparedByType_iff :
    ComparedByType type v w ↔ compare? type (some v) w = order? type v w := by
  by_cases hdate : type = .date
  · subst hdate
    exact iff_of_true trivial compare?_date
  -- Of the other types, the one of numbers asks for two numbers and the rest for text.
  cases hx : v.asNumber? with
  | none =>
    rw [compare?_of_text hdate (.inl hx)]
    cases type <;> simp [ComparedByType, order?, hx] at hdate ⊢
  | some x =>
    cases hy : w.asNumber? with
    | none =>
      rw [compare?_of_text hdate (.inr hy)]
      cases type <;> simp [ComparedByType, order?, hx, hy] at hdate ⊢
    | some y =>
      rw [compare?_of_numbers hdate hx hy]
      cases type <;> simp [ComparedByType, order?, hx, hy] at hdate ⊢

theorem comparedByType_of_numbers {x y : Float} (hx : v.asNumber? = some x)
    (hy : w.asNumber? = some y) (h : Binary64.compare? x y = some (compare v.display w.display)) :
    ComparedByType .string v w := by
  intro x' y' hx' hy'
  rw [← Option.some.inj (hx.symm.trans hx'), ← Option.some.inj (hy.symm.trans hy')]
  exact h

/-- A condition that compares by type holds of the values of which it says so. -/
theorem Condition.holds_iff_satisfiedBy {c : Condition}
    (h : ∀ t ∈ c.comparands, ComparedByType type v t) :
    c.holds type (some v) = true ↔ c.SatisfiedBy type v := by
  simp only [comparedByType_iff] at h
  cases c with
  | equals t | notEquals t | greaterThan t | lessThan t =>
    simp only [comparands, List.forall_mem_singleton] at h
    simp only [holds, h, SatisfiedBy, decide_eq_true_eq, ne_eq, order?_eq_lt_iff, order?_eq_eq_iff,
      order?_eq_gt_iff]
  | contains needle =>
    rw [holds, SatisfiedBy]
    cases Value.key? type (some v) with
    | none => simp
    | some key => simp [Text.contains, Text.hasInfix_iff]
  | between low high =>
    obtain ⟨hlow, hhigh⟩ := List.forall_mem_cons.1 h
    rw [List.forall_mem_singleton] at hhigh
    simp only [holds, hlow, hhigh, SatisfiedBy, Bool.and_eq_true, Bool.or_eq_true,
      decide_eq_true_eq, order?_eq_lt_iff, order?_eq_eq_iff, order?_eq_gt_iff]
  | oneOf ts =>
    simp only [holds, List.any_eq_true, SatisfiedBy, decide_eq_true_eq]
    apply exists_congr
    intro t
    apply and_congr_right
    intro ht
    rw [h t ht, order?_eq_eq_iff]

theorem order?_self (htype : type = .string ∨ type = .boolean) (v : Value) :
    order? type v v = some .eq := by
  obtain rfl | rfl := htype <;> exact congrArg some Std.ReflOrd.compare_self

theorem comparedByType_self (htype : type = .string ∨ type = .boolean) :
    ComparedByType type v v ↔ ∀ x, v.asNumber? = some x → x.isNaN = false := by
  have hself : ComparedByType type v v ↔ ∀ x y, v.asNumber? = some x → v.asNumber? = some y →
      Binary64.compare? x y = some .eq := by
    obtain rfl | rfl := htype <;> simp only [ComparedByType, Std.ReflOrd.compare_self]
  simp only [hself, Binary64.compare?_eq_eq_iff, ← Binary64.beq_self_iff]
  constructor
  · exact fun h x hx => h x x hx hx
  · intro h x y hx hy
    obtain rfl := Option.some.inj (hx.symm.trans hy)
    exact h x hx

/-- A filter follows the order of its field where it compares values by the type of the field, so on
date fields always, and on no two other values. In a field of texts or truth values, a value is
equal to itself unless it is read as the number that is none. -/
theorem accepts_iff_satisfiedBy (f : Field) (v : Value) :
    (∀ c : Condition, (∀ t ∈ c.comparands, ComparedByType f.type v t) →
      (Filter.accepts ⟨f, c⟩ (some v) = true ↔ c.SatisfiedBy f.type v)) ∧
    (∀ t, (∀ c : Condition, c.comparands = [t] →
      (Filter.accepts ⟨f, c⟩ (some v) = true ↔ c.SatisfiedBy f.type v)) →
      ComparedByType f.type v t) ∧
    (f.type = .string ∨ f.type = .boolean →
      (Filter.accepts ⟨f, .equals v⟩ (some v) = true ↔
        ∀ x, v.asNumber? = some x → x.isNaN = false)) := by
  refine ⟨fun c h => Condition.holds_iff_satisfiedBy h, fun t h => ?_, fun htype => ?_⟩
  -- Three conditions with one operand tell the three outcomes of a comparison apart.
  · have hlt := h (.lessThan t) rfl
    have heq := h (.equals t) rfl
    have hgt := h (.greaterThan t) rfl
    simp only [Filter.accepts, Condition.holds, Condition.SatisfiedBy, decide_eq_true_eq,
      ← order?_eq_lt_iff, ← order?_eq_eq_iff] at hlt heq hgt
    rw [order?_eq_lt_iff, ← order?_eq_gt_iff] at hgt
    rw [comparedByType_iff]
    ext o
    cases o
    · exact hlt
    · exact heq
    · exact hgt
  · rw [← comparedByType_self htype, comparedByType_iff, order?_self htype, Filter.accepts,
      Condition.holds, decide_eq_true_iff]

end

section Sample

def branch : Field := .base "agencia" "Agência" .string none

def sevenOrNan : Condition := .oneOf [.text "7", .text "Nan"]

/-- In a field of texts, 007 is taken for 7, and Nan is not equal to itself. -/
theorem branch_against_text :
    (Filter.accepts ⟨branch, sevenOrNan⟩ (some (.text "007")) = true ∧
      ¬ sevenOrNan.SatisfiedBy branch.type (.text "007")) ∧
    Filter.accepts ⟨branch, sevenOrNan⟩ (some (.text "Nan")) = false ∧
      sevenOrNan.SatisfiedBy branch.type (.text "Nan") := by
  refine ⟨⟨by decide +kernel, ?_⟩, by decide +kernel, .text "Nan", by decide, rfl⟩
  rintro ⟨t, ht, hsame⟩
  obtain rfl | rfl : t = .text "7" ∨ t = .text "Nan" := by simpa [sevenOrNan] using ht
  · exact absurd hsame (by decide : ¬ "007" = "7")
  · exact absurd hsame (by decide : ¬ "007" = "Nan")

/-- Numbers of two digits stand as their texts do. -/
theorem branch_by_text :
    (∀ t ∈ [.text "10", .text "20"], ComparedByType branch.type (.text "15") t) ∧
    (Filter.accepts ⟨branch, .between (.text "10") (.text "20")⟩ (some (.text "15")) = true ↔
      Condition.SatisfiedBy branch.type (.text "15") (.between (.text "10") (.text "20"))) ∧
    ComparedByType branch.type (.text "15") (.text "10") ∧
    (Filter.accepts ⟨branch, .equals (.text "15")⟩ (some (.text "15")) = true ↔
      ∀ x, Value.asNumber? (.text "15") = some x → x.isNaN = false) := by
  obtain ⟨hfollows, hexact, hself⟩ := accepts_iff_satisfiedBy branch (.text "15")
  have hv : Value.asNumber? (.text "15") = some 15.0 := by decide +kernel
  have hlow : Value.asNumber? (.text "10") = some 10.0 := by decide +kernel
  have hhigh : Value.asNumber? (.text "20") = some 20.0 := by decide +kernel
  have hdigits : ∀ t ∈ [.text "10", .text "20"], ComparedByType branch.type (.text "15") t := by
    rw [List.forall_mem_cons, List.forall_mem_singleton]
    exact ⟨comparedByType_of_numbers hv hlow (by decide +kernel),
      comparedByType_of_numbers hv hhigh (by decide +kernel)⟩
  refine ⟨hdigits, hfollows _ hdigits, hexact _ fun c hc => hfollows c ?_, hself (.inl rfl)⟩
  rw [hc]
  exact fun t ht => hdigits t (List.mem_cons.2 (.inl (List.mem_singleton.1 ht)))

end Sample

end Crosstab.Pivot
