import Crosstab.Calendar
import Mathlib.Data.List.Basic

/-!
# The order and the text of dates

Dates compare by year, month and day. The text of a date determines it.
-/

namespace Crosstab.Date

def Earlier (a b : Date) : Prop :=
  a.year < b.year ∨
    a.year = b.year ∧ (a.month < b.month ∨ a.month = b.month ∧ a.day < b.day)

instance : Std.TransCmp Date.compare :=
  inferInstanceAs (Std.TransCmp (compareLex (compareOn Date.year)
    (compareLex (compareOn Date.month) (compareOn Date.day))))

theorem compare_eq_lt_iff {a b : Date} : a.compare b = .lt ↔ a.Earlier b := by
  simp only [Date.compare, Earlier, Ordering.then_eq_lt, Int.compare_eq_lt, Int.compare_eq_eq,
    Nat.compare_eq_lt, Nat.compare_eq_eq]

theorem eq_iff_numbers {a b : Date} :
    a = b ↔ a.year = b.year ∧ a.month = b.month ∧ a.day = b.day := by
  cases a
  cases b
  simp only [Date.mk.injEq]

theorem compare_eq_eq_iff {a b : Date} : a.compare b = .eq ↔ a = b := by
  simp only [Date.compare, eq_iff_numbers, Ordering.then_eq_eq, Int.compare_eq_eq,
    Nat.compare_eq_eq]

/-! ### Text -/

theorem isDigit_of_mem_padded {width n : Nat} {c : Char} (h : c ∈ (padded width n).toList) :
    c.isDigit = true := by
  simp only [padded, String.toList_append, String.toList_ofList, List.mem_append,
    Nat.toList_repr] at h
  obtain h | h := h
  · rw [List.eq_of_mem_replicate h]
    rfl
  · exact Nat.isDigit_of_mem_toDigits (by decide) (by decide) h

theorem ofDigitChars_padded (width n : Nat) :
    Nat.ofDigitChars 10 (padded width n).toList 0 = n := by
  have hzeros (k : Nat) : Nat.ofDigitChars 10 (List.replicate k '0') 0 = 0 := by
    induction k with
    | zero => rfl
    | succ k ih => exact ih
  simp only [padded, String.toList_append, String.toList_ofList, Nat.toList_repr,
    Nat.ofDigitChars_append, hzeros]
  exact Nat.ofDigitChars_toDigits (by decide) (by decide)

theorem padded_injective (width : Nat) : Function.Injective (padded width) := by
  intro m n h
  rw [← ofDigitChars_padded width m, ← ofDigitChars_padded width n, h]

def yearOf : List Char → Int
  | '-' :: ds => -(Nat.ofDigitChars 10 ds 0 : Int)
  | '+' :: ds => Nat.ofDigitChars 10 ds 0
  | ds => Nat.ofDigitChars 10 ds 0

@[simp]
theorem yearOf_minus (ds : List Char) :
    yearOf ('-' :: ds) = -(Nat.ofDigitChars 10 ds 0 : Int) := rfl

@[simp]
theorem yearOf_plus (ds : List Char) : yearOf ('+' :: ds) = Nat.ofDigitChars 10 ds 0 := by
  simp only [yearOf]

theorem yearOf_padded (width n : Nat) : yearOf (padded width n).toList = n := by
  have hdigits := @isDigit_of_mem_padded width n
  have hvalue := ofDigitChars_padded width n
  unfold yearOf
  split
  · rename_i ds hds
    exact absurd (hdigits (hds ▸ List.mem_cons_self)) (by decide)
  · rename_i ds hds
    exact absurd (hdigits (hds ▸ List.mem_cons_self)) (by decide)
  · rw [hvalue]

theorem yearOf_yearText (year : Int) : yearOf (yearText year).toList = year := by
  have hvalue := ofDigitChars_padded 4 year.natAbs
  by_cases hneg : year < 0
  · simp [yearText, hneg, hvalue, Int.ofNat_natAbs_of_nonpos (Int.le_of_lt hneg)]
  · have habs : (year.natAbs : Int) = year := Int.natAbs_of_nonneg (Int.not_lt.1 hneg)
    by_cases hlong : 9999 < year
    · simp [yearText, hneg, hlong, hvalue, habs]
    · simp [yearText, hneg, hlong, yearOf_padded, habs]

theorem yearText_injective : Function.Injective yearText := by
  intro y z h
  rw [← yearOf_yearText y, ← yearOf_yearText z, h]

theorem slash_notMem_padded (width n : Nat) : '/' ∉ (padded width n).toList :=
  fun h => absurd (isDigit_of_mem_padded h) (by decide)

theorem toList_text (d : Date) :
    d.text.toList = (padded 2 d.day).toList ++
      '/' :: ((padded 2 d.month).toList ++ '/' :: (yearText d.year).toList) := by
  simp [text]

theorem slash_mem_text (d : Date) : '/' ∈ d.text.toList := by
  rw [toList_text]
  exact List.mem_append_right _ List.mem_cons_self

theorem eq_of_append_slash {before before' after after' : List Char} (h : '/' ∉ before)
    (h' : '/' ∉ before') (heq : before ++ '/' :: after = before' ++ '/' :: after') :
    before = before' ∧ after = after' := by
  obtain ⟨mid, rfl, hmid⟩ | ⟨mid, rfl, hmid⟩ := List.append_eq_append_iff.1 heq
  · cases mid with
    | nil => simpa using hmid
    | cons c mid =>
      obtain ⟨rfl, -⟩ := List.cons_eq_cons.1 hmid
      simp at h'
  · cases mid with
    | nil => simpa using hmid.symm
    | cons c mid =>
      obtain ⟨rfl, -⟩ := List.cons_eq_cons.1 hmid
      simp at h

theorem text_injective : Function.Injective text := by
  intro a b h
  have hlist : a.text.toList = b.text.toList := by rw [h]
  rw [toList_text, toList_text] at hlist
  obtain ⟨hday, hrest⟩ :=
    eq_of_append_slash (slash_notMem_padded 2 a.day) (slash_notMem_padded 2 b.day) hlist
  obtain ⟨hmonth, hyear⟩ :=
    eq_of_append_slash (slash_notMem_padded 2 a.month) (slash_notMem_padded 2 b.month) hrest
  exact eq_iff_numbers.2 ⟨yearText_injective (String.toList_injective hyear),
    padded_injective 2 (String.toList_injective hmonth),
    padded_injective 2 (String.toList_injective hday)⟩

end Crosstab.Date
