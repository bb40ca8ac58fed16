import Crosstab.Calendar
import Crosstab.Proofs.Calendar.Date
import Crosstab.Proofs.Text
import Mathlib.Algebra.Group.Nat.Defs

/-!
# Dates are read back from their texts

Read year first, the text of a date that is written year first yields the date, for every year of
the calendar. A text that is written day first is none year first, and read day first it yields its
date. White space around a text does not matter.
-/

namespace Crosstab

open Calendar
open Decimal (isDigit digitsValue)

namespace Calendar

theorem daysIn_le (year : Int) (month : Nat) : daysIn year month ≤ 31 := by
  unfold daysIn
  grind

/-- There are twelve months. -/
theorem daysIn_of_lt (year : Int) {month : Nat} (h : 12 < month) : daysIn year month = 0 := by
  unfold daysIn
  grind

end Calendar

/-! ### Written numbers -/

namespace Date

theorem padded_ne_nil (width n : Nat) : (padded width n).toList ≠ [] := by
  simp [padded, Nat.toDigits_ne_nil]

theorem length_padded_le {width n : Nat} (hwidth : 0 < width) (hn : n < 10 ^ width) :
    (padded width n).toList.length ≤ width := by
  have hdigits := (Nat.length_repr_le_iff hwidth).2 hn
  simp only [padded, String.toList_append, String.toList_ofList, List.length_append,
    List.length_replicate, String.length_toList]
  omega

theorem isBlank_of_mem_padded {width n : Nat} {c : Char} (h : c ∈ (padded width n).toList) :
    Text.isBlank c = false :=
  Text.isBlank_of_isDigit (isDigit_of_mem_padded h)

theorem yearText_ne_nil (year : Int) : (yearText year).toList ≠ [] := by
  rw [yearText, String.toList_append]
  exact List.append_ne_nil_of_right_ne_nil _ (padded_ne_nil 4 _)

theorem isBlank_of_mem_yearText {year : Int} {c : Char} (h : c ∈ (yearText year).toList) :
    Text.isBlank c = false := by
  rw [yearText, String.toList_append, List.mem_append] at h
  obtain h | h := h
  · split_ifs at h
    · obtain rfl : c = '-' := by simpa using h
      decide
    · obtain rfl : c = '+' := by simpa using h
      decide
    · simp at h
  · exact isBlank_of_mem_padded h

theorem toList_isoText (d : Date) :
    d.isoText.toList = (yearText d.year).toList ++
      '-' :: ((padded 2 d.month).toList ++ '-' :: (padded 2 d.day).toList) := by
  simp [isoText]

theorem isBlank_of_mem_isoText {d : Date} {c : Char} (h : c ∈ d.isoText.toList) :
    Text.isBlank c = false := by
  simp only [toList_isoText, List.mem_append, List.mem_cons] at h
  rcases h with h | rfl | h | rfl | h
  · exact isBlank_of_mem_yearText h
  · decide
  · exact isBlank_of_mem_padded h
  · decide
  · exact isBlank_of_mem_padded h

theorem isBlank_of_mem_text {d : Date} {c : Char} (h : c ∈ d.text.toList) :
    Text.isBlank c = false := by
  simp only [toList_text, List.mem_append, List.mem_cons] at h
  rcases h with h | rfl | h | rfl | h
  · exact isBlank_of_mem_padded h
  · decide
  · exact isBlank_of_mem_padded h
  · decide
  · exact isBlank_of_mem_yearText h

theorem day_lt (d : Date) : d.day < 100 := by
  have hday := d.valid.2.2.2
  have hlong := daysIn_le d.year d.month
  omega

theorem month_lt (d : Date) : d.month < 100 := by
  have hday := d.valid.2.2
  by_contra hlarge
  have hnone := daysIn_of_lt d.year (Nat.lt_of_lt_of_le (by decide) (Nat.le_of_not_lt hlarge))
  omega

end Date

/-! ### Reading them -/

namespace Calendar

open Date (padded yearText)

section
variable {rest : List Char} (hrest : rest.takeWhile isDigit = [])
include hrest

/-- Digits are read up to where they end. -/
theorem number?_padded {most width n : Nat} (hmost : (padded width n).toList.length ≤ most) :
    number? most ((padded width n).toList ++ rest) = some (n, rest) := by
  have hall : ∀ c ∈ (padded width n).toList, isDigit c = true :=
    fun c => Date.isDigit_of_mem_padded
  have hdigits : (((padded width n).toList ++ rest).takeWhile isDigit).take most =
      (padded width n).toList := by
    rw [List.takeWhile_append_of_pos hall, hrest, List.append_nil, List.take_of_length_le hmost]
  have hvalue : digitsValue (padded width n).toList = n := Date.ofDigitChars_padded width n
  rw [number?, hdigits, if_neg (Date.padded_ne_nil width n), hvalue, List.drop_left]

/-- A number without a sign is a year of at most four digits. -/
theorem year?_padded {width n : Nat} (hlength : (padded width n).toList.length ≤ 4) :
    year? ((padded width n).toList ++ rest) = some ((n : Int), rest) := by
  have hdigit := @Date.isDigit_of_mem_padded width n
  have hnumber := number?_padded hrest hlength
  obtain ⟨c, cs, hcs⟩ := List.exists_cons_of_ne_nil (Date.padded_ne_nil width n)
  rw [hcs, List.cons_append] at hnumber ⊢
  have hc := hdigit (hcs ▸ List.mem_cons_self)
  unfold year?
  split
  · rename_i heq
    rw [(List.cons.inj heq).1] at hc
    exact absurd hc (by decide)
  · rename_i heq
    rw [(List.cons.inj heq).1] at hc
    exact absurd hc (by decide)
  · rw [hnumber]
    rfl

/-- The text of a year is read as the year, with its sign or without. -/
theorem year?_yearText (year : Int) :
    year? ((yearText year).toList ++ rest) = some (year, rest) := by
  have hlong : (padded 4 year.natAbs).toList.length ≤
      ((padded 4 year.natAbs).toList ++ rest).length := by
    rw [List.length_append]
    exact Nat.le_add_right _ _
  have hnumber := number?_padded hrest hlong
  by_cases hneg : year < 0
  · have habs : -(year.natAbs : Int) = year := by omega
    have hsign : (yearText year).toList = '-' :: (padded 4 year.natAbs).toList := by
      simp [yearText, hneg]
    rw [hsign, List.cons_append, year?, hnumber, Option.map_some]
    exact congrArg (fun y => some (y, rest)) habs
  · have habs : (year.natAbs : Int) = year := by omega
    by_cases hlarge : 9999 < year
    · have hsign : (yearText year).toList = '+' :: (padded 4 year.natAbs).toList := by
        simp [yearText, hneg, hlarge]
      rw [hsign, List.cons_append, year?, hnumber, Option.map_some]
      exact congrArg (fun y => some (y, rest)) habs
    · have hplain : (yearText year).toList = (padded 4 year.natAbs).toList := by
        simp [yearText, hneg, hlarge]
      rw [hplain, year?_padded hrest (Date.length_padded_le (by decide) (by omega)), habs]

end

/-! ### Reading dates -/

section
variable (numbers : Numbers) (parts : Pattern) {rest : List Char}

theorem readFrom?_mark (c : Char) :
    Pattern.readFrom? numbers (.mark c :: parts) (c :: rest) = parts.readFrom? numbers rest := by
  rw [Pattern.readFrom?, if_pos rfl]

variable (hrest : rest.takeWhile isDigit = [])
include hrest

theorem readFrom?_year (year : Int) :
    Pattern.readFrom? numbers (.year :: parts) ((yearText year).toList ++ rest) =
      parts.readFrom? { numbers with year := year } rest := by
  rw [Pattern.readFrom?, Text.dropWhile_isBlank_append (Date.yearText_ne_nil year)
    (fun c => Date.isBlank_of_mem_yearText), year?_yearText hrest]

theorem readFrom?_month {month : Nat} (h : month < 100) :
    Pattern.readFrom? numbers (.month :: parts) ((padded 2 month).toList ++ rest) =
      parts.readFrom? { numbers with month := month } rest := by
  rw [Pattern.readFrom?, Text.dropWhile_isBlank_append (Date.padded_ne_nil 2 month)
    (fun c => Date.isBlank_of_mem_padded),
    number?_padded hrest (Date.length_padded_le (by decide) h)]

theorem readFrom?_day {day : Nat} (h : day < 100) :
    Pattern.readFrom? numbers (.day :: parts) ((padded 2 day).toList ++ rest) =
      parts.readFrom? { numbers with day := day } rest := by
  rw [Pattern.readFrom?, Text.dropWhile_isBlank_append (Date.padded_ne_nil 2 day)
    (fun c => Date.isBlank_of_mem_padded),
    number?_padded hrest (Date.length_padded_le (by decide) h)]

end

/-- What is written year first is read year first. -/
theorem read?_yearFirst (d : Date) : yearFirst.read? d.isoText.toList = some d := by
  rw [Pattern.read?, yearFirst, d.toList_isoText, readFrom?_year _ _ rfl, readFrom?_mark,
    readFrom?_month _ _ rfl d.month_lt, readFrom?_mark, ← List.append_nil (padded 2 d.day).toList,
    readFrom?_day _ _ rfl d.day_lt]
  exact d.ofNumbers?_eq_some

theorem read?_dayFirst (d : Date) : dayFirst.read? d.text.toList = some d := by
  rw [Pattern.read?, dayFirst, d.toList_text, readFrom?_day _ _ rfl d.day_lt, readFrom?_mark,
    readFrom?_month _ _ rfl d.month_lt, readFrom?_mark, ← List.append_nil (yearText d.year).toList,
    readFrom?_year _ _ rfl]
  exact d.ofNumbers?_eq_some

/-- A date that is written day first is not read year first: its day would be the year, but no dash
follows. -/
theorem read?_yearFirst_text (d : Date) : yearFirst.read? d.text.toList = none := by
  have hday : (padded 2 d.day).toList.length ≤ 2 := Date.length_padded_le (by decide) d.day_lt
  rw [Pattern.read?, yearFirst, Date.toList_text, Pattern.readFrom?,
    Text.dropWhile_isBlank_append (Date.padded_ne_nil 2 d.day)
      (fun c => Date.isBlank_of_mem_padded),
    year?_padded rfl (Nat.le_trans hday (by decide))]
  rfl

end Calendar

namespace Date
variable {d : Date} {s : String}

theorem ofText?_of_isoText (h : Text.WithBlanks d.isoText s) : ofText? s = some d := by
  rw [ofText?, h.trimBlank_eq fun c => isBlank_of_mem_isoText, read?_yearFirst, Option.some_or]

theorem ofText?_of_text (h : Text.WithBlanks d.text s) : ofText? s = some d := by
  rw [ofText?, h.trimBlank_eq fun c => isBlank_of_mem_text, read?_yearFirst_text, read?_dayFirst,
    Option.none_or, Option.some_or]

end Date

end Crosstab
