import Crosstab.Proofs.Calendar.Date
import Crosstab.Proofs.Text
import Crosstab.Record

/-!
# What values are read as

A text that is read as a number has only digits, signs, a point and the letters of an exponent or
of a name. So it is neither trimmed nor the text of a date. If numbers can be read back from their
texts, values with one key are read as the same number, or in a date field as the same date.
-/

namespace Crosstab

/-! ### The characters of a number -/

namespace Decimal

/-- Digits, signs and the point, and the letters of `e`, `inf`, `infinity` and `nan`. -/
def isNumberChar (c : Char) : Bool := isDigit c || "+-.aefinty".toList.contains c.toLower

theorem isNumberChar_of_isDigit {c : Char} (h : isDigit c = true) : isNumberChar c = true := by
  rw [isNumberChar, h, Bool.true_or]

theorem isNumberChar_of_toLower {c : Char} (h : c.toLower ∈ "+-.aefinty".toList) :
    isNumberChar c = true := by
  rw [isNumberChar, List.contains_iff_mem.2 h, Bool.or_true]

/-- A sign in front of a text does not matter for what its characters are. -/
theorem forall_isNumberChar_takeSign {cs : List Char}
    (h : ∀ c ∈ (takeSign cs).2, isNumberChar c = true) : ∀ c ∈ cs, isNumberChar c = true := by
  unfold takeSign at h
  split at h
  · exact List.forall_mem_cons.2 ⟨by decide, h⟩
  · exact List.forall_mem_cons.2 ⟨by decide, h⟩
  · exact h

theorem forall_isNumberChar_of_digits {cs : List Char}
    (h : ∀ c ∈ cs.dropWhile isDigit, isNumberChar c = true) : ∀ c ∈ cs, isNumberChar c = true := by
  induction cs with
  | nil => exact nofun
  | cons c cs ih =>
    by_cases hc : isDigit c = true
    · rw [List.dropWhile_cons_of_pos hc] at h
      exact List.forall_mem_cons.2 ⟨isNumberChar_of_isDigit hc, ih h⟩
    · rwa [List.dropWhile_cons_of_neg hc] at h

theorem forall_isNumberChar_of_exponent? {cs : List Char} {e : Int} (h : exponent? cs = some e) :
    ∀ c ∈ cs, isNumberChar c = true := by
  cases cs with
  | nil => exact nofun
  | cons c cs =>
    simp only [exponent?, Option.ite_none_right_eq_some, Option.some.injEq] at h
    obtain ⟨hc, ⟨-, hdigits⟩, -⟩ := h
    refine List.forall_mem_cons.2 ⟨?_, forall_isNumberChar_takeSign fun d hd =>
      isNumberChar_of_isDigit (List.all_eq_true.1 hdigits d hd)⟩
    obtain rfl | rfl := hc <;> decide

theorem forall_isNumberChar_of_magnitude? {negative : Bool} {cs : List Char} {n : Numeral}
    (h : Numeral.magnitude? negative cs = some n) : ∀ c ∈ cs, isNumberChar c = true := by
  apply forall_isNumberChar_of_digits
  simp only [Numeral.magnitude?, Option.ite_none_left_eq_some, Option.map_eq_some_iff] at h
  obtain ⟨-, e, he, -⟩ := h
  have hrest := forall_isNumberChar_of_exponent? he
  split at hrest
  · rename_i ds hpoint
    rw [hpoint]
    exact List.forall_mem_cons.2 ⟨by decide, forall_isNumberChar_of_digits hrest⟩
  · exact hrest

theorem forall_isNumberChar_of_name {name : List Char} {s : String}
    (h : lowerAscii (String.ofList name) = s)
    (hs : s.toList.all ("+-.aefinty".toList.contains ·) = true) :
    ∀ c ∈ name, isNumberChar c = true := by
  intro c hc
  apply isNumberChar_of_toLower
  apply List.contains_iff_mem.1
  apply List.all_eq_true.1 hs
  rw [← h, lowerAscii, String.toList_ofList, String.toList_ofList]
  exact List.mem_map_of_mem hc

/-- Only the characters of numbers stand in a text that is read as a number. -/
theorem isNumberChar_of_number? {s : String} {x : Float} (h : number? s = some x) :
    ∀ c ∈ s.toList, isNumberChar c = true := by
  apply forall_isNumberChar_takeSign
  simp only [number?] at h
  split at h
  · rename_i hname
    exact forall_isNumberChar_of_name hname (by decide)
  · split at h
    · rename_i hname
      obtain hname | hname := hname
      · exact forall_isNumberChar_of_name hname (by decide)
      · exact forall_isNumberChar_of_name hname (by decide)
    · obtain ⟨n, hn, -⟩ := Option.map_eq_some_iff.1 h
      exact forall_isNumberChar_of_magnitude? hn

theorem isBlank_of_isNumberChar {c : Char} (h : isNumberChar c = true) :
    Text.isBlank c = false := by
  rw [isNumberChar, Bool.or_eq_true, List.contains_iff_mem] at h
  obtain h | h := h
  · exact Text.isBlank_of_isDigit h
  · unfold Char.toLower at h
    split at h
    · rename_i hupper
      have hlow : 65 ≤ c.toNat := hupper.1
      have hhigh : c.toNat ≤ 90 := hupper.2
      exact Text.isBlank_of_bounds (by omega) (by omega)
    · have hletters : "+-.aefinty".toList.all (!Text.isBlank ·) = true := by decide
      simpa using List.all_eq_true.1 hletters c h

theorem trim_of_number? {s : String} {x : Float} (h : number? s = some x) : Text.trim s = s :=
  Text.trim_eq_self fun c hc => isBlank_of_isNumberChar (isNumberChar_of_number? h c hc)

theorem slash_notMem_of_number? {s : String} {x : Float} (h : number? s = some x) :
    '/' ∉ s.toList :=
  fun hc => absurd (isNumberChar_of_number? h '/' hc) (by decide)

end Decimal

/-! ### Keys and views -/

namespace Value
variable {v w : Value} {d : Date}

def ReadsBack (v : Value) : Prop := ∀ x, v = .number x → Decimal.number? (numberText x) = some x

/-- The number that a value stands for is the one that its display text spells. -/
theorem asNumber?_eq_number?_display (h : v.ReadsBack) :
    v.asNumber? = Decimal.number? (Text.trim v.display) := by
  cases v with
  | boolean b => cases b <;> decide +kernel
  | number x => rw [display, Decimal.trim_of_number? (h x rfl), h x rfl, asNumber?]
  | date d =>
    cases hx : Decimal.number? (Text.trim d.text) with
    | none => exact hx.symm
    | some x =>
      exact absurd (Text.mem_trim d.slash_mem_text (by decide)) (Decimal.slash_notMem_of_number? hx)
  | text s => rfl

theorem ofText?_of_blank {s : String} (h : Text.trim s = "") : Date.ofText? s = none := by
  have hnil : Text.trimBlank s.toList = [] := by simpa [Text.trim] using h
  rw [Date.ofText?, hnil]
  decide +kernel

/-- A value stands for a date exactly if its key in a date field is the text of the date. -/
theorem asDate?_eq_some_iff (h : v.ReadsBack) :
    v.asDate? = some d ↔ key? .date (some v) = some d.text := by
  have hslash := d.slash_mem_text
  cases v with
  | boolean b =>
    refine iff_of_false (Option.some_ne_none d).symm fun hkey => ?_
    rw [← Option.some.inj hkey] at hslash
    cases b <;> exact absurd hslash (by decide)
  | number x =>
    refine iff_of_false (Option.some_ne_none d).symm fun hkey => ?_
    rw [← Option.some.inj hkey] at hslash
    exact Decimal.slash_notMem_of_number? (h x rfl) hslash
  | date e => simp [asDate?, key?, display, Date.text_injective.eq_iff]
  | text s =>
    rw [asDate?, key?, if_pos rfl]
    split
    · rename_i hblank
      rw [ofText?_of_blank hblank]
      refine iff_of_false (Option.some_ne_none d).symm fun hkey => ?_
      rw [← Option.some.inj hkey] at hslash
      exact absurd hslash (by decide)
    · rw [Option.map_eq_some_iff]
      constructor
      · exact fun hd => ⟨d, hd, rfl⟩
      · rintro ⟨e, he, htext⟩
        rw [he, Date.text_injective htext]

theorem asDate?_congr (hv : v.ReadsBack) (hw : w.ReadsBack)
    (h : key? .date (some v) = key? .date (some w)) : v.asDate? = w.asDate? := by
  ext d
  rw [asDate?_eq_some_iff hv, asDate?_eq_some_iff hw, h]

theorem asNumber?_congr {type : SemanticType} (hv : v.ReadsBack) (hw : w.ReadsBack)
    (htype : type ≠ .date) (h : key? type (some v) = key? type (some w)) :
    v.asNumber? = w.asNumber? := by
  rw [key?_eq_display htype, key?_eq_display htype, Option.some.injEq] at h
  rw [asNumber?_eq_number?_display hv, asNumber?_eq_number?_display hw, h]

end Value

end Crosstab
