import Crosstab.Decimal
import Crosstab.Text
import Mathlib.Data.List.Infix
import Mathlib.Data.List.TakeWhile

/-!
# Trimming and searching

To trim a text takes away only white space. A text has another one in it if that is a part of it
without gaps.
-/

namespace Crosstab.Text
variable {c : Char} {cs : List Char}

theorem isBlank_of_bounds (hlow : 0x21 ≤ c.toNat) (hhigh : c.toNat < 0x85) : isBlank c = false := by
  simp only [isBlank, Bool.or_eq_false_iff, Bool.and_eq_false_iff, beq_eq_false_iff_ne,
    decide_eq_false_iff_not]
  omega

theorem isBlank_of_isDigit (h : Decimal.isDigit c = true) : isBlank c = false := by
  simp only [Decimal.isDigit, Bool.and_eq_true, decide_eq_true_eq] at h
  have hlow : 48 ≤ c.toNat := h.1
  have hhigh : c.toNat ≤ 57 := h.2
  exact isBlank_of_bounds (by omega) (by omega)

theorem dropWhile_isBlank_eq_self (h : ∀ c ∈ cs, isBlank c = false) :
    cs.dropWhile isBlank = cs := by
  cases cs with
  | nil => rfl
  | cons c cs => exact List.dropWhile_cons_of_neg (Bool.eq_false_iff.1 (h c List.mem_cons_self))

theorem trim_eq_self {s : String} (h : ∀ c ∈ s.toList, isBlank c = false) : trim s = s := by
  have hreverse : ∀ c ∈ s.toList.reverse, isBlank c = false :=
    fun c hc => h c (List.mem_reverse.1 hc)
  rw [trim, trimBlank, dropWhile_isBlank_eq_self h, dropWhile_isBlank_eq_self hreverse,
    List.reverse_reverse, String.ofList_toList]

theorem dropWhile_isBlank_append {ds : List Char} (hne : cs ≠ [])
    (h : ∀ c ∈ cs, isBlank c = false) : (cs ++ ds).dropWhile isBlank = cs ++ ds := by
  obtain ⟨c, cs, rfl⟩ := List.exists_cons_of_ne_nil hne
  exact List.dropWhile_cons_of_neg (Bool.eq_false_iff.1 (h c List.mem_cons_self))

def WithBlanks (inner text : String) : Prop :=
  ∃ before after : List Char, (∀ c ∈ before ++ after, isBlank c = true) ∧
    text.toList = before ++ (inner.toList ++ after)

theorem withBlanks_self (s : String) : WithBlanks s s :=
  ⟨[], [], nofun, (List.append_nil _).symm⟩

/-- What stands between white space is what is left when a text is trimmed. -/
theorem WithBlanks.trimBlank_eq {inner text : String} (h : WithBlanks inner text)
    (hinner : ∀ c ∈ inner.toList, isBlank c = false) : trimBlank text.toList = inner.toList := by
  obtain ⟨before, after, hblank, heq⟩ := h
  have hbefore := fun c hc => hblank c (List.mem_append_left _ hc)
  have hafter : ∀ c ∈ after.reverse, isBlank c = true :=
    fun c hc => hblank c (List.mem_append_right _ (List.mem_reverse.1 hc))
  have hreverse : ∀ c ∈ inner.toList.reverse, isBlank c = false :=
    fun c hc => hinner c (List.mem_reverse.1 hc)
  rw [heq, trimBlank, List.dropWhile_append_of_pos hbefore]
  by_cases hnil : inner.toList = []
  · have hall := List.dropWhile_eq_nil_iff.2 fun c hc => hafter c (List.mem_reverse.2 hc)
    rw [hnil, List.nil_append, hall]
    rfl
  · rw [dropWhile_isBlank_append hnil hinner, List.reverse_append,
      List.dropWhile_append_of_pos hafter, dropWhile_isBlank_eq_self hreverse, List.reverse_reverse]

theorem mem_dropWhile_isBlank (hc : c ∈ cs) (h : isBlank c = false) :
    c ∈ cs.dropWhile isBlank := by
  induction cs with
  | nil => exact hc
  | cons d ds ih =>
    by_cases hd : isBlank d = true
    · rw [List.dropWhile_cons_of_pos hd]
      obtain rfl | hc := List.mem_cons.1 hc
      · rw [hd] at h
        cases h
      · exact ih hc
    · rwa [List.dropWhile_cons_of_neg hd]

theorem mem_trim {s : String} (hc : c ∈ s.toList) (h : isBlank c = false) :
    c ∈ (trim s).toList := by
  have hdrop := mem_dropWhile_isBlank hc h
  rw [trim, String.toList_ofList, trimBlank, List.mem_reverse]
  exact mem_dropWhile_isBlank (List.mem_reverse.2 hdrop) h

theorem hasInfix_iff {needle : List Char} : hasInfix needle cs = true ↔ needle <:+: cs := by
  induction cs with
  | nil => simp [hasInfix]
  | cons c cs ih => simp [hasInfix, List.infix_cons_iff, ih]

end Crosstab.Text
