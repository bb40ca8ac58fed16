import Mathlib.Logic.Function.Iterate
import Crosstab.Proofs.Formula.Written

/-!
# Places in a formula

From place to place a reader passes some white space and then the characters that a token is written
with. So the tokens of a formula stand one after the other, and what stands between them is white
space. There are at most as many as characters. After the last one comes the end of the formula, and
then again and again.
-/

namespace Crosstab.Formula

def Lexeme.text (l : Lexeme) (cs : List Char) : List Char :=
  (cs.drop l.start).take (l.stop - l.start)

def Lexeme.Covers (l : Lexeme) (i : Nat) : Prop := l.start ≤ i ∧ i < l.stop

namespace Cursor

def step (c : Cursor) : Cursor := c.next.2

def finish (c : Cursor) : Nat := c.offset + c.rest.length

section
variable {c : Cursor} {ch : Char} {cs : List Char}

theorem next_of_nil (h : c.rest.dropWhile Text.isBlank = []) :
    c.next = (⟨.endOfFormula, c.resume, c.resume⟩, ⟨c.resume, []⟩) := by
  rw [next, h]

theorem next_of_cons (h : c.rest.dropWhile Text.isBlank = ch :: cs) :
    c.next = (⟨(Token.scan ch cs).1, c.resume,
        c.resume + (cs.length + 1 - (Token.scan ch cs).2.length)⟩,
      ⟨c.resume + (cs.length + 1 - (Token.scan ch cs).2.length), (Token.scan ch cs).2⟩) := by
  rw [next, h]

theorem isBlank_of_dropWhile (h : c.rest.dropWhile Text.isBlank = ch :: cs) :
    Text.isBlank ch = false := by
  have hhead := List.head?_dropWhile_not Text.isBlank c.rest
  rwa [h] at hhead

end

/-- The offset goes on to where the token stops. -/
theorem offset_step (c : Cursor) : c.step.offset = c.next.1.stop := by
  rw [step]
  cases h : c.rest.dropWhile Text.isBlank with
  | nil => rw [next_of_nil h]
  | cons ch cs => rw [next_of_cons h]

/-- White space, the characters of a token, and what is left after them. -/
theorem next_spans (c : Cursor) :
    ∃ blanks text : List Char, (∀ b ∈ blanks, Text.isBlank b = true) ∧
      c.rest = blanks ++ (text ++ c.step.rest) ∧ c.next.1.start = c.offset + blanks.length ∧
      c.next.1.stop = c.next.1.start + text.length ∧ Written c.next.1.token text := by
  refine ⟨c.rest.takeWhile Text.isBlank, ?_⟩
  have hblanks : ∀ b ∈ c.rest.takeWhile Text.isBlank, Text.isBlank b = true :=
    fun b hb => List.mem_takeWhile_imp hb
  have hrest := (List.takeWhile_append_dropWhile (p := Text.isBlank) (l := c.rest)).symm
  cases h : c.rest.dropWhile Text.isBlank with
  | nil =>
    rw [h] at hrest
    rw [step, next_of_nil h]
    exact ⟨[], hblanks, hrest, rfl, rfl, .endOfFormula⟩
  | cons ch cs =>
    obtain ⟨text, htext, hwritten⟩ := Token.begins_scan (isBlank_of_dropWhile h) cs
    have hlength : cs.length + 1 - (Token.scan ch cs).2.length = text.length := by
      have hlength := congrArg List.length htext
      rw [List.length_append, List.length_cons] at hlength
      omega
    rw [step, next_of_cons h]
    refine ⟨text, hblanks, ?_, rfl, ?_, hwritten⟩
    · rw [← htext, ← h]
      exact hrest
    · exact congrArg _ hlength

theorem finish_step (c : Cursor) : c.step.finish = c.finish := by
  obtain ⟨blanks, text, -, hrest, hstart, hstop, -⟩ := c.next_spans
  have hlength := congrArg List.length hrest
  simp only [List.length_append] at hlength
  rw [finish, finish, offset_step, hstop, hstart, hlength]
  omega

/-! ### The tokens up to the end -/

/-- The end comes where nothing but white space is left. -/
theorem next_eq_end_iff (c : Cursor) :
    c.next.1.token = .endOfFormula ↔ c.rest.dropWhile Text.isBlank = [] := by
  cases h : c.rest.dropWhile Text.isBlank with
  | nil => exact iff_of_true (by rw [next_of_nil h]) rfl
  | cons ch cs =>
    refine iff_of_false ?_ (List.cons_ne_nil ch cs)
    obtain ⟨text, htext, hwritten⟩ := Token.begins_scan (isBlank_of_dropWhile h) cs
    rw [next_of_cons h, ← hwritten.eq_nil_iff]
    rintro rfl
    have hlength := Token.scan_length_le ch cs
    rw [← List.nil_append (Token.scan ch cs).2, ← htext] at hlength
    exact Nat.not_succ_le_self _ hlength

theorem length_step_lt {c : Cursor} (h : c.next.1.token ≠ .endOfFormula) :
    c.step.rest.length < c.rest.length := by
  obtain ⟨blanks, text, -, hrest, -, -, hwritten⟩ := c.next_spans
  have htext : 0 < text.length := List.length_pos_iff.2 (mt hwritten.eq_nil_iff.1 h)
  rw [hrest, List.length_append, List.length_append]
  omega

theorem length_lexemes_le (c : Cursor) : c.lexemes.length ≤ c.rest.length := by
  fun_induction lexemes c with
  | case1 c h => exact Nat.zero_le _
  | case2 c ch cs h ih =>
    have hlt := length_step_lt (mt c.next_eq_end_iff.1 (h ▸ List.cons_ne_nil ch cs))
    rw [List.length_cons]
    exact Nat.lt_of_le_of_lt ih hlt

theorem token_ne_end {c : Cursor} {l : Lexeme} (hl : l ∈ c.lexemes) :
    l.token ≠ .endOfFormula := by
  fun_induction lexemes c with
  | case1 c h => cases hl
  | case2 c ch cs h ih =>
    rcases List.mem_cons.1 hl with rfl | hl
    · exact mt c.next_eq_end_iff.1 (h ▸ List.cons_ne_nil ch cs)
    · exact ih hl

theorem iterate_of_blank {c : Cursor} (h : c.rest.dropWhile Text.isBlank = []) (k : Nat) :
    (step^[k] c).next.1 = ⟨.endOfFormula, c.finish, c.finish⟩ := by
  have hresume : c.resume = c.finish := by
    have hrest := List.takeWhile_append_dropWhile (p := Text.isBlank) (l := c.rest)
    rw [h, List.append_nil] at hrest
    rw [resume, hrest, finish]
  have hnext := next_of_nil h
  rw [hresume] at hnext
  cases k with
  | zero => exact congrArg Prod.fst hnext
  | succ k =>
    have hstep : step c = ⟨c.finish, []⟩ := congrArg Prod.snd hnext
    have hfixed : step ⟨c.finish, []⟩ = ⟨c.finish, []⟩ := rfl
    rw [Function.iterate_succ_apply, hstep, Function.iterate_fixed hfixed]
    rfl

/-- The tokens come one by one, and then the end again and again. A token that was read does not
move the end. -/
theorem next_iterate (c : Cursor) (k : Nat) :
    (step^[k] c).next.1 = c.lexemes.getD k ⟨.endOfFormula, c.finish, c.finish⟩ := by
  fun_induction lexemes c generalizing k with
  | case1 c h => exact iterate_of_blank h k
  | case2 c ch cs h ih =>
    cases k with
    | zero => rfl
    | succ k =>
      rw [Function.iterate_succ_apply]
      exact (ih k).trans (finish_step c ▸ rfl)

/-! ### Places within a text -/

/-- The characters that are left at a place are the last of a text, and the offset is the number of
those before them. -/
def Within (cs : List Char) (c : Cursor) : Prop :=
  ∃ before, before.length = c.offset ∧ cs = before ++ c.rest

theorem within_start (formula : String) : (start formula).Within formula.toList :=
  ⟨[], rfl, rfl⟩

section
variable {cs : List Char} {c : Cursor}

theorem Within.rest_eq (h : c.Within cs) : c.rest = cs.drop c.offset := by
  obtain ⟨before, hbefore, rfl⟩ := h
  exact (List.drop_left' hbefore).symm

theorem Within.offset_le (h : c.Within cs) : c.offset ≤ cs.length := by
  obtain ⟨before, hbefore, rfl⟩ := h
  rw [List.length_append, hbefore]
  exact Nat.le_add_right _ _

/-- After a token too the offset is the number of the characters before it. -/
theorem Within.step (h : c.Within cs) : c.step.Within cs := by
  obtain ⟨before, hbefore, rfl⟩ := h
  obtain ⟨blanks, text, -, hrest, hstart, hstop, -⟩ := c.next_spans
  refine ⟨before ++ (blanks ++ text), ?_, ?_⟩
  · rw [List.length_append, List.length_append, hbefore, offset_step, hstop, hstart, Nat.add_assoc]
  · rw [hrest, List.append_assoc, List.append_assoc]

/-- What is passed before a token is white space. -/
theorem Within.isBlank (h : c.Within cs) {i : Nat} {ch : Char} (hi : cs[i]? = some ch)
    (hlow : c.offset ≤ i) (hhigh : i < c.next.1.start) : Text.isBlank ch = true := by
  obtain ⟨before, hbefore, rfl⟩ := h
  obtain ⟨blanks, text, hblanks, hrest, hstart, -, -⟩ := c.next_spans
  have hplace : i - before.length < blanks.length := by omega
  rw [List.getElem?_append_right (hbefore ▸ hlow), hrest, List.getElem?_append_left hplace] at hi
  exact hblanks ch (List.mem_of_getElem? hi)

/-- From its start to its stop stand the characters that a token is written with. -/
theorem Within.written (h : c.Within cs) : Written c.next.1.token (c.next.1.text cs) := by
  obtain ⟨before, hbefore, rfl⟩ := h
  obtain ⟨blanks, text, -, hrest, hstart, hstop, hwritten⟩ := c.next_spans
  have hlength : (before ++ blanks).length = c.next.1.start := by
    rw [List.length_append, hbefore, hstart]
  have htext : c.next.1.text (before ++ c.rest) = text := by
    rw [Lexeme.text, hrest, ← List.append_assoc, List.drop_left' hlength, hstop,
      Nat.add_sub_cancel_left, List.take_left]
  rwa [htext]

theorem offset_le_start (c : Cursor) : c.offset ≤ c.next.1.start := by
  obtain ⟨blanks, text, -, -, hstart, -, -⟩ := c.next_spans
  rw [hstart]
  exact Nat.le_add_right _ _

theorem start_le_stop (c : Cursor) : c.next.1.start ≤ c.next.1.stop := by
  obtain ⟨blanks, text, -, -, -, hstop, -⟩ := c.next_spans
  rw [hstop]
  exact Nat.le_add_right _ _

theorem Within.start_lt_stop (h : c.Within cs) (hne : c.next.1.token ≠ .endOfFormula) :
    c.next.1.start < c.next.1.stop := by
  refine Nat.lt_of_le_of_ne (start_le_stop c) fun hempty => hne ?_
  have htext : c.next.1.text cs = [] := by
    rw [Lexeme.text, hempty, Nat.sub_self, List.take_zero]
  exact h.written.eq_nil_iff.1 htext

end

end Cursor

/-! ### Calls -/

/-- The lexemes that calls yield, counted from zero, divide a text. -/
structure Divides (cs : List Char) (calls : Nat → Lexeme) : Prop where
  /-- There are at most as many tokens as characters, and then comes the end, again and again. -/
  ends : ∃ m ≤ cs.length, (∀ k < m, (calls k).token ≠ .endOfFormula) ∧
    ∀ k, m ≤ k → calls k = ⟨.endOfFormula, cs.length, cs.length⟩
  nonempty : ∀ k, (calls k).token ≠ .endOfFormula → (calls k).start < (calls k).stop
  ordered : ∀ j k, j < k → (calls j).stop ≤ (calls k).start
  /-- Only white space is in no lexeme. -/
  covered : ∀ i ch, cs[i]? = some ch → Text.isBlank ch = false → ∃ k, (calls k).Covers i
  written : ∀ k, Written (calls k).token ((calls k).text cs)

def placeAfter (formula : String) (k : Nat) : Cursor := Cursor.step^[k] (Cursor.start formula)

def nthLexeme (formula : String) (k : Nat) : Lexeme := (placeAfter formula k).next.1

section
variable (formula : String)

theorem placeAfter_succ (k : Nat) : placeAfter formula (k + 1) = (placeAfter formula k).step :=
  Function.iterate_succ_apply' ..

theorem offset_placeAfter_succ (k : Nat) :
    (placeAfter formula (k + 1)).offset = (nthLexeme formula k).stop := by
  rw [placeAfter_succ, Cursor.offset_step]
  rfl

theorem within_placeAfter (k : Nat) : (placeAfter formula k).Within formula.toList := by
  induction k with
  | zero => exact Cursor.within_start formula
  | succ k ih =>
    rw [placeAfter_succ]
    exact ih.step

theorem offset_placeAfter_mono : Monotone fun k => (placeAfter formula k).offset := by
  refine monotone_nat_of_le_succ fun k => ?_
  rw [offset_placeAfter_succ]
  exact (Cursor.offset_le_start _).trans (Cursor.start_le_stop _)

theorem nthLexeme_ordered {j k : Nat} (h : j < k) :
    (nthLexeme formula j).stop ≤ (nthLexeme formula k).start :=
  calc (nthLexeme formula j).stop = (placeAfter formula (j + 1)).offset :=
        (offset_placeAfter_succ formula j).symm
    _ ≤ (placeAfter formula k).offset := offset_placeAfter_mono formula h
    _ ≤ (nthLexeme formula k).start := Cursor.offset_le_start _

variable {formula}

/-- Every character before a place is in one of the lexemes before it or is white space. -/
theorem covered_placeAfter {i : Nat} {ch : Char} (hi : formula.toList[i]? = some ch)
    (hch : Text.isBlank ch = false) {k : Nat} (hhigh : i < (placeAfter formula k).offset) :
    ∃ j, (nthLexeme formula j).Covers i := by
  induction k with
  | zero => exact absurd hhigh (Nat.not_lt_zero i)
  | succ k ih =>
    by_cases hbefore : i < (placeAfter formula k).offset
    · exact ih hbefore
    · rw [offset_placeAfter_succ] at hhigh
      refine ⟨k, ?_, hhigh⟩
      -- the lexeme stops behind the character, so otherwise the character is before its start
      by_contra hstart
      have hblank := (within_placeAfter formula k).isBlank hi (Nat.not_lt.1 hbefore)
        (Nat.not_le.1 hstart)
      exact Bool.false_ne_true (hch.symm.trans hblank)

theorem nthLexeme_of_lt {k : Nat} (hk : k < (lexemes formula).length) :
    nthLexeme formula k = (lexemes formula)[k] := by
  rw [nthLexeme, placeAfter, Cursor.next_iterate]
  exact List.getD_eq_getElem _ _ hk

theorem nthLexeme_of_le {k : Nat} (hk : (lexemes formula).length ≤ k) :
    nthLexeme formula k = endLexeme formula := by
  have hfinish : (Cursor.start formula).finish = formula.length := Nat.zero_add _
  rw [nthLexeme, placeAfter, Cursor.next_iterate, hfinish]
  exact List.getD_eq_default _ _ hk

variable (formula)

/-- The tokens of a formula and then its end. -/
theorem map_nthLexeme :
    (List.range ((lexemes formula).length + 1)).map (nthLexeme formula) = tokenize formula := by
  rw [List.range_succ, List.map_append, List.map_singleton, nthLexeme_of_le (Nat.le_refl _),
    tokenize]
  refine congrArg (· ++ [endLexeme formula]) (List.ext_getElem (by simp) fun k hk hk' => ?_)
  rw [List.getElem_map, List.getElem_range, nthLexeme_of_lt hk']

theorem divides_nthLexeme : Divides formula.toList (nthLexeme formula) where
  ends := by
    refine ⟨(lexemes formula).length, Cursor.length_lexemes_le _, fun k hk => ?_, fun k hk => ?_⟩
    · rw [nthLexeme_of_lt hk]
      exact Cursor.token_ne_end (List.getElem_mem hk)
    · exact nthLexeme_of_le hk
  nonempty k hne := (within_placeAfter formula k).start_lt_stop hne
  ordered j k h := nthLexeme_ordered formula h
  covered i ch hi hch := by
    refine covered_placeAfter hi hch (k := (lexemes formula).length + 1) ?_
    rw [offset_placeAfter_succ, nthLexeme_of_le (Nat.le_refl _)]
    exact (List.getElem?_eq_some_iff.1 hi).1
  written k := (within_placeAfter formula k).written

end

end Crosstab.Formula
