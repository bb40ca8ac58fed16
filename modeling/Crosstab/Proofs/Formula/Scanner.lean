import Crosstab.Formula.Scanner
import Crosstab.Proofs.Formula.Spans

/-!
# Counting the characters that are taken

Reading with a state comes to what reading from a list comes to. Each reader takes a part of the
characters that are left, and as it takes them one by one the offset goes up by the length of that
part. So the offset is always in step with the characters.
-/

namespace Crosstab.Formula.Scanner

def upTo (s : Scanner) (rest : List Char) : Scanner :=
  { s with rest := rest, offset := s.offset + (s.rest.length - rest.length) }

section
variable {s : Scanner} {c : Char} {cs rest : List Char}

theorem upTo_self (s : Scanner) : s.upTo s.rest = s := by
  rw [upTo, Nat.sub_self, Nat.add_zero]

theorem advance_eq (h : s.rest = c :: cs) : s.advance cs = s.upTo cs := by
  rw [advance, upTo, h, List.length_cons, Nat.add_sub_cancel_left]

theorem upTo_upTo (hcs : cs.length ≤ s.rest.length) (hrest : rest.length ≤ cs.length) :
    (s.upTo cs).upTo rest = s.upTo rest := by
  simp only [upTo, mk.injEq, true_and, and_true]
  omega

theorem advance_upTo (h : s.rest = c :: cs) (hrest : rest.length ≤ cs.length) :
    (s.advance cs).upTo rest = s.upTo rest := by
  rw [advance_eq h]
  exact upTo_upTo (h ▸ Nat.le_succ _) hrest

theorem bump_nil (h : s.rest = []) : bump s = (none, s) := by
  rw [bump, h]

theorem bump_cons (h : s.rest = c :: cs) : bump s = (some c, s.upTo cs) := by
  rw [bump, h, ← advance_eq h]

end

/-! ### The loops -/

theorem bumpWhile_eq (p : Char → Bool) (s : Scanner) :
    bumpWhile p s = (s.rest.takeWhile p, s.upTo (s.rest.dropWhile p)) := by
  fun_induction bumpWhile p s with
  | case1 s h => rw [h, List.takeWhile_nil, List.dropWhile_nil, ← h, upTo_self]
  | case2 s c cs h hc taken s' hrun ih =>
    obtain ⟨rfl, rfl⟩ := Prod.mk.inj (hrun.symm.trans ih)
    rw [h, List.takeWhile_cons_of_pos hc, List.dropWhile_cons_of_pos hc]
    exact congrArg _ (advance_upTo h (Token.dropWhile_length_le p cs))
  | case3 s c cs h hc =>
    rw [h, List.takeWhile_cons_of_neg hc, List.dropWhile_cons_of_neg hc, ← h, upTo_self]

theorem bumpUntil_eq (close : Char) (s : Scanner) :
    bumpUntil close s = match Token.splitAtClose close s.rest with
      | some (inner, rest) => ((inner, true), s.upTo rest)
      | none => ((s.rest, false), s.upTo []) := by
  fun_induction bumpUntil close s with
  | case1 s h => rw [h, Token.splitAtClose, ← h, upTo_self]
  | case2 s cs h => rw [h, Token.splitAtClose, if_pos rfl, advance_eq h]
  | case3 s c cs h hc taken closed s' hrun ih =>
    have hadvance : (s.advance cs).rest = cs := rfl
    rw [hrun, hadvance] at ih
    rw [h, Token.splitAtClose, if_neg hc]
    cases hsplit : Token.splitAtClose close cs with
    | none =>
      rw [hsplit] at ih
      obtain ⟨hpair, rfl⟩ := Prod.mk.inj ih
      obtain ⟨rfl, rfl⟩ := Prod.mk.inj hpair
      rw [Option.map_none, advance_upTo h (Nat.zero_le _)]
    | some split =>
      rw [hsplit] at ih
      obtain ⟨hpair, rfl⟩ := Prod.mk.inj ih
      obtain ⟨rfl, rfl⟩ := Prod.mk.inj hpair
      rw [Option.map_some, advance_upTo h (Nat.le_of_lt (Token.splitAtClose_length_lt hsplit))]

theorem bumpNumber_eq (pointSeen : Bool) (s : Scanner) :
    bumpNumber pointSeen s =
      ((Token.numberTail pointSeen s.rest).1, s.upTo (Token.numberTail pointSeen s.rest).2) := by
  fun_induction bumpNumber pointSeen s with
  | case1 _ s h => rw [h, Token.numberTail, ← h, upTo_self]
  | case2 pointSeen s c cs h hc taken s' hrun ih =>
    obtain ⟨rfl, rfl⟩ := Prod.mk.inj (hrun.symm.trans ih)
    rw [h, Token.numberTail, if_pos hc]
    exact congrArg _ (advance_upTo h (Token.numberTail_length_le pointSeen cs))
  | case3 pointSeen s c cs h hc hpoint taken s' hrun ih =>
    obtain ⟨rfl, rfl⟩ := Prod.mk.inj (hrun.symm.trans ih)
    rw [h, Token.numberTail, if_neg hc, if_pos hpoint]
    exact congrArg _ (advance_upTo h (Token.numberTail_length_le true cs))
  | case4 pointSeen s c cs h hc hpoint =>
    rw [h, Token.numberTail, if_neg hc, if_neg hpoint, ← h, upTo_self]

/-! ### The readers -/

theorem bind_apply {α β : Type} (a : Action α) (f : α → Action β) (s : Scanner) :
    (a >>= f) s = f (a s).1 (a s).2 := rfl

section
variable (s : Scanner)

theorem pair_eq (second : Char) (paired single : Token) :
    pair second paired single s =
      ((Token.pair second paired single s.rest).1,
        s.upTo (Token.pair second paired single s.rest).2) := by
  have hpair : pair second paired single s =
      if s.rest.head? = some second then (paired, (bump s).2) else (single, s) := by
    rw [pair, bind_apply]
    exact apply_ite (fun a : Action Token => a s) ..
  rw [hpair]
  cases h : s.rest with
  | nil => rw [List.head?_nil, if_neg nofun, Token.pair, ← h, upTo_self]
  | cons c cs =>
    rw [List.head?_cons]
    by_cases hc : c = second
    · rw [if_pos (congrArg some hc), bump_cons h, Token.pair, if_pos hc]
    · rw [if_neg (fun hsome => hc (Option.some.inj hsome)), Token.pair, if_neg hc, ← h, upTo_self]

theorem quoted_eq :
    quoted s = ((Token.scanQuoted s.rest).1, s.upTo (Token.scanQuoted s.rest).2) := by
  rw [quoted, bind_apply, bumpUntil_eq, Token.scanQuoted]
  cases Token.splitAtClose '"' s.rest <;> rfl

theorem field_eq :
    field s = ((Token.scanField s.rest).1, s.upTo (Token.scanField s.rest).2) := by
  rw [field, bind_apply, bumpUntil_eq, Token.scanField]
  cases Token.splitAtClose ']' s.rest <;> rfl

theorem number_eq (c : Char) :
    number c s =
      (Token.ofNumber c (c :: (Token.numberTail (c == '.') s.rest).1),
        s.upTo (Token.numberTail (c == '.') s.rest).2) := by
  rw [number, bind_apply, bumpNumber_eq]
  rfl

theorem word_eq (c : Char) :
    word c s =
      (Token.ofWord (c :: s.rest.takeWhile Token.continuesWord),
        s.upTo (s.rest.dropWhile Token.continuesWord)) := by
  rw [word, bind_apply, bumpWhile_eq]
  rfl

theorem pure_eq (t : Token) : (pure t : Action Token) s = (t, s.upTo s.rest) := by
  rw [upTo_self]
  rfl

theorem other_eq (c : Char) :
    other c s = ((Token.scanOther c s.rest).1, s.upTo (Token.scanOther c s.rest).2) := by
  unfold other Token.scanOther
  by_cases hnumber : (Decimal.isDigit c || c == '.') = true
  · simp only [if_pos hnumber]
    exact number_eq s c
  · by_cases hletter : Token.isLetter c = true
    · simp only [if_neg hnumber, if_pos hletter]
      exact word_eq s c
    · simp only [if_neg hnumber, if_neg hletter]
      exact pure_eq s (.illegal c)

theorem startingWith_eq (c : Char) :
    startingWith c s = ((Token.scan c s.rest).1, s.upTo (Token.scan c s.rest).2) := by
  unfold startingWith Token.scan
  cases Token.ofChar? c with
  | some t => exact pure_eq s t
  | none =>
    cases Token.ofPair? c with
    | some both => exact pair_eq s both.1 both.2.1 both.2.2
    | none =>
      by_cases hquote : c = '"'
      · simp only [if_pos hquote]
        exact quoted_eq s
      · by_cases hbracket : c = '['
        · simp only [if_neg hquote, if_pos hbracket]
          exact field_eq s
        · simp only [if_neg hquote, if_neg hbracket]
          exact other_eq s c

end

theorem startingWith_upTo {s : Scanner} {c : Char} {cs : List Char} (h : s.rest = c :: cs) :
    startingWith c (s.upTo cs) = ((Token.scan c cs).1, s.upTo (Token.scan c cs).2) := by
  have hle : cs.length ≤ s.rest.length := h ▸ Nat.le_succ _
  rw [startingWith_eq, ← upTo_upTo hle (Token.scan_length_le c cs)]
  rfl

/-! ### Calls -/

def cursor (s : Scanner) : Cursor := ⟨s.offset, s.rest⟩

theorem resume_eq (s : Scanner) :
    s.offset + (s.rest.length - (s.rest.dropWhile Text.isBlank).length) = s.cursor.resume := by
  have hlength := congrArg List.length
    (List.takeWhile_append_dropWhile (p := Text.isBlank) (l := s.rest))
  rw [List.length_append] at hlength
  show _ = s.offset + (s.rest.takeWhile Text.isBlank).length
  omega

/-- A call yields the next token and goes on after it. -/
theorem next_eq (s : Scanner) :
    next s = (s.cursor.next.1.token,
      ⟨s.cursor.step.rest, s.cursor.step.offset, s.cursor.next.1.start⟩) := by
  -- the state in which the first character of the token is taken
  let marked : Scanner := ⟨s.rest.dropWhile Text.isBlank, s.cursor.resume, s.cursor.resume⟩
  have hrun : next s = (bump >>= token) marked := by
    rw [next, bind_apply, bumpWhile_eq, upTo, resume_eq]
    rfl
  rw [hrun, bind_apply, Cursor.step]
  cases hrest : s.rest.dropWhile Text.isBlank with
  | nil =>
    rw [bump_nil hrest, Cursor.next_of_nil hrest, ← hrest]
    rfl
  | cons c cs =>
    have hmarked : marked.rest = c :: cs := hrest
    rw [bump_cons hmarked, Cursor.next_of_cons hrest]
    exact (startingWith_upTo hmarked).trans (by rw [upTo, hmarked, List.length_cons])

theorem cursor_after (formula : String) (k : Nat) :
    (after formula k).cursor = placeAfter formula k := by
  induction k with
  | zero => rfl
  | succ k ih =>
    rw [placeAfter_succ, ← ih, after, next_eq]
    rfl

theorem call_eq (formula : String) : call formula = nthLexeme formula := by
  funext k
  rw [nthLexeme, ← cursor_after, call, next_eq, Cursor.offset_step]

/-- The calls divide a formula into tokens and white space. At every call the offset is the number
of the characters that were taken. Up to the first end the calls yield the tokens of the formula. -/
theorem calls_divide (formula : String) :
    Divides formula.toList (call formula) ∧
      (∀ k, (after formula k).offset ≤ formula.length ∧
        (after formula k).rest = formula.toList.drop (after formula k).offset) ∧
      (List.range ((lexemes formula).length + 1)).map (call formula) = tokenize formula := by
  rw [call_eq]
  refine ⟨divides_nthLexeme formula, fun k => ?_, map_nthLexeme formula⟩
  have hwithin := within_placeAfter formula k
  rw [← cursor_after] at hwithin
  exact ⟨hwithin.offset_le, hwithin.rest_eq⟩

/-- A lone equals sign, a bracket that is never closed, and the end twice. -/
example : (List.range 4).map (call " =[b ") =
    [⟨.illegal '=', 1, 2⟩, ⟨.unclosedField "b ", 2, 5⟩, ⟨.endOfFormula, 5, 5⟩,
      ⟨.endOfFormula, 5, 5⟩] := by cbv

end Crosstab.Formula.Scanner
