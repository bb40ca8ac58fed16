import Crosstab.Proofs.Formula.Reading
import Crosstab.Proofs.Formula.Spelling

/-!
# The positions of errors

A step is given the tokens that are left, and an error of it has its place among them: at a token,
or at the end of the formula. Steps only take tokens away from the front, so the place of an error
is among the tokens of the formula too. The text of an unexpected token is that of the token at the
position, but for a bare word: it is named at the position of the token after it.
-/

namespace Crosstab.Formula.Parser
variable {α β : Type} {s : Setting} {ts rest : List Lexeme}

/-- A token starts at a position, or the formula ends there. -/
def Starts (s : Setting) (ts : List Lexeme) (t : Token) (position : Nat) : Prop :=
  (∃ l ∈ ts, l.token = t ∧ l.start = position) ∨ t = .endOfFormula ∧ position = s.stop

/-- A word that heads no call has a token after it at a position. -/
def BareWord (s : Setting) (ts : List Lexeme) (name : String) (next : Nat) : Prop :=
  ∃ l rest, l :: rest <:+ ts ∧ l.token = .word name ∧ current rest ≠ .leftParen ∧
    position s rest = next

def Blames (s : Setting) (ts : List Lexeme) : ParseError → Prop
  | .unexpectedToken found position =>
    (∃ t, Starts s ts t position ∧ t.text = found) ∨ BareWord s ts found position
  | .unbalancedParens position =>
    Starts s ts .rightParen position ∨ Starts s ts .endOfFormula position
  | .nestingTooDeep limit position => limit = s.limit ∧ ∃ t, Starts s ts t position
  | .unknownField _ | .unknownFunction _ | .arityMismatch _ _ _ => True

theorem starts_current (s : Setting) (ts : List Lexeme) :
    Starts s ts (current ts) (position s ts) := by
  cases ts with
  | nil => exact .inr ⟨rfl, rfl⟩
  | cons l rest => exact .inl ⟨l, List.mem_cons_self, rfl, rfl⟩

theorem Starts.mono {t : Token} {place : Nat} (h : Starts s rest t place) (hrest : rest <:+ ts) :
    Starts s ts t place :=
  h.imp_left fun ⟨l, hl, ht⟩ => ⟨l, hrest.subset hl, ht⟩

theorem Blames.mono {cause : ParseError} (h : Blames s rest cause) (hrest : rest <:+ ts) :
    Blames s ts cause := by
  cases cause with
  | unexpectedToken found place =>
    rcases h with ⟨t, ht, hfound⟩ | ⟨l, more, hmore, hword⟩
    · exact .inl ⟨t, ht.mono hrest, hfound⟩
    · exact .inr ⟨l, more, hmore.trans hrest, hword⟩
  | unbalancedParens place => exact h.imp (·.mono hrest) (·.mono hrest)
  | nestingTooDeep limit place =>
    obtain ⟨hlimit, t, ht⟩ := h
    exact ⟨hlimit, t, ht.mono hrest⟩
  | _ => trivial

theorem blames_unexpected (s : Setting) (ts : List Lexeme) : Blames s ts (unexpected s ts) :=
  .inl ⟨_, starts_current s ts, rfl⟩

theorem blames_tooDeep (s : Setting) (ts : List Lexeme) : Blames s ts (tooDeep s ts) :=
  ⟨rfl, _, starts_current s ts⟩

/-- A result that keeps a property, or an error with a place among some tokens. -/
inductive Located (s : Setting) (ts : List Lexeme) (P : α → Prop) : Except ParseError α → Prop
  | ok {a : α} (h : P a) : Located s ts P (.ok a)
  | error {cause : ParseError} (h : Blames s ts cause) : Located s ts P (.error cause)

namespace Located
variable {P : α → Prop} {Q : β → Prop} {x : Except ParseError α}

theorem bind {f : α → Except ParseError β} (h : Located s ts P x)
    (hf : ∀ a, P a → Located s ts Q (f a)) : Located s ts Q (x >>= f) := by
  cases h with
  | ok h => exact hf _ h
  | error h => exact .error h

theorem mono {P' : α → Prop} (h : Located s rest P x) (hrest : rest <:+ ts)
    (hP : ∀ a, P a → P' a) : Located s ts P' x := by
  cases h with
  | ok h => exact .ok (hP _ h)
  | error h => exact .error (h.mono hrest)

end Located

def Leaves (ts : List Lexeme) (r : α × List Lexeme) : Prop := r.2 <:+ ts

theorem Leaves.length_lt {l : Lexeme} {n : Nat} {r : α × List Lexeme} (h : Leaves rest r)
    (hn : (l :: rest).length < n + 1) : r.2.length < n := by
  have hle : r.2.length ≤ rest.length := h.length_le
  simp only [List.length_cons] at hn
  omega

/-- Of fewer tokens, fewer are left. -/
theorem Located.of_suffix {x : Except ParseError (α × List Lexeme)}
    (h : Located s rest (Leaves rest) x) (hrest : rest <:+ ts) : Located s ts (Leaves ts) x :=
  h.mono hrest fun _ hr => hr.trans hrest

def Places (s : Setting) (p : Step Expr) : Prop := ∀ ts, Located s ts (Leaves ts) (run p ts)

theorem located_bounded (e : Expr) (hrest : rest <:+ ts) :
    Located s ts (fun _ => True) (bounded s e rest) := by
  unfold bounded
  split
  · exact .error ((blames_tooDeep s rest).mono hrest)
  · exact .ok trivial

theorem located_resolve (ts : List Lexeme) (name : String) :
    Located s ts (fun _ => True) (resolve s name) := by
  unfold resolve
  split
  · exact .ok trivial
  · exact .error trivial

theorem located_function (name : String) : Located s ts (fun _ => True) (function s name ts) := by
  unfold function
  split
  · exact .ok trivial
  · split
    · exact .error (blames_unexpected s ts)
    · exact .error trivial

theorem located_close (hrest : rest <:+ ts) :
    Located s ts (fun final => final <:+ ts) (runClose s rest) := by
  unfold runClose close
  cases rest with
  | nil => exact .error (.inr (.inr ⟨rfl, rfl⟩))
  | cons l more =>
    by_cases hl : l.token = .rightParen
    · simp only [if_pos hl]
      exact .ok ((List.suffix_cons l more).trans hrest)
    · simp only [if_neg hl]
      exact .error ((blames_unexpected s _).mono hrest)

section Chains
variable {part : Step Expr} (hpart : Places s part) (operator? : Token → Option Operator)
include hpart

theorem located_tail {n : Nat} (hn : ts.length < n) (left : Expr) :
    Located s ts (Leaves ts) (runTail s part operator? left ts) := by
  induction n generalizing ts left with
  | zero => exact absurd hn (Nat.not_lt_zero _)
  | succ n ih =>
    cases ts with
    | nil =>
      rw [runTail_nil]
      exact .ok (List.suffix_refl _)
    | cons l rest =>
      cases hop : operator? l.token with
      | none =>
        rw [runTail_stop s _ _ left hop]
        exact .ok (List.suffix_refl _)
      | some op =>
        rw [runTail_step s _ _ left hop]
        refine Located.of_suffix ?_ (List.suffix_cons l rest)
        refine (hpart rest).bind fun r hr => (located_bounded _ hr).bind fun e _ => ?_
        exact (ih (hr.length_lt hn) e).of_suffix hr

theorem places_chain : Places s (chain s part operator?) := by
  intro ts
  rw [run_chain]
  exact (hpart ts).bind fun r hr => (located_tail hpart _ (Nat.lt_succ_self _) r.1).of_suffix hr

end Chains

section Levels
variable {operand : Step Expr} (hoperand : Places s operand)
include hoperand

theorem places_expression : Places s (expression s operand) :=
  places_chain (places_chain (places_chain (places_chain (places_chain hoperand _) _) _) _) _

theorem located_argumentsTail {n : Nat} (hn : ts.length < n) :
    Located s ts (Leaves ts) (runArgumentsTail s operand ts) := by
  induction n generalizing ts with
  | zero => exact absurd hn (Nat.not_lt_zero _)
  | succ n ih =>
    cases ts with
    | nil =>
      rw [runArgumentsTail_nil]
      exact .ok (List.suffix_refl _)
    | cons l rest =>
      by_cases hl : l.token = .comma
      · rw [runArgumentsTail_comma s _ hl]
        refine Located.of_suffix ?_ (List.suffix_cons l rest)
        refine (places_expression hoperand rest).bind fun r hr => ?_
        exact ((ih (hr.length_lt hn)).of_suffix hr).bind fun q hq => .ok hq
      · rw [runArgumentsTail_stop s _ hl]
        exact .ok (List.suffix_refl _)

theorem located_arguments : Located s ts (Leaves ts) (runArguments s operand ts) := by
  by_cases hclose : current ts = .rightParen
  · rw [runArguments_none s _ hclose]
    exact .ok (List.suffix_refl _)
  · rw [runArguments_some s _ hclose]
    refine (places_expression hoperand ts).bind fun r hr => ?_
    have htail := located_argumentsTail hoperand (Nat.lt_succ_self r.2.length)
    exact (htail.of_suffix hr).bind fun q hq => .ok hq

theorem places_call (name : String) : Places s (call s operand name) := by
  intro ts
  rw [run_call]
  refine (located_function name).bind fun f _ => (located_arguments hoperand).bind fun r hr => ?_
  refine (located_close hr).bind fun final hfinal => ?_
  by_cases harity : f.arity.accepts r.1.length = true
  · rw [if_pos harity]
    exact (located_bounded _ hfinal).bind fun e _ => .ok hfinal
  · rw [if_neg harity]
    exact .error trivial

omit hoperand in
theorem places_summary (name fieldName : String) : Places s (summary s name fieldName) := by
  intro ts
  cases hf : Summary.ofName? name with
  | none =>
    unfold run summary
    rw [hf]
    exact .error trivial
  | some f =>
    rw [run_summary s hf]
    refine (located_resolve ts fieldName).bind fun id _ => ?_
    exact (located_close (List.suffix_refl ts)).bind fun final hfinal => .ok hfinal

theorem places_application (name : String) : Places s (application s operand name) := by
  intro ts
  by_cases hquoted : ∃ fieldName, current ts = .quoted fieldName
  · obtain ⟨fieldName, hcurrent⟩ := hquoted
    cases ts with
    | nil => cases hcurrent
    | cons l rest =>
      have hl : l.token = .quoted fieldName := hcurrent
      by_cases hname : ((Summary.ofName? name).isNone && (Function.ofName? name).isSome) = true
      · simp only [run, application, hl, if_pos hname]
        exact .error (blames_unexpected s _)
      · rw [run_application_summary s operand hl hname]
        exact (places_summary name fieldName rest).of_suffix (List.suffix_cons l rest)
  · rw [run_application_call s _ fun fieldName hl => hquoted ⟨fieldName, hl⟩]
    exact places_call hoperand name ts

/-- A connective that heads no call is named at its own position. -/
theorem located_connective {l : Lexeme} {name : String} (hname : l.token.text = name) :
    Located s (l :: rest) (Leaves (l :: rest))
      (run (connective s operand name l.start) rest) := by
  have hself : Blames s (l :: rest) (.unexpectedToken name l.start) :=
    .inl ⟨l.token, .inl ⟨l, List.mem_cons_self, rfl, rfl⟩, hname⟩
  cases rest with
  | nil => exact .error hself
  | cons l' after =>
    by_cases hopen : l'.token = .leftParen
    · rw [run_connective s operand hopen]
      exact (places_call hoperand name after).of_suffix ⟨[l, l'], rfl⟩
    · simp only [run, connective, if_neg hopen]
      exact .error hself

/-- A word that heads no call is named at the position of the token after it. -/
theorem located_word {l : Lexeme} {name : String} (hl : l.token = .word name) :
    Located s (l :: rest) (Leaves (l :: rest)) (run (word s operand name) rest) := by
  cases rest with
  | nil => exact .error (.inr ⟨l, [], List.suffix_refl _, hl, nofun, rfl⟩)
  | cons l' after =>
    by_cases hopen : l'.token = .leftParen
    · rw [run_word s operand hopen]
      exact (places_application hoperand name after).of_suffix ⟨[l, l'], rfl⟩
    · simp only [run, word, if_neg hopen]
      exact .error (.inr ⟨l, l' :: after, List.suffix_refl _, hl, hopen, rfl⟩)

theorem places_primary : Places s (primary s operand) := by
  intro ts
  cases ts with
  | nil => exact .error (blames_unexpected s [])
  | cons l rest =>
    cases hl : l.token with
    | number x =>
      rw [run_primary_number s operand rest hl]
      exact .ok (List.suffix_cons l rest)
    | boolean b =>
      rw [run_primary_boolean s operand rest hl]
      exact .ok (List.suffix_cons l rest)
    | field name =>
      rw [run_primary_field s operand rest hl]
      exact (located_resolve _ name).bind fun id _ => .ok (List.suffix_cons l rest)
    | and =>
      rw [run_primary_and s operand rest hl]
      exact located_connective hoperand (congrArg Token.text hl)
    | or =>
      rw [run_primary_or s operand rest hl]
      exact located_connective hoperand (congrArg Token.text hl)
    | word name =>
      rw [run_primary_word s operand rest hl]
      exact located_word hoperand hl
    | leftParen =>
      rw [run_primary_parenthesis s operand rest hl]
      refine ((places_expression hoperand rest).of_suffix (List.suffix_cons l rest)).bind ?_
      exact fun r hr => (located_close hr).bind fun final hfinal => .ok hfinal
    | rightParen =>
      simp only [run, primary, hl]
      exact .error (.inl (.inl ⟨l, List.mem_cons_self, hl, rfl⟩))
    | _ =>
      simp only [run, primary, hl]
      exact .error (blames_unexpected s (l :: rest))

theorem located_exponent (base : Expr) :
    Located s ts (Leaves ts) (runExponent s operand base ts) := by
  cases ts with
  | nil => exact .ok (List.suffix_refl _)
  | cons l rest =>
    by_cases hl : l.token = .caret
    · simp only [runExponent, if_pos hl]
      refine ((hoperand rest).of_suffix (List.suffix_cons l rest)).bind fun r hr => ?_
      exact (located_bounded _ hr).bind fun e _ => .ok hr
    · simp only [runExponent, if_neg hl]
      exact .ok (List.suffix_refl _)

theorem places_power : Places s (power s operand) := by
  intro ts
  rw [run_power]
  exact (places_primary hoperand ts).bind fun r hr => (located_exponent hoperand r.1).of_suffix hr

theorem places_signed : Places s (signed s operand) := by
  intro ts
  by_cases hsign : current ts = .minus
  · cases ts with
    | nil => cases hsign
    | cons l rest =>
      rw [run_signed_minus s operand hsign]
      refine ((hoperand rest).of_suffix (List.suffix_cons l rest)).bind fun r hr => ?_
      exact (located_bounded _ hr).bind fun e _ => .ok hr
  · rw [run_signed_unsigned s operand hsign]
    exact places_power hoperand ts

end Levels

theorem places_operand (s : Setting) (room : Nat) : Places s (operand s room) := by
  induction room with
  | zero => exact fun ts => .error (blames_tooDeep s ts)
  | succ room ih => exact places_signed ih

theorem located_whole (s : Setting) (ts : List Lexeme) :
    Located s ts (fun _ => True) (whole s ts) := by
  rw [whole_eq]
  refine (places_expression (places_operand s s.limit) ts).bind fun r hr => ?_
  obtain ⟨e, rest⟩ := r
  cases rest with
  | nil => exact .ok trivial
  | cons l more =>
    by_cases hl : l.token = .rightParen
    · simp only [if_pos hl]
      exact .error (.inl (.inl ⟨l, hr.subset List.mem_cons_self, hl, rfl⟩))
    · simp only [if_neg hl]
      exact .error ((blames_unexpected s _).mono hr)

end Parser

open Crosstab.Formula.Parser
variable {resolve : String → Option FieldId} {formula : String}

/-- What starts among the tokens up to the end starts among the tokens with their end. -/
theorem exists_of_starts {limit place : Nat} {t : Token}
    (h : Starts ⟨resolve, limit, formula.length⟩ (lexemes formula) t place) :
    ∃ l ∈ tokenize formula, l.token = t ∧ l.start = place := by
  rcases h with ⟨l, hl, ht⟩ | ⟨rfl, rfl⟩
  · exact ⟨l, List.mem_append_left _ hl, ht⟩
  · exact ⟨endLexeme formula, List.mem_append_right _ List.mem_cons_self, rfl, rfl⟩

/-- A word that heads no call, between the tokens before it and the next one. -/
theorem split_of_bareWord {limit place : Nat} {name : String}
    (h : BareWord ⟨resolve, limit, formula.length⟩ (lexemes formula) name place) :
    ∃ before l next after, tokenize formula = before ++ l :: next :: after ∧
      l.token = .word name ∧ next.token ≠ .leftParen ∧ next.start = place := by
  obtain ⟨l, rest, ⟨before, hbefore⟩, hword, hopen, hplace⟩ := h
  rw [tokenize, ← hbefore, List.append_assoc, List.cons_append]
  cases rest with
  | nil => exact ⟨before, l, endLexeme formula, [], rfl, hword, hopen, hplace⟩
  | cons next after =>
    exact ⟨before, l, next, after ++ [endLexeme formula], rfl, hword, hopen, hplace⟩

/-- Every position of an error is that of a token. A token that does not fit is named at its own
position, but a word that heads no call is named at the position of the next token. Parentheses
are unbalanced at a closing one or at the end of the formula. -/
theorem parse_positions (resolve : String → Option FieldId) (formula : String) :
    (∀ found place, parse resolve formula = .error (.unexpectedToken found place) →
      (∃ l ∈ tokenize formula, l.token.text = found ∧ l.start = place) ∨
      ∃ before l next after, tokenize formula = before ++ l :: next :: after ∧
        l.token = .word found ∧ next.token ≠ .leftParen ∧ next.start = place) ∧
    (∀ place, parse resolve formula = .error (.unbalancedParens place) →
      ∃ l ∈ tokenize formula,
        (l.token = .rightParen ∨ l.token = .endOfFormula) ∧ l.start = place) ∧
    ∀ limit place, parse resolve formula = .error (.nestingTooDeep limit place) →
      limit = nestingLimit ∧ ∃ l ∈ tokenize formula, l.start = place := by
  have hblames : ∀ cause, parse resolve formula = .error cause →
      Blames ⟨resolve, nestingLimit, formula.length⟩ (lexemes formula) cause := by
    intro cause h
    have hwhole := located_whole ⟨resolve, nestingLimit, formula.length⟩ (lexemes formula)
    rw [show whole _ _ = parse resolve formula from rfl, h] at hwhole
    cases hwhole with
    | error hcause => exact hcause
  refine ⟨fun found place h => ?_, fun place h => ?_, fun limit place h => ?_⟩
  · rcases hblames _ h with ⟨t, ht, htext⟩ | hword
    · obtain ⟨l, hl, rfl, hstart⟩ := exists_of_starts ht
      exact .inl ⟨l, hl, htext, hstart⟩
    · exact .inr (split_of_bareWord hword)
  · rcases hblames _ h with ht | ht
    · obtain ⟨l, hl, htoken, hstart⟩ := exists_of_starts ht
      exact ⟨l, hl, .inl htoken, hstart⟩
    · obtain ⟨l, hl, htoken, hstart⟩ := exists_of_starts ht
      exact ⟨l, hl, .inr htoken, hstart⟩
  · obtain ⟨hlimit, t, ht⟩ := hblames _ h
    obtain ⟨l, hl, -, hstart⟩ := exists_of_starts ht
    exact ⟨hlimit, l, hl, hstart⟩

section Sample

def manySigns : String := String.ofList (List.replicate 65 '-')

/-- A character that begins no token, a parenthesis that closes nothing, and an operand too many. -/
theorem refused_positions :
    parse columns "[A];" = .error (.unexpectedToken ";" 3) ∧
      ((∃ l ∈ tokenize "[A];", l.token.text = ";" ∧ l.start = 3) ∨
        ∃ before l next after, tokenize "[A];" = before ++ l :: next :: after ∧
          l.token = .word ";" ∧ next.token ≠ .leftParen ∧ next.start = 3) ∧
    parse columns "[A])" = .error (.unbalancedParens 3) ∧
      (∃ l ∈ tokenize "[A])",
        (l.token = .rightParen ∨ l.token = .endOfFormula) ∧ l.start = 3) ∧
    parse columns manySigns = .error (.nestingTooDeep 64 64) ∧
      64 = nestingLimit ∧ ∃ l ∈ tokenize manySigns, l.start = 64 := by
  have hillegal : parse columns "[A];" = .error (.unexpectedToken ";" 3) := by cbv
  have hclosing : parse columns "[A])" = .error (.unbalancedParens 3) := by cbv
  have hsigns : parse columns manySigns = .error (.nestingTooDeep 64 64) := by cbv
  exact ⟨hillegal, (parse_positions columns "[A];").1 ";" 3 hillegal,
    hclosing, (parse_positions columns "[A])").2.1 3 hclosing,
    hsigns, (parse_positions columns manySigns).2.2 64 64 hsigns⟩

/-- A formula that is a bare word is refused with the word at the end of the formula, where no
token shows as the word. -/
theorem bareWord_misplaced :
    parse columns "A" = .error (.unexpectedToken "A" 1) ∧
      ¬∃ l ∈ tokenize "A", l.token.text = "A" ∧ l.start = 1 := by
  constructor
  · cbv
  · have htokens : tokenize "A" = [⟨.word "A", 0, 1⟩, ⟨.endOfFormula, 1, 1⟩] := by cbv
    rw [htokens]
    simp [Token.text]

end Sample

end Crosstab.Formula
