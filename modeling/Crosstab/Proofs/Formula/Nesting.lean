import Crosstab.Proofs.Formula.Counting
import Crosstab.Proofs.Formula.Height
import Crosstab.Proofs.Formula.Spelling

/-!
# The nesting limit is exact

A reader under a limit does what a reader under a higher limit does, up to the point where one of
the counters passes the lower limit; there it refuses. So a formula that is read under some limit is
read under a lower one if and only if neither its tree nor its open operands pass that one.
-/

namespace Crosstab.Formula

def Counters.Within (c : Counters) (limit : Nat) : Prop := c.most ≤ limit ∧ c.highest ≤ limit

def Setting.raised (s : Setting) (k : Nat) : Setting := { s with limit := s.limit + k }

namespace Counting
variable {α β : Type} {limit room : Nat}

/-- A step went from `c` to `c'` and returned `v`. Under a limit it came to `y`: to the same if the
counters stayed within that limit, and otherwise to a refusal. -/
structure Cut (limit : Nat) (c : Counters) (y : Except ParseError α × Counters) (v : α)
    (c' : Counters) : Prop where
  active : c'.active = c.active
  most : c.most ≤ c'.most
  highest : c.highest ≤ c'.highest
  same (h : c'.Within limit) : y = (.ok v, c')
  refused (h : c.Within limit) (h' : ¬c'.Within limit) :
    ∃ position c'', y = (.error (.nestingTooDeep limit position), c'')

theorem Cut.within {c c' : Counters} {y : Except ParseError α × Counters} {v : α}
    (h : Cut limit c y v c') (hc' : c'.Within limit) : c.Within limit :=
  ⟨Nat.le_trans h.most hc'.1, Nat.le_trans h.highest hc'.2⟩

/-- With room for `room` operands below a limit, the action `a` is the action `a'` cut off where it
passes the limit. -/
def Cuts (limit room : Nat) (a a' : Action α) : Prop :=
  ∀ c v c', c.active + room = limit → a' c = (.ok v, c') → Cut limit c (a c) v c'

namespace Cuts

/-- An action that only reads the counters. -/
theorem still {a : Action α} (h : ∀ c, (a c).2 = c) : Cuts limit room a a := by
  intro c v c' _ hok
  obtain rfl : c' = c := by rw [← h c, hok]
  exact ⟨rfl, Nat.le_refl _, Nat.le_refl _, fun _ => hok, fun hc hc' => absurd hc hc'⟩

theorem pure (v : α) : Cuts limit room (pure v) (pure v) := still fun _ => rfl

theorem get : Cuts limit room (get : Action Counters) get := still fun _ => rfl

theorem of (x : Except ParseError α) : Cuts limit room (Action.of x) (Action.of x) :=
  still fun _ => rfl

theorem left (n : Nat) :
    Cuts limit room (modify (·.left n) : Action PUnit) (modify (·.left n)) := by
  rintro c _ _ _ ⟨⟩
  exact ⟨rfl, Nat.le_refl _, Nat.le_refl _, fun _ => rfl, fun hc hc' => absurd hc hc'⟩

theorem leaf (hlimit : 0 < limit) (v : α) : Cuts limit room (leaf v) (leaf v) := by
  rintro c _ _ _ ⟨⟩
  refine ⟨rfl, Nat.le_refl _, Nat.le_max_left _ _, fun _ => rfl, fun hc hc' => ?_⟩
  exact absurd ⟨hc.1, Nat.max_le.2 ⟨hc.2, hlimit⟩⟩ hc'

theorem bind {a a' : Action α} {f f' : α → Action β} (h : Cuts limit room a a')
    (hf : ∀ v, Cuts limit room (f v) (f' v)) : Cuts limit room (a >>= f) (a' >>= f') := by
  intro c w c₂ hc hok
  rw [bind_apply] at hok
  rcases ha : a' c with ⟨cause | v, c₁⟩
  · rw [ha] at hok
    cases hok
  · rw [ha] at hok
    have first := h c v c₁ hc ha
    have second := hf v c₁ w c₂ (first.active ▸ hc) hok
    refine ⟨second.active.trans first.active, Nat.le_trans first.most second.most,
      Nat.le_trans first.highest second.highest, fun hc₂ => ?_, fun hcw hc₂ => ?_⟩
    · rw [bind_apply, first.same (second.within hc₂)]
      exact second.same hc₂
    · rw [bind_apply]
      by_cases hc₁ : c₁.Within limit
      · rw [first.same hc₁]
        exact second.refused hc₁ hc₂
      · obtain ⟨position, c'', hrefused⟩ := first.refused hcw hc₁
        rw [hrefused]
        exact ⟨position, c'', rfl⟩

/-- Inside an operand there is room for one operand less. -/
theorem inside {a a' : Action α} (h : Cuts limit room a a') :
    Cuts limit (room + 1) (inside a) (inside a') := by
  intro c v c₂ hc hok
  rcases ha : a' c.opened with ⟨result, c₁⟩
  unfold Counting.inside at hok ⊢
  rw [ha] at hok
  cases hok
  have hopened : c.opened.active + room = limit := by
    rw [← hc]
    exact Nat.succ_add_eq_add_succ c.active room
  have hcut := h c.opened v c₁ hopened ha
  refine ⟨congrArg Nat.pred hcut.active, Nat.le_trans (Nat.le_max_left _ _) hcut.most,
    hcut.highest, fun hc₁ => ?_, fun hcw hc₁ => ?_⟩
  · rw [hcut.same hc₁]
  · have hw : c.opened.Within limit := ⟨Nat.max_le.2 ⟨hcw.1, by omega⟩, hcw.2⟩
    obtain ⟨position, c'', hrefused⟩ := hcut.refused hw hc₁
    rw [hrefused]
    exact ⟨position, _, rfl⟩

end Cuts

variable {s : Setting} {k : Nat}

theorem cuts_node (below : Nat) (rest : List Lexeme) :
    Cuts s.limit room (node s below rest) (node (s.raised k) below rest) := by
  intro c v c' _ hok
  unfold node at hok ⊢
  split at hok
  · cases hok
  · cases hok
    refine ⟨rfl, Nat.le_refl _, Nat.le_max_left _ _, fun hw => ?_, fun hw hw' => ?_⟩
    · have hbelow := Nat.max_le.1 hw.2
      rw [if_neg (by omega)]
      rfl
    · have hbelow : s.limit ≤ below := by
        by_contra hlow
        exact hw' ⟨hw.1, Nat.max_le.2 ⟨hw.2, by omega⟩⟩
      rw [if_pos hbelow]
      exact ⟨_, _, rfl⟩

def StepCuts (s : Setting) (room : Nat) (q q' : Step Expr) : Prop :=
  ∀ ts, Cuts s.limit room (q ts) (q' ts)

section Chains
variable {part part' : Step Expr} (hpart : StepCuts s room part part')
  (operator? : Token → Option Operator)
include hpart

theorem cuts_chainTail {n : Nat} {ts : List Lexeme} (hn : ts.length < n) (left : Expr)
    (height : Nat) :
    Cuts s.limit room (chainTail s part operator? left height ts)
      (chainTail (s.raised k) part' operator? left height ts) := by
  induction n generalizing ts left height with
  | zero => exact absurd hn (Nat.not_lt_zero _)
  | succ n ih =>
    rw [chainTail.eq_def, chainTail.eq_def]
    cases ts with
    | nil => exact .pure _
    | cons l rest =>
      cases hop : operator? l.token with
      | none =>
        simp only [hop]
        exact .pure _
      | some op =>
        simp only [hop]
        refine (hpart rest).bind fun r => .bind .get fun c => (cuts_node _ _).bind fun height => ?_
        exact (ih (Rest.length_lt r.2 hn) _ _).bind fun _ => .pure _

theorem cuts_chain :
    StepCuts s room (chain s part operator?) (chain (s.raised k) part' operator?) := by
  intro ts
  refine (hpart ts).bind fun r => .bind .get fun c => ?_
  refine (cuts_chainTail hpart operator? (Nat.lt_succ_self _) _ _).bind fun r => ?_
  exact .bind (.left _) fun _ => .pure _

end Chains

section Levels
variable {operand operand' : Step Expr} (hoperand : StepCuts s room operand operand')
include hoperand

theorem cuts_expression :
    StepCuts s room (expression s operand) (expression (s.raised k) operand') :=
  cuts_chain (cuts_chain (cuts_chain (cuts_chain (cuts_chain hoperand _) _) _) _) _

theorem cuts_argumentsTail {n : Nat} {ts : List Lexeme} (hn : ts.length < n) (highest : Nat) :
    Cuts s.limit room (argumentsTail s operand highest ts)
      (argumentsTail (s.raised k) operand' highest ts) := by
  induction n generalizing ts highest with
  | zero => exact absurd hn (Nat.not_lt_zero _)
  | succ n ih =>
    rw [argumentsTail.eq_def, argumentsTail.eq_def]
    cases ts with
    | nil => exact .pure _
    | cons l rest =>
      by_cases hl : l.token = .comma
      · simp only [if_pos hl]
        refine (cuts_expression hoperand rest).bind fun r => .bind .get fun c => ?_
        exact (ih (Rest.length_lt r.2 hn) _).bind fun _ => .pure _
      · simp only [if_neg hl]
        exact .pure _

theorem cuts_arguments (ts : List Lexeme) :
    Cuts s.limit room (arguments s operand ts) (arguments (s.raised k) operand' ts) := by
  unfold arguments
  by_cases hclose : Parser.current ts = .rightParen
  · simp only [if_pos hclose]
    exact .pure _
  · simp only [if_neg hclose]
    refine (cuts_expression hoperand ts).bind fun r => .bind .get fun c => ?_
    exact (cuts_argumentsTail hoperand (Nat.lt_succ_self _) _).bind fun _ => .pure _

theorem cuts_call (name : String) :
    StepCuts s room (call s operand name) (call (s.raised k) operand' name) := by
  intro ts
  refine Cuts.bind (.of _) fun f => (cuts_arguments hoperand ts).bind fun r => ?_
  refine Cuts.bind (.of _) fun final => ?_
  by_cases harity : f.arity.accepts r.1.1.length = true
  · simp only [if_pos harity]
    exact (cuts_node _ _).bind fun height => .bind (.left _) fun _ => .pure _
  · simp only [if_neg harity]
    exact .of _

theorem cuts_connective (name : String) (place : Nat) :
    StepCuts s room (connective s operand name place)
      (connective (s.raised k) operand' name place) := by
  intro ts
  cases ts with
  | nil => exact .of _
  | cons l rest =>
    unfold connective
    by_cases hl : l.token = .leftParen
    · simp only [if_pos hl]
      exact (cuts_call hoperand name rest).bind fun _ => .pure _
    · simp only [if_neg hl]
      exact .of _

variable (hlimit : 0 < s.limit)
include hlimit

omit hoperand in
theorem cuts_summary (name fieldName : String) :
    StepCuts s room (summary s name fieldName) (summary (s.raised k) name fieldName) := by
  intro ts
  unfold summary
  cases Summary.ofName? name with
  | none => exact .of _
  | some f => exact Cuts.bind (.of _) fun id => Cuts.bind (.of _) fun final => .leaf hlimit _

theorem cuts_application (name : String) :
    StepCuts s room (application s operand name) (application (s.raised k) operand' name) := by
  intro ts
  cases ts with
  | nil => exact cuts_call hoperand name []
  | cons l rest =>
    unfold application
    cases hl : l.token with
    | quoted fieldName =>
      simp only [hl]
      by_cases hname : ((Summary.ofName? name).isNone && (Function.ofName? name).isSome) = true
      · simp only [if_pos hname]
        exact .of _
      · simp only [if_neg hname]
        exact (cuts_summary hlimit name fieldName rest).bind fun _ => .pure _
    | _ =>
      simp only [hl]
      exact cuts_call hoperand name (l :: rest)

theorem cuts_word (name : String) :
    StepCuts s room (word s operand name) (word (s.raised k) operand' name) := by
  intro ts
  cases ts with
  | nil => exact .of _
  | cons l rest =>
    unfold word
    by_cases hl : l.token = .leftParen
    · simp only [if_pos hl]
      exact (cuts_application hoperand hlimit name rest).bind fun _ => .pure _
    · simp only [if_neg hl]
      exact .of _

theorem cuts_primary : StepCuts s room (primary s operand) (primary (s.raised k) operand') := by
  intro ts
  cases ts with
  | nil => exact .of _
  | cons l rest =>
    unfold primary
    cases hl : l.token with
    | number x | boolean b =>
      simp only [hl]
      exact .leaf hlimit _
    | field name =>
      simp only [hl]
      exact Cuts.bind (.of _) fun id => .leaf hlimit _
    | and | or =>
      simp only [hl]
      exact (cuts_connective hoperand _ _ rest).bind fun _ => .pure _
    | word name =>
      simp only [hl]
      exact (cuts_word hoperand hlimit name rest).bind fun _ => .pure _
    | leftParen =>
      simp only [hl]
      exact (cuts_expression hoperand rest).bind fun r => Cuts.bind (.of _) fun _ => .pure _
    | _ =>
      simp only [hl]
      exact .of _

theorem cuts_power : StepCuts s room (power s operand) (power (s.raised k) operand') := by
  intro ts
  refine (cuts_primary hoperand hlimit ts).bind fun ⟨base, after, hafter⟩ => ?_
  cases after with
  | nil => exact .pure _
  | cons l rest =>
    by_cases hl : l.token = .caret
    · simp only [if_pos hl]
      refine Cuts.bind .get fun c => (hoperand rest).bind fun r => .bind .get fun c' => ?_
      exact (cuts_node _ _).bind fun height => .bind (.left _) fun _ => .pure _
    · simp only [if_neg hl]
      exact .pure _

theorem cuts_signed : StepCuts s room (signed s operand) (signed (s.raised k) operand') := by
  intro ts
  cases ts with
  | nil => exact cuts_power hoperand hlimit []
  | cons l rest =>
    unfold signed
    by_cases hl : l.token = .minus
    · simp only [if_pos hl]
      refine (hoperand rest).bind fun r => .bind .get fun c => ?_
      exact (cuts_node _ _).bind fun height => .bind (.left _) fun _ => .pure _
    · simp only [if_neg hl]
      exact cuts_power hoperand hlimit (l :: rest)

end Levels

/-- Without room below the limit, an operand that is opened passes it. -/
theorem cuts_operand_zero :
    StepCuts s 0 (operand s 0) (operand (s.raised k) k) := by
  intro ts c v c' hc hok
  cases k with
  | zero => cases hok
  | succ k =>
    have hopen : ¬(s.raised (k + 1)).limit ≤ c.active := by
      simp only [Setting.raised]
      omega
    unfold operand at hok
    rw [get_bind, if_neg hopen] at hok
    have hroom : c.opened.active + k = (s.raised (k + 1)).limit := by
      simp only [Counters.opened, Setting.raised]
      omega
    have hsigned := tracks_signed (tracks_operand k) ts c.opened hroom
    unfold inside at hok
    generalize signed (s.raised (k + 1)) (operand (s.raised (k + 1)) k) ts c.opened = y
      at hok hsigned
    generalize Parser.signed (s.raised (k + 1)) _ ts = x at hsigned
    cases hsigned with
    | error cause hactive => cases hok
    | @ok v w c₁ hactive h =>
      cases hok
      have hmost : c.active + 1 ≤ c₁.most := Nat.le_trans (Nat.le_max_right _ _) h.2.most
      refine ⟨congrArg Nat.pred hactive, h.2.closed.most, ?_, fun hw => ?_, fun _ _ => ⟨_, _, rfl⟩⟩
      · rw [h.2.closed.highest]
        exact Nat.le_max_left _ _
      · have := hw.1
        simp only [Counters.closed] at this
        omega

theorem cuts_operand (hlimit : 0 < s.limit) (room : Nat) :
    StepCuts s room (operand s room) (operand (s.raised k) (room + k)) := by
  induction room with
  | zero => exact (Nat.zero_add k).symm ▸ cuts_operand_zero
  | succ room ih =>
    intro ts c v c' hc hok
    have hopen : ¬s.limit ≤ c.active := by omega
    have hopen' : ¬(s.raised k).limit ≤ c.active := by
      simp only [Setting.raised]
      omega
    rw [Nat.succ_add_eq_add_succ] at hok
    unfold operand at hok ⊢
    rw [get_bind, if_neg hopen'] at hok
    rw [get_bind, if_neg hopen]
    exact (cuts_signed ih hlimit ts).inside c v c' hc hok

theorem cuts_whole (hlimit : 0 < s.limit) (ts : List Lexeme) :
    Cuts s.limit s.limit (whole s ts) (whole (s.raised k) ts) := by
  refine (cuts_expression (cuts_operand hlimit s.limit) ts).bind fun ⟨e, rest, _⟩ => ?_
  cases rest with
  | nil => exact .pure _
  | cons l more =>
    by_cases hl : l.token = .rightParen
    · simp only [if_pos hl]
      exact .of _
    · simp only [if_neg hl]
      exact .of _

theorem cut_countWithin {limit k : Nat} (hlimit : 0 < limit) {resolve : String → Option FieldId}
    {formula : String} {e : Expr} {c : Counters}
    (h : countWithin (limit + k) resolve formula = (.ok e, c)) :
    Cut limit .zero (countWithin limit resolve formula) e c :=
  cuts_whole (s := ⟨resolve, limit, formula.length⟩) hlimit (lexemes formula) .zero e c
    (Nat.zero_add limit) h

end Counting

/-- The nesting limit is exact. The counters do not change what is read, no operand is left open,
and after a tree the height counter holds its height. No tree that is read is higher than 64. And a
formula that is read under a higher limit is read if its tree is not higher than 64 and no more than
64 operands are ever open inside one another; otherwise it is refused for its nesting. -/
theorem parse_nesting (resolve : String → Option FieldId) (formula : String) :
    (∀ limit, (countWithin limit resolve formula).1 = parseWithin limit resolve formula ∧
      (countWithin limit resolve formula).2.active = 0 ∧
      ∀ e, parseWithin limit resolve formula = .ok e →
        (countWithin limit resolve formula).2.height = e.depth) ∧
    (∀ e, parse resolve formula = .ok e → e.depth ≤ 64) ∧
    ∀ limit e, 64 ≤ limit → parseWithin limit resolve formula = .ok e →
      if e.depth ≤ 64 ∧ (countWithin limit resolve formula).2.most ≤ 64 then
        parse resolve formula = .ok e
      else ∃ position, parse resolve formula = .error (.nestingTooDeep 64 position) := by
  refine ⟨fun limit => ?_, fun e => Parser.depth_le_of_whole, fun limit e hlimit he => ?_⟩
  · obtain ⟨hresult, hactive⟩ := Counting.countWithin_eq limit resolve formula
    refine ⟨hresult, hactive, fun e he => ?_⟩
    obtain ⟨c, hc, hcounted⟩ := Counting.countWithin_of_parseWithin he
    rw [hc]
    exact hcounted.height
  · obtain ⟨c, hc, hcounted⟩ := Counting.countWithin_of_parseWithin he
    have hhighest : c.highest = e.depth := hcounted.highest.trans (Nat.zero_max _)
    obtain ⟨k, rfl⟩ := Nat.exists_eq_add_of_le hlimit
    have hcut := Counting.cut_countWithin (by decide) hc
    have hparse : parse resolve formula = (countWithin 64 resolve formula).1 :=
      (Counting.countWithin_eq 64 resolve formula).1.symm
    rw [hparse, hc, ← hhighest]
    split
    · next hwithin => rw [hcut.same ⟨hwithin.2, hwithin.1⟩]
    · next hbeyond =>
      have hzero : Counters.zero.Within 64 := ⟨Nat.zero_le _, Nat.zero_le _⟩
      obtain ⟨position, c', hrefused⟩ := hcut.refused hzero fun h => hbeyond ⟨h.2, h.1⟩
      rw [hrefused]
      exact ⟨position, rfl⟩

section Sample

def signsFormula : String := String.ofList (List.replicate 64 '-' ++ "TRUE".toList)

def signsTree : Expr := Expr.negate^[64] (.boolean true)

theorem signs_nesting :
    64 ≤ 65 ∧ parseWithin 65 columns signsFormula = .ok signsTree ∧
      ∃ position, parse columns signsFormula = .error (.nestingTooDeep 64 position) := by
  have hparse : parseWithin 65 columns signsFormula = .ok signsTree := by cbv
  have hdepth : signsTree.depth = 65 := by decide
  have h := (parse_nesting columns signsFormula).2.2 65 _ (by decide) hparse
  rw [if_neg (by omega)] at h
  exact ⟨by decide, hparse, h⟩

end Sample

end Crosstab.Formula
