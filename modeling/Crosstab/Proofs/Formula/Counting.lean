import Crosstab.Formula.Counting
import Crosstab.Proofs.Formula.Reading

/-!
# What the counters hold

The counters change nothing about what is read: step by step, reading with them comes to what
reading without them comes to, be it a tree or an error. Between steps they hold what they are meant
to hold. Every operand that was opened is closed again, after an error too, and after a tree the
height counter is the height of that tree.
-/

namespace Crosstab.Formula.Counting
variable {α β γ δ : Type} {c c' c'' : Counters}

theorem bind_apply (a : Action α) (f : α → Action β) (c : Counters) :
    (a >>= f) c = match a c with
      | (.ok v, c') => f v c'
      | (.error cause, c') => (.error cause, c') := by
  show (StateT.bind a (ExceptT.bindCont f)) c = _
  rcases h : a c with ⟨cause | v, c'⟩ <;> simp only [StateT.bind, h] <;> rfl

theorem Rest.length_lt {l : Lexeme} {rest : List Lexeme} {n : Nat} (after : Rest rest)
    (hn : (l :: rest).length < n + 1) : after.val.length < n := by
  have hle : after.val.length < rest.length := after.property
  simp only [List.length_cons] at hn
  omega

theorem get_bind (f : Counters → Action α) (c : Counters) : (get >>= f : Action α) c = f c c := rfl

/-! ### Steps with and without counters -/

/-- With related results, or with the same error, a counting step comes to what a plain one comes
to, and as many operands are open as before. -/
inductive Settles (c : Counters) (R : α → β → Counters → Prop) :
    Except ParseError α × Counters → Except ParseError β → Prop
  | ok {v : α} {w : β} {c' : Counters} (hactive : c'.active = c.active) (h : R v w c') :
    Settles c R (.ok v, c') (.ok w)
  | error {c' : Counters} (cause : ParseError) (hactive : c'.active = c.active) :
    Settles c R (.error cause, c') (.error cause)

namespace Settles
variable {R : α → β → Counters → Prop} {S : γ → δ → Counters → Prop}

theorem of (x : Except ParseError α) (c : Counters) :
    Settles c (fun v w c' => v = w ∧ c' = c) (Action.of x c) x := by
  cases x with
  | error cause => exact .error cause rfl
  | ok v => exact .ok rfl ⟨rfl, rfl⟩

theorem of_active {y : Except ParseError α × Counters} {x : Except ParseError β}
    (h : Settles c' R y x) (hactive : c'.active = c.active) : Settles c R y x := by
  cases h with
  | error cause h => exact .error cause (h.trans hactive)
  | ok h hr => exact .ok (h.trans hactive) hr

theorem bind {a : Action α} {x : Except ParseError β} {f : α → Action γ}
    {g : β → Except ParseError δ} (h : Settles c R (a c) x)
    (hfg : ∀ v w c', c'.active = c.active → R v w c' → Settles c' S (f v c') (g w)) :
    Settles c S ((a >>= f) c) (x >>= g) := by
  rw [bind_apply]
  generalize a c = y at h
  cases h with
  | error cause hactive => exact .error cause hactive
  | ok hactive h => exact (hfg _ _ _ hactive h).of_active hactive

end Settles

/-- The counters `c'` come from `c` when a tree of height `n` was read. -/
structure Counted (c c' : Counters) (n : Nat) : Prop where
  height : c'.height = n
  highest : c'.highest = max c.highest n
  most : c.most ≤ c'.most

/-- Another bound on the tokens that are left changes nothing. -/
theorem Settles.pass {ts ts' : List Lexeme} {a : Action (Expr × Rest ts)}
    {x : Except ParseError (Expr × Rest ts)}
    (h : Settles c (fun v w c' => v = w ∧ Counted c c' w.1.depth) (a c) x)
    (f : Expr × Rest ts → Expr × Rest ts') (hf : ∀ r, (f r).1 = r.1) :
    Settles c (fun v w c' => v = w ∧ Counted c c' w.1.depth)
      ((a >>= fun r => pure (f r)) c) (x >>= fun r => pure (f r)) := by
  rw [bind_apply]
  generalize a c = y at h
  cases h with
  | error cause hactive => exact .error cause hactive
  | @ok v w c' hactive h => exact .ok hactive ⟨congrArg f h.1, (hf w).symm ▸ h.2⟩

def Tracks (s : Setting) (room : Nat) (q : Step Expr) (p : Formula.Step Expr) : Prop :=
  ∀ ts c, c.active + room = s.limit →
    Settles c (fun v w c' => v = w ∧ Counted c c' w.1.depth) (q ts c) (p ts)

variable {s : Setting} {room : Nat}

theorem counted_leaf (c : Counters) : Counted c ((c.made 1).left 1) 1 := ⟨rfl, rfl, Nat.le_refl _⟩

/-- A tree above others is measured by the height of the highest one below it. -/
theorem settles_node {e : Expr} {below : Nat} (h : e.depth = below + 1) (rest : List Lexeme)
    (c : Counters) :
    Settles c (fun n e' c' => n = e.depth ∧ e' = e ∧ c' = c.made e.depth)
      (node s below rest c) (Parser.bounded s e rest) := by
  unfold node Parser.bounded
  by_cases hlimit : s.limit ≤ below
  · have hdeep : s.limit < e.depth := by omega
    rw [if_pos hlimit, if_pos hdeep]
    exact .error _ rfl
  · have hlow : ¬s.limit < e.depth := by omega
    rw [if_neg hlimit, if_neg hlow]
    exact .ok rfl ⟨h.symm, rfl, h ▸ rfl⟩

section Chains
variable {part : Step Expr} {part' : Formula.Step Expr} (hpart : Tracks s room part part')
  (operator? : Token → Option Operator)
include hpart

theorem settles_chainTail {n : Nat} {ts : List Lexeme} (hn : ts.length < n) {left : Expr}
    (hc : c.active + room = s.limit) (hleft : left.depth ≤ c.highest) :
    Settles c (fun v w c' => v = ((w.1, w.1.depth), w.2) ∧ left.depth ≤ w.1.depth ∧
        c'.highest = max c.highest w.1.depth ∧ c.most ≤ c'.most)
      (chainTail s part operator? left left.depth ts c)
      (Parser.chainTail s part' operator? left ts) := by
  induction n generalizing ts left c with
  | zero => exact absurd hn (Nat.not_lt_zero _)
  | succ n ih =>
    rw [chainTail.eq_def, Parser.chainTail.eq_def]
    cases ts with
    | nil => exact .ok rfl ⟨rfl, Nat.le_refl _, (Nat.max_eq_left hleft).symm, Nat.le_refl _⟩
    | cons l rest =>
      cases hop : operator? l.token with
      | none =>
        simp only [hop]
        exact .ok rfl ⟨rfl, Nat.le_refl _, (Nat.max_eq_left hleft).symm, Nat.le_refl _⟩
      | some op =>
        simp only [hop]
        refine (hpart rest c hc).bind ?_
        rintro ⟨right, after⟩ _ c₁ hactive ⟨rfl, hright⟩
        dsimp only at hright ⊢
        rw [get_bind, hright.height]
        refine (settles_node (e := .binary op left right) rfl _ _).bind ?_
        rintro _ _ _ - ⟨rfl, rfl, rfl⟩
        refine (ih (Rest.length_lt after hn) (c := c₁.made _) (hactive ▸ hc) (Nat.le_max_right _ _)).bind ?_
        rintro _ ⟨e, final⟩ c₂ - ⟨rfl, hdepth, hhighest, hmost⟩
        have hl := Expr.depth_left_le op left right
        have hr := Expr.depth_right_le op left right
        have hbefore := hright.highest
        refine .ok rfl ⟨rfl, Nat.le_trans hl hdepth, ?_, Nat.le_trans hright.most hmost⟩
        simp only [Counters.made] at hhighest hdepth ⊢
        omega

theorem tracks_chain : Tracks s room (chain s part operator?) (Parser.chain s part' operator?) := by
  intro ts c hc
  refine (hpart ts c hc).bind ?_
  rintro ⟨left, after⟩ _ c₁ hactive ⟨rfl, hleft⟩
  dsimp only at hleft ⊢
  rw [get_bind, hleft.height]
  have hhighest := hleft.highest
  refine (settles_chainTail hpart operator? (Nat.lt_succ_self _) (hactive ▸ hc) ?_).bind ?_
  · omega
  · rintro _ ⟨e, final⟩ c₂ - ⟨rfl, hdepth, hhighest', hmost⟩
    refine .ok rfl ⟨rfl, rfl, ?_, Nat.le_trans hleft.most hmost⟩
    simp only [Counters.left] at hhighest' hdepth ⊢
    omega

end Chains

section Levels
variable {operand : Step Expr} {operand' : Formula.Step Expr}
  (hoperand : Tracks s room operand operand')
include hoperand

theorem tracks_expression :
    Tracks s room (expression s operand) (Parser.expression s operand') :=
  tracks_chain (tracks_chain (tracks_chain (tracks_chain (tracks_chain hoperand _) _) _) _) _

theorem settles_argumentsTail {n highest : Nat} {ts : List Lexeme} (hn : ts.length < n)
    (hc : c.active + room = s.limit) :
    Settles c (fun v w c' => v = ((w.1, max highest (Expr.depthAll w.1)), w.2) ∧
        c'.highest = max c.highest (Expr.depthAll w.1) ∧ c.most ≤ c'.most)
      (argumentsTail s operand highest ts c) (Parser.argumentsTail s operand' ts) := by
  induction n generalizing ts highest c with
  | zero => exact absurd hn (Nat.not_lt_zero _)
  | succ n ih =>
    rw [argumentsTail.eq_def, Parser.argumentsTail.eq_def]
    cases ts with
    | nil => exact .ok rfl ⟨by simp [Expr.depthAll], (Nat.max_zero _).symm, Nat.le_refl _⟩
    | cons l rest =>
      by_cases hl : l.token = .comma
      · simp only [if_pos hl]
        refine (tracks_expression hoperand rest c hc).bind ?_
        rintro ⟨e, after⟩ _ c₁ hactive ⟨rfl, he⟩
        dsimp only at he ⊢
        rw [get_bind, he.height]
        refine (ih (Rest.length_lt after hn) (hactive ▸ hc)).bind ?_
        rintro _ ⟨es, final⟩ c₂ - ⟨rfl, hhighest, hmost⟩
        have hbefore := he.highest
        refine .ok rfl ⟨?_, ?_, Nat.le_trans he.most hmost⟩
        · simp only [Expr.depthAll, Nat.max_assoc]
        · simp only [Expr.depthAll] at hhighest ⊢
          omega
      · simp only [if_neg hl]
        exact .ok rfl ⟨by simp [Expr.depthAll], (Nat.max_zero _).symm, Nat.le_refl _⟩

theorem settles_arguments {ts : List Lexeme} (hc : c.active + room = s.limit) :
    Settles c (fun v w c' => v = ((w.1, Expr.depthAll w.1), w.2) ∧
        c'.highest = max c.highest (Expr.depthAll w.1) ∧ c.most ≤ c'.most)
      (arguments s operand ts c) (Parser.arguments s operand' ts) := by
  unfold arguments Parser.arguments
  by_cases hclose : Parser.current ts = .rightParen
  · simp only [if_pos hclose]
    exact .ok rfl ⟨rfl, (Nat.max_zero _).symm, Nat.le_refl _⟩
  · simp only [if_neg hclose]
    refine (tracks_expression hoperand ts c hc).bind ?_
    rintro ⟨e, after⟩ _ c₁ hactive ⟨rfl, he⟩
    dsimp only at he ⊢
    rw [get_bind, he.height]
    refine (settles_argumentsTail hoperand (Nat.lt_succ_self _) (hactive ▸ hc)).bind ?_
    rintro _ ⟨es, final⟩ c₂ - ⟨rfl, hhighest, hmost⟩
    have hbefore := he.highest
    refine .ok rfl ⟨rfl, ?_, Nat.le_trans he.most hmost⟩
    simp only [Expr.depthAll] at hhighest ⊢
    omega

theorem tracks_call (name : String) :
    Tracks s room (call s operand name) (Parser.call s operand' name) := by
  intro ts c hc
  refine (Settles.of _ c).bind ?_
  rintro f _ _ - ⟨rfl, rfl⟩
  refine (settles_arguments hoperand hc).bind ?_
  rintro _ ⟨es, after⟩ c₁ hactive ⟨rfl, hhighest, hmost⟩
  dsimp only at hhighest ⊢
  refine (Settles.of _ c₁).bind ?_
  rintro final _ _ - ⟨rfl, rfl⟩
  by_cases harity : f.arity.accepts es.length = true
  · simp only [if_pos harity]
    refine (settles_node (Parser.depth_build f es) _ _).bind ?_
    rintro _ _ _ - ⟨rfl, rfl, rfl⟩
    refine .ok rfl ⟨rfl, rfl, ?_, hmost⟩
    have hdepth := Parser.depth_build f es
    simp only [Counters.left, Counters.made] at hhighest ⊢
    omega
  · simp only [if_neg harity]
    exact .error _ rfl

omit hoperand in
theorem tracks_summary (name fieldName : String) :
    Tracks s room (summary s name fieldName) (Parser.summary s name fieldName) := by
  intro ts c _
  unfold summary Parser.summary
  cases hf : Summary.ofName? name with
  | none => exact .error _ rfl
  | some f =>
    refine (Settles.of _ c).bind ?_
    rintro id _ _ - ⟨rfl, rfl⟩
    refine (Settles.of _ _).bind ?_
    rintro final _ _ - ⟨rfl, rfl⟩
    exact .ok rfl ⟨rfl, counted_leaf _⟩

theorem tracks_application (name : String) :
    Tracks s room (application s operand name) (Parser.application s operand' name) := by
  intro ts c hc
  cases ts with
  | nil => exact tracks_call hoperand name [] c hc
  | cons l rest =>
    unfold application Parser.application
    cases hl : l.token with
    | quoted fieldName =>
      simp only [hl]
      by_cases hname : ((Summary.ofName? name).isNone && (Function.ofName? name).isSome) = true
      · simp only [if_pos hname]
        exact .error _ rfl
      · simp only [if_neg hname]
        exact (tracks_summary name fieldName rest c hc).pass _ fun _ => rfl
    | _ =>
      simp only [hl]
      exact tracks_call hoperand name (l :: rest) c hc

theorem tracks_connective (name : String) (place : Nat) :
    Tracks s room (connective s operand name place) (Parser.connective s operand' name place) := by
  intro ts c hc
  cases ts with
  | nil => exact .error _ rfl
  | cons l rest =>
    unfold connective Parser.connective
    by_cases hl : l.token = .leftParen
    · simp only [if_pos hl]
      exact (tracks_call hoperand name rest c hc).pass _ fun _ => rfl
    · simp only [if_neg hl]
      exact .error _ rfl

theorem tracks_word (name : String) :
    Tracks s room (word s operand name) (Parser.word s operand' name) := by
  intro ts c hc
  cases ts with
  | nil => exact .error _ rfl
  | cons l rest =>
    unfold word Parser.word
    by_cases hl : l.token = .leftParen
    · simp only [if_pos hl]
      exact (tracks_application hoperand name rest c hc).pass _ fun _ => rfl
    · simp only [if_neg hl]
      exact .error _ rfl

theorem tracks_primary : Tracks s room (primary s operand) (Parser.primary s operand') := by
  intro ts c hc
  cases ts with
  | nil => exact .error _ rfl
  | cons l rest =>
    unfold primary Parser.primary
    cases hl : l.token with
    | number x => 
      simp only [hl]
      exact .ok rfl ⟨rfl, counted_leaf c⟩
    | boolean b =>
      simp only [hl]
      exact .ok rfl ⟨rfl, counted_leaf c⟩
    | field name =>
      simp only [hl]
      refine (Settles.of _ c).bind ?_
      rintro id _ _ - ⟨rfl, rfl⟩
      exact .ok rfl ⟨rfl, counted_leaf _⟩
    | and => 
      simp only [hl]
      exact (tracks_connective hoperand _ _ rest c hc).pass _ fun _ => rfl
    | or => 
      simp only [hl]
      exact (tracks_connective hoperand _ _ rest c hc).pass _ fun _ => rfl
    | word name =>
      simp only [hl]
      exact (tracks_word hoperand name rest c hc).pass _ fun _ => rfl
    | leftParen =>
      simp only [hl]
      refine (tracks_expression hoperand rest c hc).bind ?_
      rintro ⟨e, after⟩ _ c₁ _ ⟨rfl, he⟩
      refine (Settles.of _ c₁).bind ?_
      rintro final _ _ - ⟨rfl, rfl⟩
      exact .ok rfl ⟨rfl, he⟩
    | _ =>
      simp only [hl]
      exact .error _ rfl

theorem tracks_power : Tracks s room (power s operand) (Parser.power s operand') := by
  intro ts c hc
  refine (tracks_primary hoperand ts c hc).bind ?_
  rintro ⟨base, after, hafter⟩ _ c₁ hactive ⟨rfl, hbase⟩
  dsimp only at hbase ⊢
  cases after with
  | nil => exact .ok rfl ⟨rfl, hbase⟩
  | cons l rest =>
    by_cases hl : l.token = .caret
    · simp only [if_pos hl]
      rw [get_bind]
      refine (hoperand rest c₁ (hactive ▸ hc)).bind ?_
      rintro ⟨exponent, final⟩ _ c₂ _ ⟨rfl, hexponent⟩
      dsimp only at hexponent ⊢
      rw [get_bind, hbase.height, hexponent.height]
      refine (settles_node (e := .binary .power base exponent) rfl _ _).bind ?_
      rintro _ _ _ - ⟨rfl, rfl, rfl⟩
      refine .ok rfl ⟨rfl, rfl, ?_, Nat.le_trans hbase.most hexponent.most⟩
      have hl := Expr.depth_left_le .power base exponent
      have hr := Expr.depth_right_le .power base exponent
      have hbefore := hbase.highest
      have hbetween := hexponent.highest
      simp only [Counters.left, Counters.made]
      omega
    · simp only [if_neg hl]
      exact .ok rfl ⟨rfl, hbase⟩

theorem tracks_signed : Tracks s room (signed s operand) (Parser.signed s operand') := by
  intro ts c hc
  cases ts with
  | nil => exact tracks_power hoperand [] c hc
  | cons l rest =>
    unfold signed Parser.signed
    by_cases hl : l.token = .minus
    · simp only [if_pos hl]
      refine (hoperand rest c hc).bind ?_
      rintro ⟨e, final⟩ _ c₁ _ ⟨rfl, he⟩
      dsimp only at he ⊢
      rw [get_bind, he.height]
      refine (settles_node (e := .negate e) rfl _ _).bind ?_
      rintro _ _ _ - ⟨rfl, rfl, rfl⟩
      refine .ok rfl ⟨rfl, rfl, ?_, he.most⟩
      have hbefore := he.highest
      simp only [Counters.left, Counters.made, Expr.depth] at *
      omega
    · simp only [if_neg hl]
      exact tracks_power hoperand (l :: rest) c hc

end Levels

theorem Counted.closed {n : Nat} (h : Counted c.opened c' n) : Counted c c'.closed n :=
  ⟨h.height, h.highest, Nat.le_trans (Nat.le_max_left _ _) h.most⟩

/-- The counter refuses to open an operand exactly when there is no room for it. -/
theorem tracks_operand (room : Nat) : Tracks s room (operand s room) (Parser.operand s room) := by
  induction room with
  | zero => exact fun ts c _ => .error _ rfl
  | succ room ih =>
    intro ts c hc
    have hlimit : ¬s.limit ≤ c.active := by omega
    unfold operand Parser.operand
    rw [get_bind, if_neg hlimit]
    have hopened : c.opened.active + room = s.limit := by
      rw [← hc]
      exact Nat.succ_add_eq_add_succ c.active room
    have hsigned := tracks_signed ih ts c.opened hopened
    unfold inside
    generalize signed s (operand s room) ts c.opened = y at hsigned
    generalize Parser.signed s (Parser.operand s room) ts = x at hsigned
    cases hsigned with
    | error cause hactive => exact .error cause (congrArg Nat.pred hactive)
    | ok hactive h => exact .ok (congrArg Nat.pred hactive) ⟨h.1, h.2.closed⟩

/-- With the counters or without them, the same is read, and in the end no operand is open. -/
theorem settles_countWithin (limit : Nat) (resolve : String → Option FieldId) (formula : String) :
    Settles .zero (fun e e' c => e = e' ∧ Counted .zero c e.depth)
      (countWithin limit resolve formula) (parseWithin limit resolve formula) := by
  let s : Setting := ⟨resolve, limit, formula.length⟩
  have hread := tracks_expression (tracks_operand s.limit) (lexemes formula) .zero (Nat.zero_add _)
  refine hread.bind ?_
  rintro ⟨e, rest, _⟩ _ c _ ⟨rfl, he⟩
  cases rest with
  | nil => exact .ok rfl ⟨rfl, he⟩
  | cons l more =>
    by_cases hl : l.token = .rightParen
    · simp only [if_pos hl]
      exact .error _ rfl
    · simp only [if_neg hl]
      exact .error _ rfl

theorem countWithin_eq (limit : Nat) (resolve : String → Option FieldId) (formula : String) :
    (countWithin limit resolve formula).1 = parseWithin limit resolve formula ∧
      (countWithin limit resolve formula).2.active = 0 := by
  have h := settles_countWithin limit resolve formula
  generalize countWithin limit resolve formula = y at h ⊢
  generalize parseWithin limit resolve formula = x at h ⊢
  cases h with
  | error cause hactive => exact ⟨rfl, hactive⟩
  | ok hactive h => exact ⟨congrArg Except.ok h.1, hactive⟩

theorem countWithin_of_parseWithin {limit : Nat} {resolve : String → Option FieldId}
    {formula : String} {e : Expr} (h : parseWithin limit resolve formula = .ok e) :
    ∃ c, countWithin limit resolve formula = (.ok e, c) ∧ Counted .zero c e.depth := by
  have hsettles := settles_countWithin limit resolve formula
  rw [h] at hsettles
  generalize countWithin limit resolve formula = y at hsettles ⊢
  cases hsettles with
  | ok _ hr => exact ⟨_, by rw [hr.1], hr.1 ▸ hr.2⟩

end Crosstab.Formula.Counting
