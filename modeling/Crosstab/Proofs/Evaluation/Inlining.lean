import Crosstab.Proofs.Evaluation.Depth

/-!
# Formulas in the place of fields

A formula that refers to a calculated field may have the formula of the field there instead, which
is then computed with room for one more formula below it. More room changes no result but the limit,
and the limit ends a formula wherever it comes up. So the result stays, unless it was the limit, or
the formula of the field is a truth value: as a field that would be a number.
-/

namespace Crosstab.Formula.Expr

mutual

/-- A formula with another one in the place of every reference to a field. Summaries of the field
stay. -/
def inline (id : FieldId) (c : Expr) : Expr → Expr
  | number x => .number x
  | boolean b => .boolean b
  | field id' => if id' = id then c else .field id'
  | summary m id' => .summary m id'
  | binary op l r => .binary op (inline id c l) (inline id c r)
  | negate e => .negate (inline id c e)
  | conditional e yes no => .conditional (inline id c e) (inline id c yes) (inline id c no)
  | call f args => .call f (inlineAll id c args)

def inlineAll (id : FieldId) (c : Expr) : List Expr → List Expr
  | [] => []
  | e :: es => inline id c e :: inlineAll id c es

end

end Crosstab.Formula.Expr

namespace Crosstab.Evaluation

open Formula (Expr)

def Scope.replacing (s : Scope) (id : FieldId) (v : Except EvalError Scalar) : Scope where
  field id' := if id' = id then v.map some else s.field id'
  summary := s.summary

section
variable (s : Scope) {id id' : FieldId} (v : Except EvalError Scalar)

theorem Scope.replacing_self : (s.replacing id v).field id = v.map some := if_pos rfl

theorem Scope.replacing_of_ne (h : id' ≠ id) : (s.replacing id v).field id' = s.field id' :=
  if_neg h

end

theorem forall₂_inlineAll {s s' : Scope} {id : FieldId} {c : Expr} {es : List Expr}
    (h : ∀ e ∈ es, (Expr.inline id c e).evaluate s = e.evaluate s') :
    List.Forall₂ (fun e e' => e.evaluate s = e'.evaluate s') (Expr.inlineAll id c es) es := by
  induction es with
  | nil => exact .nil
  | cons e es ih =>
    exact .cons (h e List.mem_cons_self) (ih fun e he => h e (List.mem_cons_of_mem _ he))

/-- With a formula in its place a field has the result of the formula. -/
theorem evaluate_inline (s : Scope) (id : FieldId) (c e : Expr) :
    (Expr.inline id c e).evaluate s = e.evaluate (s.replacing id (c.evaluate s)) := by
  induction e using Expr.induct with
  | number x => rfl
  | boolean b => rfl
  | field id' =>
    by_cases h : id' = id
    · subst h
      simp only [Expr.inline, Expr.evaluate, Scope.replacing_self, if_true]
      cases c.evaluate s <;> rfl
    · simp only [Expr.inline, Expr.evaluate, Scope.replacing_of_ne s _ h, if_neg h]
  | summary m id' => rfl
  | binary op l r ihl ihr => cases op <;> simp only [Expr.inline, Expr.evaluate, ihl, ihr]
  | negate e ih => simp only [Expr.inline, Expr.evaluate, ih]
  | conditional e yes no ih ihyes ihno => simp only [Expr.inline, Expr.evaluate, ih, ihyes, ihno]
  | call f args ih =>
    have hargs := forall₂_inlineAll ih
    cases f <;> simp only [Expr.inline, Expr.evaluate,
      related_only stepwise_eq hargs _ fun _ => trivial,
      related_reduce stepwise_eq hargs _ _ fun _ => trivial,
      related_choice stepwise_eq hargs fun _ => trivial, related_all stepwise_eq hargs,
      related_any stepwise_eq hargs]

/-! ### More room -/

/-- A result that is the limit, or the same as another one. -/
def EqUnlessLimit {α : Type} (x y : Except EvalError α) : Prop :=
  x = y ∨ ∃ id, x = .error (.recursionLimit id)

theorem stepwise_eqUnlessLimit : Stepwise (fun _ => True) EqUnlessLimit where
  ok _ := .inl rfl
  error _ := .inl rfl
  bind := by
    intro α β x y f g h hfg
    rcases h with rfl | ⟨id, rfl⟩
    · cases x with
      | ok a => exact hfg a
      | error cause => exact .inl rfl
    · exact .inr ⟨id, rfl⟩
  own _ _ := trivial

theorem EqUnlessLimit.eq {α : Type} {x y : Except EvalError α} (h : EqUnlessLimit x y)
    (hx : ∀ id, x ≠ .error (.recursionLimit id)) : x = y :=
  h.resolve_right fun ⟨id, hid⟩ => hx id hid

variable {i : FieldIndex} {s : Source} {room more : Nat}

theorem agree_of_openField
    (h : ∀ (s : Source) f, EqUnlessLimit (openField (within (s.scopes i) room) f)
      (openField (within (s.scopes i) more) f)) (id : FieldId) :
    AgreeUpTo EqUnlessLimit (s.scopes i room) (s.scopes i more) id := by
  rw [Source.scopes_eq, Source.scopes_eq]
  exact Source.related_scope (fun _ _ => trivial) (fun _ _ => trivial) stepwise_eqUnlessLimit
    fun s' _ f _ _ => h s' f

theorem eqUnlessLimit_openField (h : room ≤ more) (f : Field) :
    EqUnlessLimit (openField (within (s.scopes i) room) f)
      (openField (within (s.scopes i) more) f) := by
  induction room generalizing s more f with
  | zero =>
    cases hf : f.calculation with
    | none =>
      simp only [openField, hf]
      exact .inl rfl
    | some c =>
      simp only [within, openField, hf]
      exact .inr ⟨f.id, rfl⟩
  | succ room ih =>
    obtain ⟨more, rfl⟩ : ∃ m, more = m + 1 := Nat.exists_eq_add_one.2 (by omega)
    refine related_openField stepwise_eqUnlessLimit (fun _ => trivial)
      (fun c _ => callsRaise_true c.expr) fun id _ => ?_
    exact agree_of_openField (fun s' g => ih (Nat.le_of_succ_le_succ h) g) id

theorem eqUnlessLimit_evaluate (h : room ≤ more) (e : Expr) :
    EqUnlessLimit (e.evaluate (s.scopes i room)) (e.evaluate (s.scopes i more)) :=
  related_evaluate stepwise_eqUnlessLimit fun id _ =>
    agree_of_openField (fun _ f => eqUnlessLimit_openField h f) id

/-! ### The formula of a field -/

theorem Source.field_calculated {result : Source → Field → Except EvalError Float} {x : Field}
    (hx : i.get? x.id = some x) (hcalc : x.isCalculated = true) :
    (s.scope i result).field x.id = (result s x).map fun v => some (.number v) := by
  have hrequire : require i x.id = .ok x := require_eq_ok_iff.2 hx
  cases s with
  | record r =>
    simp only [Source.scope, ofRecord, hrequire]
    exact if_pos hcalc
  | group rs =>
    simp only [Source.scope, ofGroup, hrequire]
    exact if_pos hcalc

section
variable {x : Field} {c : Calculation} (hc : x.calculation = some c)
  (hboolean : ∀ n, room = n + 1 → ∀ b, c.expr.evaluate (s.scopes i n) ≠ .ok (.boolean b))
include hc hboolean

/-- A field opens its formula with room for one formula less below it. -/
theorem eqUnlessLimit_opened :
    EqUnlessLimit ((openField (within (s.scopes i) room) x).map fun v => some (.number v))
      ((c.expr.evaluate (s.scopes i room)).map some) := by
  cases room with
  | zero =>
    simp only [within, openField, hc]
    exact .inr ⟨x.id, rfl⟩
  | succ n =>
    have hroom : EqUnlessLimit (c.expr.evaluate (s.scopes i n))
        (c.expr.evaluate (s.scopes i (n + 1))) := eqUnlessLimit_evaluate (Nat.le_succ n) c.expr
    simp only [within, openField, hc]
    rcases hroom with hsame | ⟨id, hlimit⟩
    · rw [← hsame]
      cases hvalue : c.expr.evaluate (s.scopes i n) with
      | error cause => exact .inl rfl
      | ok v =>
        cases v with
        | number y => exact .inl rfl
        | boolean b => exact absurd hvalue (hboolean n rfl b)
    · rw [hlimit]
      exact .inr ⟨id, rfl⟩

theorem agree_replacing (hx : i.get? x.id = some x) (id : FieldId) :
    AgreeUpTo EqUnlessLimit (s.scopes i room)
      ((s.scopes i room).replacing x.id (c.expr.evaluate (s.scopes i room))) id := by
  constructor
  case summary => exact fun m => .inl rfl
  case field =>
    by_cases hid : id = x.id
    · subst hid
      have hcalc : x.isCalculated = true := by rw [Field.isCalculated, hc]; rfl
      rw [Scope.replacing_self, Source.scopes_eq, Source.field_calculated hx hcalc,
        ← Source.scopes_eq]
      exact eqUnlessLimit_opened hc hboolean
    · rw [Scope.replacing_of_ne _ _ hid]
      exact .inl rfl

end

/-- The result of a formula that does not reach the limit is the same at every smaller depth. It is
also the same with the formula of a calculated field in the place of every reference to the field,
unless that formula, where the field opens it, is a truth value. -/
theorem evaluateAt_inline (i : FieldIndex) (s : Source) (depth : Nat) (e : Expr)
    (hlimit : ∀ id, evaluateAt (s.scopes i) depth e ≠ .error (.recursionLimit id)) :
    (∀ depth' ≤ depth, evaluateAt (s.scopes i) depth' e = evaluateAt (s.scopes i) depth e) ∧
    ∀ x c, i.get? x.id = some x → x.calculation = some c →
      (∀ b, evaluateAt (s.scopes i) (depth + 1) c.expr ≠ .ok (.boolean b)) →
      evaluateAt (s.scopes i) depth (Expr.inline x.id c.expr e) =
        evaluateAt (s.scopes i) depth e := by
  constructor
  · intro depth' hdepth
    have hroom : maxDepth - depth ≤ maxDepth - depth' := by omega
    exact ((eqUnlessLimit_evaluate hroom e).eq hlimit).symm
  · intro x c hx hc hboolean
    have hopened : ∀ n, maxDepth - depth = n + 1 →
        ∀ b, c.expr.evaluate (s.scopes i n) ≠ .ok (.boolean b) := by
      intro n hn b
      have hn' : maxDepth - (depth + 1) = n := by omega
      exact hn' ▸ hboolean b
    rw [evaluateAt, evaluate_inline]
    have hreplaced := related_evaluate stepwise_eqUnlessLimit (e := e) fun id _ =>
      agree_replacing hc hopened hx id
    exact (hreplaced.eq hlimit).symm

section Sample

def amount : Field := ⟨"a", "A", .number, some .sum, none⟩

def increased : Field :=
  ⟨"x", "X", .number, some .sum, some ⟨"[A] + 1", .binary .add (.field "a") (.number 1.0)⟩⟩

def payment : Source := .record (.set .empty "a" (.number 3.0))

theorem increased_inlined :
    evaluateAt (payment.scopes ⟨[amount, increased]⟩) 3
        (.binary .multiply (.field "x") (.number 2.0)) = .ok (.number 8.0) ∧
      evaluateAt (payment.scopes ⟨[amount, increased]⟩) 1
        (.binary .multiply (.field "x") (.number 2.0)) = .ok (.number 8.0) ∧
      evaluateAt (payment.scopes ⟨[amount, increased]⟩) 3
        (.binary .multiply (.binary .add (.field "a") (.number 1.0)) (.number 2.0)) =
          .ok (.number 8.0) := by
  have hvalue : evaluateAt (payment.scopes ⟨[amount, increased]⟩) 3
      (.binary .multiply (.field "x") (.number 2.0)) = .ok (.number 8.0) := by decide +kernel
  have hnumber : evaluateAt (payment.scopes ⟨[amount, increased]⟩) 4
      (.binary .add (.field "a") (.number 1.0)) = .ok (.number 4.0) := by decide +kernel
  have hlimit := evaluateAt_inline ⟨[amount, increased]⟩ payment 3
    (.binary .multiply (.field "x") (.number 2.0)) (by rw [hvalue]; exact nofun)
  refine ⟨hvalue, (hlimit.1 1 (by decide)).trans hvalue, ?_⟩
  exact (hlimit.2 increased _ rfl rfl (by rw [hnumber]; exact nofun)).trans hvalue

end Sample

end Crosstab.Evaluation
