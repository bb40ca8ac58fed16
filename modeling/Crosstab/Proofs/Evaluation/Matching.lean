import Crosstab.Proofs.Evaluation.Reads
import Crosstab.Proofs.Formula.Literals

/-!
# Matching results

Two results match if both are the same error, or if their values are related. A relation of numbers
that the operations of formulas respect is respected by formulas: in two scopes that match on the
fields it reads, a formula has matching results.
-/

namespace Crosstab.Evaluation

open Formula (Expr)

inductive Matches {α β : Type} (R : α → β → Prop) : Except EvalError α → Except EvalError β → Prop
  | ok {a : α} {b : β} (h : R a b) : Matches R (.ok a) (.ok b)
  | error (cause : EvalError) : Matches R (.error cause) (.error cause)

namespace Matches
variable {α β γ δ : Type} {R : α → β → Prop} {S : γ → δ → Prop}

theorem bind {x : Except EvalError α} {y : Except EvalError β} {f : α → Except EvalError γ}
    {g : β → Except EvalError δ} (h : Matches R x y)
    (hfg : ∀ a b, R a b → Matches S (f a) (g b)) : Matches S (x >>= f) (y >>= g) := by
  cases h with
  | ok h => exact hfg _ _ h
  | error cause => exact .error cause

theorem bind_left {S : γ → β → Prop} {x : Except EvalError α} {y : Except EvalError β}
    {f : α → Except EvalError γ} (h : Matches R x y)
    (hf : ∀ a b, R a b → Matches S (f a) (.ok b)) : Matches S (x >>= f) y := by
  cases h with
  | ok h => exact hf _ _ h
  | error cause => exact .error cause

theorem map {x : Except EvalError α} {y : Except EvalError β} {f : α → γ} {g : β → δ}
    (h : Matches R x y) (hfg : ∀ a b, R a b → S (f a) (g b)) : Matches S (x.map f) (y.map g) := by
  cases h with
  | ok h => exact .ok (hfg _ _ h)
  | error cause => exact .error cause

theorem refl {R : α → α → Prop} (hR : ∀ a, R a a) (x : Except EvalError α) : Matches R x x := by
  cases x with
  | ok a => exact .ok (hR a)
  | error cause => exact .error cause

theorem ite {c : Prop} [Decidable c] {x x' : Except EvalError α} {y y' : Except EvalError β}
    (h : Matches R x y) (h' : Matches R x' y') :
    Matches R (if c then x else x') (if c then y else y') := by
  by_cases hc : c
  · rwa [if_pos hc, if_pos hc]
  · rwa [if_neg hc, if_neg hc]

end Matches

inductive Scalar.Related (R : Float → Float → Prop) : Scalar → Scalar → Prop
  | number {x y : Float} (h : R x y) : Scalar.Related R (.number x) (.number y)
  | boolean (b : Bool) : Scalar.Related R (.boolean b) (.boolean b)

/-- A relation of numbers that the operations of formulas respect. -/
structure Congruence (R : Float → Float → Prop) : Prop where
  zero : R 0.0 0.0
  beq {x x' y y' : Float} (hx : R x x') (hy : R y y') : (x == y) = (x' == y')
  arithmetic (op : Formula.Operator) {x x' y y' : Float} (hx : R x x') (hy : R y y') :
    Matches (Scalar.Related R) (arithmetic op x y) (arithmetic op x' y')
  neg {x x' : Float} (hx : R x x') : R (-x) (-x')
  abs {x x' : Float} (hx : R x x') : R x.abs x'.abs
  round {x x' : Float} (hx : R x x') : R (Binary64.roundHalfAway x) (Binary64.roundHalfAway x')
  lesser {x x' y y' : Float} (hx : R x x') (hy : R y y') :
    R (Binary64.lesser x y) (Binary64.lesser x' y')
  greater {x x' y y' : Float} (hx : R x x') (hy : R y y') :
    R (Binary64.greater x y) (Binary64.greater x' y')

section
variable {R : Float → Float → Prop}

theorem matches_numeric (operator : String) {v w : Scalar} (h : v.Related R w) :
    Matches R (numeric operator v) (numeric operator w) := by
  cases h with
  | number h => exact .ok h
  | boolean b => exact .error _

section
variable (hR : Congruence R)
include hR

theorem Congruence.isTruthy_eq {v w : Scalar} (h : v.Related R w) :
    v.isTruthy = w.isTruthy := by
  cases h with
  | number h => rw [Scalar.isTruthy, Scalar.isTruthy, hR.beq h hR.zero]
  | boolean b => rfl

theorem matches_same (operator : String) {v v' w w' : Scalar} (hv : v.Related R v')
    (hw : w.Related R w') : Matches (· = ·) (same operator v w) (same operator v' w') := by
  cases hv with
  | number hv =>
    cases hw with
    | number hw => exact .ok (hR.beq hv hw)
    | boolean b => exact .error _
  | boolean a =>
    cases hw with
    | number hw => exact .error _
    | boolean b => exact .ok rfl

end

/-! ### Calls -/

section
variable {s s' : Scope} {args : List Expr}
  (h : ∀ e ∈ args, Matches (Scalar.Related R) (e.evaluate s) (e.evaluate s'))
include h

theorem matches_only (f : Formula.Function) :
    Matches R (Expr.only s f args) (Expr.only s' f args) := by
  match args with
  | [] | _ :: _ :: _ => exact .error _
  | [e] => exact (h e List.mem_cons_self).bind fun v w hvw => matches_numeric _ hvw

theorem matches_reduceFrom (f : Formula.Function) {step : Float → Float → Float}
    (hstep : ∀ {x x' y y'}, R x x' → R y y' → R (step x y) (step x' y')) {x x' : Float}
    (hx : R x x') : Matches R (Expr.reduceFrom s f step x args) (Expr.reduceFrom s' f step x' args) := by
  induction args generalizing x x' with
  | nil => exact .ok hx
  | cons e es ih =>
    refine (h e List.mem_cons_self).bind fun v w hvw => ?_
    refine (matches_numeric _ hvw).bind fun y y' hy => ?_
    exact ih (fun e he => h e (List.mem_cons_of_mem _ he)) (hstep hx hy)

theorem matches_reduce (f : Formula.Function) {step : Float → Float → Float}
    (hstep : ∀ {x x' y y'}, R x x' → R y y' → R (step x y) (step x' y')) :
    Matches R (Expr.reduce s f step args) (Expr.reduce s' f step args) := by
  cases args with
  | nil => exact .error _
  | cons e es =>
    refine (h e List.mem_cons_self).bind fun v w hvw => ?_
    refine (matches_numeric _ hvw).bind fun x x' hx => ?_
    exact matches_reduceFrom (fun e he => h e (List.mem_cons_of_mem _ he)) f hstep hx

variable (hR : Congruence R)
include hR

theorem matches_choice :
    Matches (Scalar.Related R) (Expr.choice s args) (Expr.choice s' args) := by
  match args with
  | [] | [_] | [_, _] | _ :: _ :: _ :: _ :: _ => exact .error _
  | [c, yes, no] =>
    refine (h c (by simp)).bind fun v w hvw => ?_
    rw [hR.isTruthy_eq hvw]
    exact .ite (h yes (by simp)) (h no (by simp))

theorem matches_all : Matches (· = ·) (Expr.all s args) (Expr.all s' args) := by
  induction args with
  | nil => exact .ok rfl
  | cons e es ih =>
    have hes := ih fun e he => h e (List.mem_cons_of_mem _ he)
    refine (h e List.mem_cons_self).bind fun v w hvw => ?_
    rw [hR.isTruthy_eq hvw]
    exact .ite hes (.ok rfl)

theorem matches_any : Matches (· = ·) (Expr.any s args) (Expr.any s' args) := by
  induction args with
  | nil => exact .ok rfl
  | cons e es ih =>
    have hes := ih fun e he => h e (List.mem_cons_of_mem _ he)
    refine (h e List.mem_cons_self).bind fun v w hvw => ?_
    rw [hR.isTruthy_eq hvw]
    exact .ite (.ok rfl) hes

end

/-! ### Formulas -/

/-- What two scopes have for a field, and for its summaries, matches. Where a field holds no value,
formulas read 0. -/
structure ScopesMatch (R : Float → Float → Prop) (s s' : Scope) (id : FieldId) : Prop where
  field : Matches (fun v w => Scalar.Related R (v.getD (.number 0.0)) (w.getD (.number 0.0)))
    (s.field id) (s'.field id)
  summary (m : Formula.Summary) : Matches R (s.summary m id) (s'.summary m id)

/-- A formula whose numbers are related to themselves has matching results in scopes that match on
what it reads. -/
theorem matches_evaluate (hR : Congruence R) {s s' : Scope} {e : Expr}
    (hnumbers : ∀ x ∈ e.literals, R x x) (h : ∀ id ∈ e.reads, ScopesMatch R s s' id) :
    Matches (Scalar.Related R) (e.evaluate s) (e.evaluate s') := by
  induction e using Expr.induct with
  | number x => exact .ok (.number (hnumbers x (List.mem_singleton_self x)))
  | boolean b => exact .ok (.boolean b)
  | field id => exact (h id (List.mem_singleton_self id)).field.bind fun v w hvw => .ok hvw
  | summary m id =>
    exact ((h id (List.mem_singleton_self id)).summary m).bind fun x y hxy => .ok (.number hxy)
  | binary op l r ihl ihr =>
    have hl := ihl (fun x hx => hnumbers x (List.mem_append_left _ hx))
      fun id hid => h id (List.mem_append_left _ hid)
    have hr := ihr (fun x hx => hnumbers x (List.mem_append_right _ hx))
      fun id hid => h id (List.mem_append_right _ hid)
    have htruth {v w : Scalar} (hvw : v.Related R w) :
        Matches (Scalar.Related R) (.ok (.boolean v.isTruthy)) (.ok (.boolean w.isTruthy)) := by
      rw [hR.isTruthy_eq hvw]
      exact .ok (.boolean _)
    cases op with
    | or =>
      refine hl.bind fun v w hvw => ?_
      rw [hR.isTruthy_eq hvw]
      exact .ite (.ok (.boolean true)) (hr.bind fun v w hvw => htruth hvw)
    | and =>
      refine hl.bind fun v w hvw => ?_
      rw [hR.isTruthy_eq hvw]
      exact .ite (hr.bind fun v w hvw => htruth hvw) (.ok (.boolean false))
    | equal | notEqual =>
      refine hl.bind fun v w hvw => hr.bind fun v' w' hvw' => ?_
      refine (matches_same hR _ hvw hvw').bind fun a b hab => ?_
      subst hab
      exact .ok (.boolean _)
    | _ =>
      refine hl.bind fun v w hvw => (matches_numeric _ hvw).bind fun x x' hx => ?_
      refine hr.bind fun v w hvw => (matches_numeric _ hvw).bind fun y y' hy => ?_
      exact hR.arithmetic _ hx hy
  | negate e ih =>
    refine (ih hnumbers h).bind fun v w hvw => (matches_numeric _ hvw).bind fun x x' hx => ?_
    exact .ok (.number (hR.neg hx))
  | conditional c yes no ihc ihyes ihno =>
    have hc := ihc (fun x hx => hnumbers x (List.mem_append_left _ hx))
      fun id hid => h id (List.mem_append_left _ hid)
    have hyes := ihyes
      (fun x hx => hnumbers x (List.mem_append_right _ (List.mem_append_left _ hx)))
      fun id hid => h id (List.mem_append_right _ (List.mem_append_left _ hid))
    have hno := ihno
      (fun x hx => hnumbers x (List.mem_append_right _ (List.mem_append_right _ hx)))
      fun id hid => h id (List.mem_append_right _ (List.mem_append_right _ hid))
    refine hc.bind fun v w hvw => ?_
    rw [hR.isTruthy_eq hvw]
    exact .ite hyes hno
  | call f args ih =>
    have hargs : ∀ e ∈ args, Matches (Scalar.Related R) (e.evaluate s) (e.evaluate s') :=
      fun e he => ih e he (fun x hx => hnumbers x (Expr.mem_literalsAll.2 ⟨e, he, hx⟩))
        fun id hid => h id (Expr.mem_readsAll.2 ⟨e, he, hid⟩)
    cases f with
    | abs => exact (matches_only hargs _).bind fun x y hxy => .ok (.number (hR.abs hxy))
    | round => exact (matches_only hargs _).bind fun x y hxy => .ok (.number (hR.round hxy))
    | min => exact (matches_reduce hargs _ hR.lesser).bind fun x y hxy => .ok (.number hxy)
    | max => exact (matches_reduce hargs _ hR.greater).bind fun x y hxy => .ok (.number hxy)
    | choose => exact matches_choice hargs hR
    | and => exact (matches_all hargs hR).bind fun a b hab => hab ▸ .ok (.boolean a)
    | or => exact (matches_any hargs hR).bind fun a b hab => hab ▸ .ok (.boolean a)

end

end Crosstab.Evaluation
