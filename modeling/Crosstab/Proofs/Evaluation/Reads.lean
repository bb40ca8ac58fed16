import Mathlib.Data.List.Forall2
import Crosstab.Evaluation.Evaluator

/-!
# What a formula reads

A formula takes one step after the other, so a relation of results that steps in a row keep is kept
by formulas: in two scopes that have related results for the fields it reads, a formula has related
results. With equality as the relation this says that only these fields matter. On one scope it says
that an error of a formula comes from one of these fields, from an operation of its own, or from a
call with a number of arguments that its function does not take.
-/

namespace Crosstab.Formula.Expr

open Evaluation

theorem induct {P : Expr → Prop} (number : ∀ x, P (.number x)) (boolean : ∀ b, P (.boolean b))
    (field : ∀ id, P (.field id)) (summary : ∀ m id, P (.summary m id))
    (binary : ∀ op l r, P l → P r → P (.binary op l r)) (negate : ∀ e, P e → P (.negate e))
    (conditional : ∀ c yes no, P c → P yes → P no → P (.conditional c yes no))
    (call : ∀ f args, (∀ e ∈ args, P e) → P (.call f args)) : ∀ e, P e
  | .number x => number x
  | .boolean b => boolean b
  | .field id => field id
  | .summary m id => summary m id
  | .binary op l r =>
    binary op l r (induct number boolean field summary binary negate conditional call l)
      (induct number boolean field summary binary negate conditional call r)
  | .negate e =>
    negate e (induct number boolean field summary binary negate conditional call e)
  | .conditional c yes no =>
    conditional c yes no (induct number boolean field summary binary negate conditional call c)
      (induct number boolean field summary binary negate conditional call yes)
      (induct number boolean field summary binary negate conditional call no)
  | .call f args =>
    call f args fun e _ => induct number boolean field summary binary negate conditional call e

theorem mem_readsAll {id : FieldId} {es : List Expr} :
    id ∈ readsAll es ↔ ∃ e ∈ es, id ∈ e.reads := by
  induction es with
  | nil => simp [readsAll]
  | cons e es ih => simp [readsAll, ih]

mutual

def calls : Expr → List (Function × List Expr)
  | number _ | boolean _ | field _ | summary _ _ => []
  | binary _ l r => l.calls ++ r.calls
  | negate e => e.calls
  | conditional c y n => c.calls ++ (y.calls ++ n.calls)
  | call f args => (f, args) :: callsAll args

def callsAll : List Expr → List (Function × List Expr)
  | [] => []
  | e :: es => e.calls ++ callsAll es

end

theorem mem_callsAll {x : Function × List Expr} {es : List Expr} :
    x ∈ callsAll es ↔ ∃ e ∈ es, x ∈ e.calls := by
  induction es with
  | nil => simp [callsAll]
  | cons e es ih => simp [callsAll, ih]

end Crosstab.Formula.Expr

namespace Crosstab.Evaluation

open Formula (Expr)

/-! ### Errors -/

def Raises {α : Type} (P : EvalError → Prop) (x : Except EvalError α) : Prop :=
  ∀ cause, x = .error cause → P cause

namespace Raises
variable {α β : Type} {P : EvalError → Prop}

theorem ok (a : α) : Raises P (.ok a) := nofun

theorem error {cause : EvalError} (h : P cause) : Raises (α := α) P (.error cause) := by
  rintro _ ⟨⟩
  exact h

theorem bind {x : Except EvalError α} {f : α → Except EvalError β} (hx : Raises P x)
    (hf : ∀ a, Raises P (f a)) : Raises P (x >>= f) := by
  cases x with
  | error cause => exact error (hx cause rfl)
  | ok a => exact hf a

theorem ite {c : Prop} [Decidable c] {x y : Except EvalError α} (hx : Raises P x)
    (hy : Raises P y) : Raises P (if c then x else y) := by
  by_cases h : c
  · rwa [if_pos h]
  · rwa [if_neg h]

theorem map {x : Except EvalError α} (hx : Raises P x) (f : α → β) : Raises P (x.map f) := by
  cases x with
  | error cause => exact error (hx cause rfl)
  | ok a => exact ok _

end Raises

/-- A cause that lies with an operation and not with a field. -/
def OfOperation : EvalError → Prop
  | .divisionByZero | .typeMismatch _ .truthValue | .typeMismatch _ (.unlike _ _)
  | .nonFinite _ => True
  | _ => False

section
variable {P : EvalError → Prop} (hown : ∀ cause, OfOperation cause → P cause)
include hown

theorem raises_numeric (operator : String) (v : Scalar) : Raises P (numeric operator v) := by
  cases v with
  | number x => exact .ok x
  | boolean b => exact .error (hown _ trivial)

theorem raises_finite (operator : String) (x : Float) : Raises P (finite operator x) :=
  .ite (.ok _) (.error (hown _ trivial))

theorem raises_same (operator : String) (l r : Scalar) : Raises P (same operator l r) := by
  cases l with
  | number x =>
    cases r with
    | number y => exact .ok _
    | boolean b => exact .error (hown _ trivial)
  | boolean a =>
    cases r with
    | number y => exact .error (hown _ trivial)
    | boolean b => exact .ok _

theorem raises_arithmetic (op : Formula.Operator) (x y : Float) :
    Raises P (arithmetic op x y) := by
  cases op with
  | less | greater | lessEqual | greaterEqual => exact .ok _
  | divide | modulo => exact .ite (.error (hown _ trivial)) (raises_finite hown _ _)
  | _ => exact raises_finite hown _ _

end

/-! ### Steps in a row -/

/-- A relation that holds of a value and itself, of an error of the given kind and itself, and of
two results in a row when it holds of each. Operations have errors of this kind. -/
structure Stepwise (P : EvalError → Prop)
    (R : ∀ {α : Type}, Except EvalError α → Except EvalError α → Prop) : Prop where
  ok {α : Type} (a : α) : R (.ok a) (.ok a)
  error {α : Type} {cause : EvalError} (h : P cause) : R (α := α) (.error cause) (.error cause)
  bind {α β : Type} {x y : Except EvalError α} {f g : α → Except EvalError β} (h : R x y)
    (hfg : ∀ a, R (f a) (g a)) : R (x >>= f) (y >>= g)
  own (cause : EvalError) (h : OfOperation cause) : P cause

theorem stepwise_eq : Stepwise (fun _ => True) Eq where
  ok _ := rfl
  error _ := rfl
  bind h hfg := h ▸ bind_congr hfg
  own _ _ := trivial

theorem stepwise_raises {P : EvalError → Prop} (hown : ∀ cause, OfOperation cause → P cause) :
    Stepwise P fun x _ => Raises P x where
  ok := Raises.ok
  error := Raises.error
  bind := Raises.bind
  own := hown

/-- A cause that comes up where a formula calls a function with a number of arguments that it does not
take is of one kind. -/
def CallsRaise (P : EvalError → Prop) (e : Expr) : Prop :=
  ∀ f args, (f, args) ∈ e.calls → f.arity.accepts args.length = false →
    P (wrongArguments f args.length)

theorem CallsRaise.of_forall {P : EvalError → Prop} (h : ∀ f count, P (wrongArguments f count))
    (e : Expr) : CallsRaise P e :=
  fun f args _ _ => h f args.length

theorem callsRaise_true (e : Expr) : CallsRaise (fun _ => True) e :=
  .of_forall (fun _ _ => trivial) e

theorem CallsRaise.part {P : EvalError → Prop} {e e' : Expr} (h : CallsRaise P e)
    (hsub : e'.calls ⊆ e.calls) : CallsRaise P e' :=
  fun f args hmem => h f args (hsub hmem)

structure AgreeUpTo (R : ∀ {α : Type}, Except EvalError α → Except EvalError α → Prop)
    (s s' : Scope) (id : FieldId) : Prop where
  field : R (s.field id) (s'.field id)
  summary (m : Formula.Summary) : R (s.summary m id) (s'.summary m id)

section
variable {P : EvalError → Prop}
  {R : ∀ {α : Type}, Except EvalError α → Except EvalError α → Prop} (hR : Stepwise P R)
include hR

namespace Stepwise

theorem self {α : Type} {x : Except EvalError α} (hx : Raises P x) : R x x := by
  cases x with
  | error cause => exact hR.error (hx cause rfl)
  | ok a => exact hR.ok a

theorem bind_of_ok {α β : Type} {x : Except EvalError α} {f g : α → Except EvalError β}
    (hx : Raises P x) (hfg : ∀ a, x = .ok a → R (f a) (g a)) : R (x >>= f) (x >>= g) := by
  cases x with
  | error cause => exact hR.error (hx cause rfl)
  | ok a => exact hfg a rfl

theorem map {α β : Type} {x y : Except EvalError α} (h : R x y) (f : α → β) :
    R (x.map f) (y.map f) :=
  hR.bind h fun a => hR.ok (f a)

omit hR in
theorem ite {α : Type} {c : Prop} [Decidable c] {x x' y y' : Except EvalError α}
    (h : R x y) (h' : R x' y') : R (if c then x else x') (if c then y else y') := by
  by_cases hc : c
  · rwa [if_pos hc, if_pos hc]
  · rwa [if_neg hc, if_neg hc]

theorem numeric (operator : String) (v : Scalar) : R (numeric operator v) (numeric operator v) :=
  hR.self (raises_numeric hR.own operator v)

end Stepwise

section
variable {s s' : Scope} {args args' : List Expr}
  (h : List.Forall₂ (fun e e' => R (e.evaluate s) (e'.evaluate s')) args args')
include h

theorem related_only (f : Formula.Function)
    (hcount : args.length ≠ 1 → P (wrongArguments f args.length)) :
    R (Expr.only s f args) (Expr.only s' f args') := by
  rcases h with _ | ⟨he, _ | ⟨he', hes⟩⟩
  · exact hR.error (hcount nofun)
  · exact hR.bind he fun v => hR.numeric _ v
  · simp only [Expr.only, List.length_cons, ← hes.length_eq]
    exact hR.error (hcount (by simp))

theorem related_choice (hcount : args.length ≠ 3 → P (wrongArguments .choose args.length)) :
    R (Expr.choice s args) (Expr.choice s' args') := by
  rcases h with _ | ⟨hc, _ | ⟨hyes, _ | ⟨hno, _ | ⟨he, hes⟩⟩⟩⟩
  · exact hR.error (hcount nofun)
  · exact hR.error (hcount nofun)
  · exact hR.error (hcount nofun)
  · exact hR.bind hc fun v => Stepwise.ite hyes hno
  · simp only [Expr.choice, List.length_cons, ← hes.length_eq]
    exact hR.error (hcount (by simp))

theorem related_reduceFrom (f : Formula.Function) (step : Float → Float → Float) (x : Float) :
    R (Expr.reduceFrom s f step x args) (Expr.reduceFrom s' f step x args') := by
  induction h generalizing x with
  | nil => exact hR.ok x
  | cons he _ ih => exact hR.bind he fun v => hR.bind (hR.numeric _ v) fun y => ih _

theorem related_reduce (f : Formula.Function) (step : Float → Float → Float)
    (hcount : args.length = 0 → P (wrongArguments f args.length)) :
    R (Expr.reduce s f step args) (Expr.reduce s' f step args') := by
  cases h with
  | nil => exact hR.error (hcount rfl)
  | cons he hes =>
    refine hR.bind he fun v => hR.bind (hR.numeric _ v) fun x => ?_
    exact related_reduceFrom hR hes f step x

theorem related_all : R (Expr.all s args) (Expr.all s' args') := by
  induction h with
  | nil => exact hR.ok true
  | cons he _ ih => exact hR.bind he fun v => Stepwise.ite ih (hR.ok false)

theorem related_any : R (Expr.any s args) (Expr.any s' args') := by
  induction h with
  | nil => exact hR.ok false
  | cons he _ ih => exact hR.bind he fun v => Stepwise.ite (hR.ok true) ih

end

theorem related_evaluate_of_calls {s s' : Scope} {e : Expr} (hcalls : CallsRaise P e)
    (h : ∀ id ∈ e.reads, AgreeUpTo R s s' id) : R (e.evaluate s) (e.evaluate s') := by
  induction e using Expr.induct with
  | number x => exact hR.ok _
  | boolean b => exact hR.ok _
  | field id => exact hR.bind (h id (List.mem_singleton_self id)).field fun v => hR.ok _
  | summary m id =>
    exact hR.bind ((h id (List.mem_singleton_self id)).summary m) fun x => hR.ok _
  | binary op l r ihl ihr =>
    have hl := ihl (hcalls.part fun _ => List.mem_append_left _)
      fun id hid => h id (List.mem_append_left _ hid)
    have hr := ihr (hcalls.part fun _ => List.mem_append_right _)
      fun id hid => h id (List.mem_append_right _ hid)
    cases op with
    | or => exact hR.bind hl fun a => Stepwise.ite (hR.ok _) (hR.bind hr fun b => hR.ok _)
    | and => exact hR.bind hl fun a => Stepwise.ite (hR.bind hr fun b => hR.ok _) (hR.ok _)
    | equal | notEqual =>
      refine hR.bind hl fun a => hR.bind hr fun b => ?_
      exact hR.bind (hR.self (raises_same hR.own _ a b)) fun c => hR.ok _
    | _ =>
      refine hR.bind hl fun a => hR.bind (hR.numeric _ a) fun x => ?_
      refine hR.bind hr fun b => hR.bind (hR.numeric _ b) fun y => ?_
      exact hR.self (raises_arithmetic hR.own _ x y)
  | negate e ih => exact hR.bind (ih hcalls h) fun a => hR.bind (hR.numeric _ a) fun x => hR.ok _
  | conditional c yes no ihc ihyes ihno =>
    have hc := ihc (hcalls.part fun _ => List.mem_append_left _)
      fun id hid => h id (List.mem_append_left _ hid)
    have hyes := ihyes
      (hcalls.part fun _ hmem => List.mem_append_right _ (List.mem_append_left _ hmem))
      fun id hid => h id (List.mem_append_right _ (List.mem_append_left _ hid))
    have hno := ihno
      (hcalls.part fun _ hmem => List.mem_append_right _ (List.mem_append_right _ hmem))
      fun id hid => h id (List.mem_append_right _ (List.mem_append_right _ hid))
    exact hR.bind hc fun a => Stepwise.ite hyes hno
  | call f args ih =>
    have hargs : List.Forall₂ (fun e e' => R (e.evaluate s) (e'.evaluate s')) args args :=
      List.forall₂_same.2 fun e he =>
        ih e he (hcalls.part fun _ hmem =>
            List.mem_cons_of_mem _ (Expr.mem_callsAll.2 ⟨e, he, hmem⟩))
          fun id hid => h id (Expr.mem_readsAll.2 ⟨e, he, hid⟩)
    have hcount := hcalls f args List.mem_cons_self
    cases f with
    | abs | round =>
      have honly := related_only hR hargs _ fun hne => hcount (decide_eq_false hne)
      exact hR.bind honly fun x => hR.ok _
    | min | max =>
      have hreduce (step : Float → Float → Float) :=
        related_reduce hR hargs _ step fun hzero =>
          hcount (hzero ▸ Formula.Function.not_accepts_zero _)
      exact hR.bind (hreduce _) fun x => hR.ok _
    | choose => exact related_choice hR hargs fun hne => hcount (decide_eq_false hne)
    | and => exact hR.bind (related_all hR hargs) fun b => hR.ok _
    | or => exact hR.bind (related_any hR hargs) fun b => hR.ok _

end

theorem related_evaluate {R : ∀ {α : Type}, Except EvalError α → Except EvalError α → Prop}
    (hR : Stepwise (fun _ => True) R) {s s' : Scope} {e : Expr}
    (h : ∀ id ∈ e.reads, AgreeUpTo R s s' id) : R (e.evaluate s) (e.evaluate s') :=
  related_evaluate_of_calls hR (callsRaise_true e) h

structure FieldRaises (P : EvalError → Prop) (s : Scope) (id : FieldId) : Prop where
  field : Raises P (s.field id)
  summary (m : Formula.Summary) : Raises P (s.summary m id)

theorem fieldRaises_iff {P : EvalError → Prop} {s : Scope} {id : FieldId} :
    FieldRaises P s id ↔ AgreeUpTo (fun x _ => Raises P x) s s id :=
  ⟨fun h => ⟨h.field, h.summary⟩, fun h => ⟨h.field, h.summary⟩⟩

end Crosstab.Evaluation
