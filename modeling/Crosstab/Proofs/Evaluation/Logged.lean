import Crosstab.Evaluation.Logged
import Crosstab.Proofs.Evaluation.Reads

/-!
# What the log of an evaluation says

Computations with a log obey the laws of steps in a row. The result of a formula with a log is its
result without, and it rests on nothing that is not in the log: over another scope, with the same
fields and summaries for the references in the log, it is the same. `StartsSome` says of a
computation over arguments that it evaluates some of them, from left to right, and nothing else.
-/

namespace Crosstab.Evaluation

open Formula (Expr)

namespace Logged
variable {α β : Type}

theorem bind_def (x : Logged α) (f : α → Logged β) : x >>= f = x.bind f := rfl

theorem result_noting (es : List Expr) (x : Logged α) : (x.noting es).result = x.result := rfl

instance : LawfulMonad Logged := LawfulMonad.mk' Logged
  (fun x => by
    obtain ⟨es, r⟩ := x
    cases r with
    | ok a => exact Logged.ext (List.append_nil es) rfl
    | error cause => rfl)
  (fun a f => rfl)
  (fun x f g => by
    obtain ⟨es, r⟩ := x
    cases r with
    | error cause => rfl
    | ok a =>
      simp only [bind_def, bind]
      cases (f a).result with
      | error cause => rfl
      | ok b => exact Logged.ext (List.append_assoc ..) rfl)

theorem started_map (f : α → β) (x : Logged α) : (f <$> x).started = x.started := by
  rw [← bind_pure_comp, bind_def, bind]
  cases x.result with
  | ok a => exact List.append_nil _
  | error cause => rfl

theorem noting_bind (es : List Expr) (x : Logged α) (f : α → Logged β) :
    x.noting es >>= f = (x >>= f).noting es := by
  rw [bind_def, bind_def, bind, bind, result_noting]
  cases x.result with
  | ok a => exact Logged.ext (List.append_assoc ..) rfl
  | error cause => rfl

theorem noting_map (es : List Expr) (x : Logged α) (f : α → β) :
    f <$> x.noting es = (f <$> x).noting es := by
  rw [← bind_pure_comp, noting_bind, bind_pure_comp]

theorem noting_noting (es es' : List Expr) (x : Logged α) :
    (x.noting es').noting es = x.noting (es ++ es') :=
  Logged.ext (List.append_assoc ..).symm rfl

end Logged

/-! ### What is logged is what matters -/

def Scope.AgreeOn (s s' : Scope) : Expr → Prop
  | .field id => s.field id = s'.field id
  | .summary m id => s.summary m id = s'.summary m id
  | _ => True

theorem Scope.agreeOn_self (s : Scope) (e : Expr) : s.AgreeOn s e := by
  cases e with
  | field | summary => rfl
  | _ => exact trivial

/-- A computation with a log over one scope has the result of one without a log over another scope,
if the two scopes agree on all that is started. -/
def Foretells {α : Type} (s s' : Scope) (x : Logged α) (y : Except EvalError α) : Prop :=
  (∀ e ∈ x.started, s.AgreeOn s' e) → x.result = y

namespace Foretells
variable {α β : Type} {s s' : Scope} {x : Logged α} {y : Except EvalError α}

theorem of (y : Except EvalError α) : Foretells s s' (.of y) y := fun _ => rfl

theorem bind {f : α → Logged β} {g : α → Except EvalError β} (h : Foretells s s' x y)
    (hfg : ∀ a, Foretells s s' (f a) (g a)) : Foretells s s' (x >>= f) (y >>= g) := by
  intro hagree
  rw [Logged.bind_def, Logged.bind] at hagree ⊢
  cases hx : x.result with
  | error cause =>
    rw [hx] at hagree
    rw [← h hagree, hx]
    rfl
  | ok a =>
    rw [hx] at hagree
    rw [← h fun e he => hagree e (List.mem_append_left _ he), hx]
    exact hfg a fun e he => hagree e (List.mem_append_right _ he)

theorem noting (es : List Expr) (h : Foretells s s' x y) : Foretells s s' (x.noting es) y :=
  fun hagree => h fun e he => hagree e (List.mem_append_right _ he)

theorem ite {c : Prop} [Decidable c] {x' : Logged α} {y' : Except EvalError α}
    (h : Foretells s s' x y) (h' : Foretells s s' x' y') :
    Foretells s s' (if c then x else x') (if c then y else y') := by
  by_cases hc : c
  · rwa [if_pos hc, if_pos hc]
  · rwa [if_neg hc, if_neg hc]

end Foretells

section
variable {s s' : Scope} {args : List Expr}
  (h : ∀ e ∈ args, Foretells s s' (e.logged s) (e.evaluate s'))
include h

theorem foretells_loggedOnly (f : Formula.Function) :
    Foretells s s' (Expr.loggedOnly s f args) (Expr.only s' f args) := by
  match args with
  | [] | _ :: _ :: _ => exact .of _
  | [e] => exact (h e List.mem_cons_self).bind fun a => .of _

theorem foretells_loggedReduceFrom (f : Formula.Function) (step : Float → Float → Float)
    (x : Float) :
    Foretells s s' (Expr.loggedReduceFrom s f step x args) (Expr.reduceFrom s' f step x args) := by
  induction args generalizing x with
  | nil => exact .of _
  | cons e es ih =>
    refine (h e List.mem_cons_self).bind fun a => .bind (.of _) fun y => ?_
    exact ih (fun e he => h e (List.mem_cons_of_mem _ he)) _

theorem foretells_loggedReduce (f : Formula.Function) (step : Float → Float → Float) :
    Foretells s s' (Expr.loggedReduce s f step args) (Expr.reduce s' f step args) := by
  cases args with
  | nil => exact .of _
  | cons e es =>
    refine (h e List.mem_cons_self).bind fun a => .bind (.of _) fun x => ?_
    exact foretells_loggedReduceFrom (fun e he => h e (List.mem_cons_of_mem _ he)) f step x

theorem foretells_loggedChoice :
    Foretells s s' (Expr.loggedChoice s args) (Expr.choice s' args) := by
  match args with
  | [] | [_] | [_, _] | _ :: _ :: _ :: _ :: _ => exact .of _
  | [c, yes, no] => exact (h c (by simp)).bind fun a => .ite (h yes (by simp)) (h no (by simp))

theorem foretells_loggedAll : Foretells s s' (Expr.loggedAll s args) (Expr.all s' args) := by
  induction args with
  | nil => exact .of _
  | cons e es ih =>
    have hes := ih fun e he => h e (List.mem_cons_of_mem _ he)
    exact (h e List.mem_cons_self).bind fun a => .ite hes (.of _)

theorem foretells_loggedAny : Foretells s s' (Expr.loggedAny s args) (Expr.any s' args) := by
  induction args with
  | nil => exact .of _
  | cons e es ih =>
    have hes := ih fun e he => h e (List.mem_cons_of_mem _ he)
    exact (h e List.mem_cons_self).bind fun a => .ite (.of _) hes

end

theorem foretells_logged (s s' : Scope) (e : Expr) :
    Foretells s s' (e.logged s) (e.evaluate s') := by
  induction e using Expr.induct with
  | number x | boolean b => exact .noting _ (.of _)
  | field id =>
    intro hagree
    have hsame : s.field id = s'.field id := hagree _ List.mem_cons_self
    rw [Expr.logged, Expr.evaluate, hsame]
    exact Foretells.bind (.of _) (fun v => .of _) fun e _ => s.agreeOn_self e
  | summary m id =>
    intro hagree
    have hsame : s.summary m id = s'.summary m id := hagree _ List.mem_cons_self
    rw [Expr.logged, Expr.evaluate, hsame]
    exact Foretells.bind (.of _) (fun v => .of _) fun e _ => s.agreeOn_self e
  | binary op l r ihl ihr =>
    cases op with
    | and => exact .noting _ (ihl.bind fun a => .ite (ihr.bind fun b => .of _) (.of _))
    | or => exact .noting _ (ihl.bind fun a => .ite (.of _) (ihr.bind fun b => .of _))
    | equal | notEqual =>
      exact .noting _ (ihl.bind fun a => ihr.bind fun b => .bind (.of _) fun c => .of _)
    | _ =>
      refine .noting _ (ihl.bind fun a => .bind (.of _) fun x => ?_)
      exact ihr.bind fun b => .bind (.of _) fun y => .of _
  | negate e ih => exact .noting _ (ih.bind fun a => .bind (.of _) fun x => .of _)
  | conditional c yes no ihc ihyes ihno =>
    exact .noting _ (ihc.bind fun a => .ite ihyes ihno)
  | call f args ih =>
    cases f with
    | abs | round => exact .noting _ ((foretells_loggedOnly ih _).bind fun x => .of _)
    | min | max => exact .noting _ ((foretells_loggedReduce ih _ _).bind fun x => .of _)
    | choose => exact .noting _ (foretells_loggedChoice ih)
    | and => exact .noting _ ((foretells_loggedAll ih).bind fun b => .of _)
    | or => exact .noting _ ((foretells_loggedAny ih).bind fun b => .of _)

/-- The log does not change what a formula yields. -/
theorem result_logged (s : Scope) (e : Expr) : (e.logged s).result = e.evaluate s :=
  foretells_logged s s e fun e' _ => s.agreeOn_self e'

/-- A formula yields the same in all scopes that agree on what is started in one of them. -/
theorem evaluate_eq_of_started {s s' : Scope} {e : Expr}
    (h : ∀ e' ∈ e.started s, s.AgreeOn s' e') : e.evaluate s = e.evaluate s' :=
  (result_logged s e).symm.trans (foretells_logged s s' e h)

/-! ### What is evaluated of some arguments -/

/-- A computation that evaluates some of the arguments, from left to right, and nothing else. -/
def StartsSome {α : Type} (s : Scope) (args : List Expr) (x : Logged α) : Prop :=
  ∃ evaluated : List Expr,
    evaluated.Sublist args ∧ x.started = evaluated.flatMap (Expr.started s)

namespace StartsSome
variable {α β : Type} {s : Scope} {args : List Expr}

theorem of (args : List Expr) (x : Except EvalError α) : StartsSome s args (.of x) :=
  ⟨[], args.nil_sublist, rfl⟩

theorem logged {e : Expr} (he : e ∈ args) : StartsSome s args (e.logged s) :=
  ⟨[e], List.singleton_sublist.2 he, (List.flatMap_singleton ..).symm⟩

/-- After an argument come the ones behind it. -/
theorem logged_bind (e : Expr) {f : Scalar → Logged α} (h : ∀ a, StartsSome s args (f a)) :
    StartsSome s (e :: args) (e.logged s >>= f) := by
  rw [Logged.bind_def, Logged.bind]
  cases (e.logged s).result with
  | error cause => exact logged List.mem_cons_self
  | ok a =>
    obtain ⟨evaluated, hsub, hstarted⟩ := h a
    exact ⟨e :: evaluated, hsub.cons_cons e, congrArg (e.started s ++ ·) hstarted⟩

theorem of_bind (x : Except EvalError α) {f : α → Logged β} (h : ∀ a, StartsSome s args (f a)) :
    StartsSome s args (.of x >>= f) := by
  cases x with
  | error cause => exact of args _
  | ok a => exact h a

theorem map {x : Logged α} (h : StartsSome s args x) (f : α → β) :
    StartsSome s args (f <$> x) := by
  obtain ⟨evaluated, hsub, hstarted⟩ := h
  exact ⟨evaluated, hsub, (Logged.started_map f x).trans hstarted⟩

end StartsSome

end Crosstab.Evaluation
