import Crosstab.Proofs.Evaluation.Logged

/-!
# Calls over a list and nested forms

A call of a connective has a chain of binary joints as its nested form; a call for the least or
greatest number has the call for its last argument and a call for the others; and a call of a choice
has the conditional. A call and its nested form yield the same and evaluate the same arguments in
the same order: their logs start with the call and with the joints, and agree from there on.

A connective stops at the truth value that decides it, `false` for a conjunction and `true` for a
disjunction. To connect two answers in this way is associative, and the other truth value is neutral
on the right, so a chain from the left is the same as a pass over the list.
-/

namespace Crosstab.Evaluation

open Formula (Expr Operator Function)

namespace Logged

/-- One answer and, unless it is the decisive one, another one after it. -/
def connect (decisive : Bool) (x y : Logged Bool) : Logged Bool := do
  let b ← x
  if b = decisive then return decisive else y

variable {decisive : Bool}

theorem connect_assoc (x y z : Logged Bool) :
    connect decisive (connect decisive x y) z = connect decisive x (connect decisive y z) := by
  simp only [connect, bind_assoc]
  congr 1
  funext b
  by_cases hb : b = decisive <;> simp [hb]

theorem connect_neutral (x : Logged Bool) : connect decisive x (pure !decisive) = x := by
  have hanswer (b : Bool) :
      (if b = decisive then pure decisive else pure !decisive : Logged Bool) = pure b := by
    by_cases hb : b = decisive
    · rw [if_pos hb, hb]
    · rw [if_neg hb, Bool.eq_not_of_ne hb]
  simp only [connect, hanswer, bind_pure]

theorem noting_connect (es : List Expr) (x y : Logged Bool) :
    connect decisive (x.noting es) y = (connect decisive x y).noting es :=
  noting_bind es x _

end Logged

open Logged

/-! ### What is compared -/

/-- The inner nodes of a chain that starts with a formula, from the last joint to the first. -/
def joints (op : Operator) (e : Expr) : List Expr → List Expr
  | [] => []
  | r :: rest => joints op (.binary op e r) rest ++ [.binary op e r]

/-- A call and a nested formula with the same arguments, which yield the same and evaluate the same
arguments in the same order. Ahead of them the one starts itself and the other its joints. -/
structure AlikeOver (s : Scope) (args : List Expr) (call nested : Expr) (joints : List Expr) :
    Prop where
  result : call.evaluate s = nested.evaluate s
  arguments : ∃ evaluated : List Expr, evaluated.Sublist args ∧
    call.started s = call :: evaluated.flatMap (Expr.started s) ∧
    nested.started s = joints ++ evaluated.flatMap (Expr.started s)

/-- Two formulas are alike that do the same once they have started. -/
theorem alikeOver_of_logged {s : Scope} {args : List Expr} {call nested : Expr}
    {joints : List Expr} {body : Logged Scalar} (hbody : StartsSome s args body)
    (hcall : call.logged s = body.noting [call]) (hnested : nested.logged s = body.noting joints) :
    AlikeOver s args call nested joints := by
  obtain ⟨evaluated, hsub, hstarted⟩ := hbody
  constructor
  · rw [← result_logged, ← result_logged, hcall, hnested, result_noting, result_noting]
  · refine ⟨evaluated, hsub, ?_, ?_⟩
    · rw [Expr.started, hcall, noting, hstarted, List.singleton_append]
    · rw [Expr.started, hnested, noting, hstarted]

variable (s : Scope)

/-! ### Connectives -/

def holds (e : Expr) : Logged Bool := Scalar.isTruthy <$> e.logged s

def upTo (decisive : Bool) : List Expr → Logged Bool
  | [] => pure !decisive
  | e :: es => connect decisive (holds s e) (upTo decisive es)

structure Connects (op : Operator) (f : Function) (decisive : Bool) : Prop where
  operator : ∀ l r, (Expr.binary op l r).logged s =
    noting [.binary op l r] (.boolean <$> connect decisive (holds s l) (holds s r))
  call : ∀ args, (Expr.call f args).logged s =
    noting [.call f args] (.boolean <$> upTo s decisive args)

theorem loggedAll_eq (args : List Expr) : Expr.loggedAll s args = upTo s false args := by
  induction args with
  | nil => rfl
  | cons e es ih =>
    simp only [Expr.loggedAll, upTo, connect, holds, bind_map_left, ih]
    congr 1
    funext a
    cases a.isTruthy <;> rfl

theorem loggedAny_eq (args : List Expr) : Expr.loggedAny s args = upTo s true args := by
  induction args with
  | nil => rfl
  | cons e es ih =>
    simp only [Expr.loggedAny, upTo, connect, holds, bind_map_left, ih]

theorem connects_and : Connects s .and .and false where
  operator l r := by
    simp only [Expr.logged, connect, holds, map_bind, bind_map_left]
    congr 2
    funext a
    cases a.isTruthy <;> simp
  call args := by simp only [Expr.logged, loggedAll_eq, bind_pure_comp]

theorem connects_or : Connects s .or .or true where
  operator l r := by
    simp only [Expr.logged, connect, holds, map_bind, bind_map_left]
    congr 2
    funext a
    cases a.isTruthy <;> simp
  call args := by simp only [Expr.logged, loggedAny_eq, bind_pure_comp]

theorem startsSome_upTo (decisive : Bool) (args : List Expr) :
    StartsSome s args (upTo s decisive args) := by
  induction args with
  | nil => exact .of _ _
  | cons e es ih =>
    rw [upTo, connect, holds, bind_map_left]
    refine .logged_bind e fun a => ?_
    by_cases ha : a.isTruthy = decisive
    · rw [if_pos ha]
      exact .of _ _
    · rwa [if_neg ha]

section
variable {s} {op : Operator} {f : Function} {decisive : Bool} (h : Connects s op f decisive)
include h

/-- A chain that starts with an answer is the answers up to the decisive one. -/
theorem Connects.logged_foldl {e : Expr} {es : List Expr} {x : Logged Bool}
    (he : e.logged s = noting es (.boolean <$> x)) (rest : List Expr) :
    (rest.foldl (Expr.binary op) e).logged s =
      noting (joints op e rest ++ es) (.boolean <$> connect decisive x (upTo s decisive rest)) := by
  induction rest generalizing e es x with
  | nil => rw [upTo, connect_neutral]; exact he
  | cons r rest ih =>
    have hholds : holds s e = x.noting es := by
      rw [holds, he, noting_map, Functor.map_map]
      exact congrArg _ (id_map x)
    have hjoint : (Expr.binary op e r).logged s =
        noting (.binary op e r :: es) (.boolean <$> connect decisive x (holds s r)) := by
      rw [h.operator, hholds, noting_connect, noting_map, noting_noting, List.singleton_append]
    rw [List.foldl_cons, ih hjoint, joints, upTo, connect_assoc, List.append_assoc,
      List.singleton_append]

theorem Connects.alikeOver (a b : Expr) (rest : List Expr) :
    AlikeOver s (a :: b :: rest) (.call f (a :: b :: rest))
      ((b :: rest).foldl (Expr.binary op) a) (joints op a (b :: rest)) := by
  refine alikeOver_of_logged ((startsSome_upTo s decisive _).map _) (h.call _) ?_
  rw [List.foldl_cons, h.logged_foldl (h.operator a b), connect_assoc]
  rfl

end

/-! ### Least and greatest numbers -/

theorem logged_min (args : List Expr) : (Expr.call .min args).logged s =
    noting [.call .min args] (.number <$> Expr.loggedReduce s .min Binary64.lesser args) := by
  simp only [Expr.logged, bind_pure_comp]

theorem logged_max (args : List Expr) : (Expr.call .max args).logged s =
    noting [.call .max args] (.number <$> Expr.loggedReduce s .max Binary64.greater args) := by
  simp only [Expr.logged, bind_pure_comp]

section
variable (f : Function) (step : Float → Float → Float)

theorem loggedReduceFrom_append (x : Float) (es es' : List Expr) :
    Expr.loggedReduceFrom s f step x (es ++ es') =
      Expr.loggedReduceFrom s f step x es >>= fun y => Expr.loggedReduceFrom s f step y es' := by
  induction es generalizing x with
  | nil => rfl
  | cons e es ih => simp only [List.cons_append, Expr.loggedReduceFrom, ih, bind_assoc]

theorem loggedReduce_append (e : Expr) (es es' : List Expr) :
    Expr.loggedReduce s f step (e :: es ++ es') =
      Expr.loggedReduce s f step (e :: es) >>= fun y => Expr.loggedReduceFrom s f step y es' := by
  simp only [List.cons_append, Expr.loggedReduce, loggedReduceFrom_append, bind_assoc]

theorem startsSome_loggedReduceFrom (x : Float) (args : List Expr) :
    StartsSome s args (Expr.loggedReduceFrom s f step x args) := by
  induction args generalizing x with
  | nil => exact .of _ _
  | cons e es ih => exact .logged_bind e fun a => .of_bind _ fun y => ih _

theorem startsSome_loggedReduce (args : List Expr) :
    StartsSome s args (Expr.loggedReduce s f step args) := by
  cases args with
  | nil => exact .of _ _
  | cons e es =>
    exact .logged_bind e fun a => .of_bind _ fun x => startsSome_loggedReduceFrom s f step x es

variable {s f step} (hcall : ∀ args, (Expr.call f args).logged s =
  noting [.call f args] (.number <$> Expr.loggedReduce s f step args))
include hcall

theorem alikeOver_reduce (a : Expr) (init : List Expr) (last : Expr) :
    AlikeOver s (a :: init ++ [last]) (.call f (a :: init ++ [last]))
      (.call f [.call f (a :: init), last])
      [.call f [.call f (a :: init), last], .call f (a :: init)] := by
  refine alikeOver_of_logged ((startsSome_loggedReduce s f step _).map _) (hcall _) ?_
  have hinner : Expr.loggedReduce s f step [.call f (a :: init), last] =
      (Expr.loggedReduce s f step (a :: init ++ [last])).noting [.call f (a :: init)] := by
    rw [loggedReduce_append, Expr.loggedReduce, hcall, noting_bind, bind_map_left]
    rfl
  rw [hcall, hinner, noting_map, noting_noting]
  rfl

end

theorem alikeOver_choice (c yes no : Expr) :
    AlikeOver s [c, yes, no] (.call .choose [c, yes, no]) (.conditional c yes no)
      [.conditional c yes no] := by
  have hbody : StartsSome s [c, yes, no] (Expr.loggedChoice s [c, yes, no]) := by
    refine .logged_bind c fun a => ?_
    cases a.isTruthy with
    | true => exact .logged List.mem_cons_self
    | false => exact .logged (List.mem_cons_of_mem _ List.mem_cons_self)
  exact alikeOver_of_logged hbody rfl rfl

/-- A call is the same as its nested form, in every scope, which is what a context says at a depth:
a connective of two or more arguments and the chain of its operator from the left, a least or
greatest number and that of the last argument and of a call for the others, and a choice of three
parts and the conditional. They yield the same, value or error, and evaluate the same arguments in
the same order. -/
theorem calls_alike_nested :
    (∀ a b rest, AlikeOver s (a :: b :: rest) (.call .and (a :: b :: rest))
      ((b :: rest).foldl (.binary .and) a) (joints .and a (b :: rest))) ∧
    (∀ a b rest, AlikeOver s (a :: b :: rest) (.call .or (a :: b :: rest))
      ((b :: rest).foldl (.binary .or) a) (joints .or a (b :: rest))) ∧
    (∀ a init last, AlikeOver s (a :: init ++ [last]) (.call .min (a :: init ++ [last]))
      (.call .min [.call .min (a :: init), last])
      [.call .min [.call .min (a :: init), last], .call .min (a :: init)]) ∧
    (∀ a init last, AlikeOver s (a :: init ++ [last]) (.call .max (a :: init ++ [last]))
      (.call .max [.call .max (a :: init), last])
      [.call .max [.call .max (a :: init), last], .call .max (a :: init)]) ∧
    ∀ c yes no, AlikeOver s [c, yes, no] (.call .choose [c, yes, no]) (.conditional c yes no)
      [.conditional c yes no] := by
  exact ⟨(connects_and s).alikeOver, (connects_or s).alikeOver, alikeOver_reduce (logged_min s),
    alikeOver_reduce (logged_max s), alikeOver_choice s⟩

end Crosstab.Evaluation
