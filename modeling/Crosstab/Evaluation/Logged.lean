import Crosstab.Evaluation.Evaluator

/-!
# Evaluation with a log

`Expr.logged` computes a formula step by step as `Expr.evaluate` does and keeps a log of the
formulas whose evaluation it starts, from the whole formula inward and from left to right. What was
started before an error stays in the log.
-/

namespace Crosstab

namespace Evaluation

open Formula (Expr)

/-- A result, and the formulas that were evaluated for it. -/
@[ext]
structure Logged (α : Type) where
  started : List Expr
  result : Except EvalError α

namespace Logged
variable {α β : Type}

def of (x : Except EvalError α) : Logged α := ⟨[], x⟩

def bind (x : Logged α) (f : α → Logged β) : Logged β :=
  match x.result with
  | .ok a => ⟨x.started ++ (f a).started, (f a).result⟩
  | .error cause => ⟨x.started, .error cause⟩

instance : Monad Logged where
  pure a := of (.ok a)
  bind := bind

def noting (es : List Expr) (x : Logged α) : Logged α := ⟨es ++ x.started, x.result⟩

end Logged

end Evaluation

namespace Formula.Expr

open Evaluation

mutual

def logged (scope : Scope) : Expr → Logged Scalar
  | number x => .noting [number x] (.of (.ok (.number x)))
  | boolean b => .noting [boolean b] (.of (.ok (.boolean b)))
  | field id => .noting [field id] do
    let v ← .of (scope.field id)
    return v.getD (.number 0.0)
  | summary s id => .noting [summary s id] do
    let x ← .of (scope.summary s id)
    return .number x
  | binary op l r => .noting [binary op l r] <|
    match op with
    | .and => do
      let a ← logged scope l
      if a.isTruthy then
        let b ← logged scope r
        return .boolean b.isTruthy
      else return .boolean false
    | .or => do
      let a ← logged scope l
      if a.isTruthy then return .boolean true
      else
        let b ← logged scope r
        return .boolean b.isTruthy
    | .equal => do
      let a ← logged scope l
      let b ← logged scope r
      let c ← .of (same op.symbol a b)
      return .boolean c
    | .notEqual => do
      let a ← logged scope l
      let b ← logged scope r
      let c ← .of (same op.symbol a b)
      return .boolean (!c)
    | _ => do
      let a ← logged scope l
      let x ← .of (numeric op.symbol a)
      let b ← logged scope r
      let y ← .of (numeric op.symbol b)
      .of (arithmetic op x y)
  | negate e => .noting [negate e] do
    let a ← logged scope e
    let x ← .of (numeric Operator.subtract.symbol a)
    return .number (-x)
  | conditional c yes no => .noting [conditional c yes no] do
    let a ← logged scope c
    if a.isTruthy then logged scope yes else logged scope no
  | call f args => .noting [call f args] <|
    match f with
    | .abs => do
      let x ← loggedOnly scope f args
      return .number x.abs
    | .round => do
      let x ← loggedOnly scope f args
      return .number (Binary64.roundHalfAway x)
    | .min => do
      let x ← loggedReduce scope f Binary64.lesser args
      return .number x
    | .max => do
      let x ← loggedReduce scope f Binary64.greater args
      return .number x
    | .choose => loggedChoice scope args
    | .and => do
      let b ← loggedAll scope args
      return .boolean b
    | .or => do
      let b ← loggedAny scope args
      return .boolean b

def loggedOnly (scope : Scope) (f : Function) : List Expr → Logged Float
  | [e] => do
    let a ← logged scope e
    .of (numeric f.name a)
  | args => .of (.error (wrongArguments f args.length))

def loggedReduce (scope : Scope) (f : Function) (step : Float → Float → Float) :
    List Expr → Logged Float
  | [] => .of (.error (wrongArguments f 0))
  | e :: es => do
    let a ← logged scope e
    let x ← .of (numeric f.name a)
    loggedReduceFrom scope f step x es

def loggedReduceFrom (scope : Scope) (f : Function) (step : Float → Float → Float) (x : Float) :
    List Expr → Logged Float
  | [] => .of (.ok x)
  | e :: es => do
    let a ← logged scope e
    let y ← .of (numeric f.name a)
    loggedReduceFrom scope f step (step x y) es

def loggedChoice (scope : Scope) : List Expr → Logged Scalar
  | [c, yes, no] => do
    let a ← logged scope c
    if a.isTruthy then logged scope yes else logged scope no
  | args => .of (.error (wrongArguments .choose args.length))

def loggedAll (scope : Scope) : List Expr → Logged Bool
  | [] => .of (.ok true)
  | e :: es => do
    let a ← logged scope e
    if a.isTruthy then loggedAll scope es else return false

def loggedAny (scope : Scope) : List Expr → Logged Bool
  | [] => .of (.ok false)
  | e :: es => do
    let a ← logged scope e
    if a.isTruthy then return true else loggedAny scope es

end

/-- The formulas whose evaluation is started while a formula is evaluated, in order. -/
def started (scope : Scope) (e : Expr) : List Expr := (e.logged scope).started

end Formula.Expr

end Crosstab
