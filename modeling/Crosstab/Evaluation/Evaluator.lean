import Crosstab.Binary64
import Crosstab.Formula.Expr

/-!
# Evaluation

A formula yields a number or a truth value, or fails for one of six causes. `Expr.evaluate` computes
it in a `Scope`, which says what its field references and summaries stand for. Operands are
evaluated from left to right, and only as far as they matter: a connective stops at the operand that
decides it, and of a conditional one branch is evaluated.
-/

namespace Crosstab

/-! ### Results -/

namespace Evaluation

inductive Scalar where
  | number (x : Float)
  | boolean (b : Bool)
  deriving DecidableEq

namespace Scalar

def isTruthy : Scalar → Bool
  | number x => !(x == 0.0)
  | boolean b => b

def toNumber : Scalar → Float
  | number x => x
  | boolean b => if b then 1.0 else 0.0

def kind : Scalar → String
  | number _ => "number"
  | boolean _ => "boolean"

end Scalar

end Evaluation

/-- What an operation was given that it does not take. Operands that cannot be compared are named by
their kinds. -/
inductive Mismatch where
  | truthValue
  | unlike (left right : String)
  | argumentCount (expected : Formula.Arity) (found : Nat)
  deriving DecidableEq

def Mismatch.detail : Mismatch → String
  | truthValue => "expected a number, found a boolean"
  | unlike left right => "cannot compare " ++ left ++ " with " ++ right
  | argumentCount expected found =>
    "expects " ++ expected.text ++ " argument(s), found " ++ Nat.repr found

inductive EvalError where
  | divisionByZero
  | typeMismatch (operator : String) (mismatch : Mismatch)
  | notNumeric (field : FieldId) (value : String)
  /-- A result that is infinite or no number. -/
  | nonFinite (operator : String)
  | unknownField (id : FieldId)
  /-- Formulas lead from one to the next too often. -/
  | recursionLimit (id : FieldId)
  deriving DecidableEq

def EvalError.message : EvalError → String
  | divisionByZero => "division by zero"
  | typeMismatch operator mismatch =>
    "type mismatch for '" ++ operator ++ "': " ++ mismatch.detail
  | notNumeric field value =>
    "field " ++ field ++ " holds '" ++ value ++ "', which is not a number"
  | nonFinite operator => "'" ++ operator ++ "' produced a non-finite result"
  | unknownField id => "unknown field: " ++ id
  | recursionLimit id => "formula nesting too deep while evaluating " ++ id

/-! ### Evaluation -/

namespace Evaluation

/-- What a formula can read. A field may hold no value. -/
structure Scope where
  field : FieldId → Except EvalError (Option Scalar)
  summary : Formula.Summary → FieldId → Except EvalError Float

def numeric (operator : String) : Scalar → Except EvalError Float
  | .number x => .ok x
  | .boolean _ => .error (.typeMismatch operator .truthValue)

def finite (operator : String) (x : Float) : Except EvalError Scalar :=
  if x.isFinite then .ok (.number x) else .error (.nonFinite operator)

def same (operator : String) : Scalar → Scalar → Except EvalError Bool
  | .number x, .number y => .ok (x == y)
  | .boolean a, .boolean b => .ok (a == b)
  | l, r => .error (.typeMismatch operator (.unlike l.kind r.kind))

/-- An operator on two numbers. The last case is the power. -/
def arithmetic (op : Formula.Operator) (x y : Float) : Except EvalError Scalar :=
  match op with
  | .less => .ok (.boolean (x < y))
  | .greater => .ok (.boolean (y < x))
  | .lessEqual => .ok (.boolean (x ≤ y))
  | .greaterEqual => .ok (.boolean (y ≤ x))
  | .add => finite op.symbol (x + y)
  | .subtract => finite op.symbol (x - y)
  | .multiply => finite op.symbol (x * y)
  | .divide => if y == 0.0 then .error .divisionByZero else finite op.symbol (x / y)
  | .modulo =>
    if y == 0.0 then .error .divisionByZero else finite op.symbol (Binary64.remainder x y)
  | _ => finite op.symbol (Binary64.power x y)

def wrongArguments (f : Formula.Function) (count : Nat) : EvalError :=
  .typeMismatch f.name (.argumentCount f.arity count)

end Evaluation

namespace Formula.Expr

open Evaluation

mutual

def evaluate (scope : Scope) : Expr → Except EvalError Scalar
  | number x => .ok (.number x)
  | boolean b => .ok (.boolean b)
  | field id => do
    let v ← scope.field id
    return v.getD (.number 0.0)
  | summary s id => do
    let x ← scope.summary s id
    return .number x
  | binary op l r =>
    match op with
    | .and => do
      let a ← evaluate scope l
      if a.isTruthy then
        let b ← evaluate scope r
        return .boolean b.isTruthy
      else return .boolean false
    | .or => do
      let a ← evaluate scope l
      if a.isTruthy then return .boolean true
      else
        let b ← evaluate scope r
        return .boolean b.isTruthy
    | .equal => do
      let a ← evaluate scope l
      let b ← evaluate scope r
      let c ← same op.symbol a b
      return .boolean c
    | .notEqual => do
      let a ← evaluate scope l
      let b ← evaluate scope r
      let c ← same op.symbol a b
      return .boolean (!c)
    | _ => do
      let a ← evaluate scope l
      let x ← numeric op.symbol a
      let b ← evaluate scope r
      let y ← numeric op.symbol b
      arithmetic op x y
  | negate e => do
    let a ← evaluate scope e
    let x ← numeric Operator.subtract.symbol a
    return .number (-x)
  | conditional c yes no => do
    let a ← evaluate scope c
    if a.isTruthy then evaluate scope yes else evaluate scope no
  | call f args =>
    match f with
    | .abs => do
      let x ← only scope f args
      return .number x.abs
    | .round => do
      let x ← only scope f args
      return .number (Binary64.roundHalfAway x)
    | .min => do
      let x ← reduce scope f Binary64.lesser args
      return .number x
    | .max => do
      let x ← reduce scope f Binary64.greater args
      return .number x
    | .choose => choice scope args
    | .and => do
      let b ← all scope args
      return .boolean b
    | .or => do
      let b ← any scope args
      return .boolean b

def only (scope : Scope) (f : Function) : List Expr → Except EvalError Float
  | [e] => do
    let a ← evaluate scope e
    numeric f.name a
  | args => .error (wrongArguments f args.length)

def reduce (scope : Scope) (f : Function) (step : Float → Float → Float) :
    List Expr → Except EvalError Float
  | [] => .error (wrongArguments f 0)
  | e :: es => do
    let a ← evaluate scope e
    let x ← numeric f.name a
    reduceFrom scope f step x es

def reduceFrom (scope : Scope) (f : Function) (step : Float → Float → Float) (x : Float) :
    List Expr → Except EvalError Float
  | [] => .ok x
  | e :: es => do
    let a ← evaluate scope e
    let y ← numeric f.name a
    reduceFrom scope f step (step x y) es

def choice (scope : Scope) : List Expr → Except EvalError Scalar
  | [c, yes, no] => do
    let a ← evaluate scope c
    if a.isTruthy then evaluate scope yes else evaluate scope no
  | args => .error (wrongArguments .choose args.length)

def all (scope : Scope) : List Expr → Except EvalError Bool
  | [] => .ok true
  | e :: es => do
    let a ← evaluate scope e
    if a.isTruthy then all scope es else return false

def any (scope : Scope) : List Expr → Except EvalError Bool
  | [] => .ok false
  | e :: es => do
    let a ← evaluate scope e
    if a.isTruthy then return true else any scope es

end

end Formula.Expr

end Crosstab
