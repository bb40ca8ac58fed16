import Crosstab.Aggregation
import Crosstab.Evaluation.Evaluator

/-!
# What formulas are computed over

Formulas are computed over plain numbers, over one record, or over a group of records. A formula may
refer to calculated fields, whose formulas refer to others; `room` counts how many more of them may
be opened inside one another, so that a circle of formulas ends in an error.

In a record a field stands for its value. In a group a base field stands for the aggregate of its
values and a calculated one for its formula over the group; a summary of a calculated field brings
together the results of its formula over the records one by one.
-/

namespace Crosstab.Evaluation

/-- The number of formulas that may lead from one to the next below the first. -/
def maxDepth : Nat := 16

/-- The result of a calculated field whose formula is computed by `inner`; without it there is no
room for one more formula. -/
def openField (inner : Option (Formula.Expr → Except EvalError Scalar)) (f : Field) :
    Except EvalError Float :=
  match f.calculation, inner with
  | none, _ => .error (.unknownField f.id)
  | some _, none => .error (.recursionLimit f.id)
  | some c, some value => (value c.expr).map Scalar.toNumber

/-- How formulas are computed with room for `room` of them, where `scopes` gives the scope by the
room left below a formula. -/
def within (scopes : Nat → Scope) : (room : Nat) → Option (Formula.Expr → Except EvalError Scalar)
  | 0 => none
  | room + 1 => some fun e => e.evaluate (scopes room)

def calculate (scopes : Nat → Scope) (depth : Nat) (f : Field) : Except EvalError Float :=
  openField (within scopes (maxDepth + 1 - depth)) f

def evaluateAt (scopes : Nat → Scope) (depth : Nat) (e : Formula.Expr) : Except EvalError Scalar :=
  e.evaluate (scopes (maxDepth - depth))

/-! ### Plain numbers -/

/-- Numbers under field ids. Each counts as a single record. -/
def numbers (values : Labelled Float) : Scope where
  field id := .ok ((values.get? id).map .number)
  summary s id :=
    let v := values.get? id
    match s with
    | .count => .ok (if v.isSome then 1.0 else 0.0)
    | _ => .ok (v.getD 0.0)

/-! ### One record -/

section Record
variable (index : FieldIndex) (r : Record)

def require (id : FieldId) : Except EvalError Field :=
  match index.get? id with
  | some f => .ok f
  | none => .error (.unknownField id)

def storedNumber (f : Field) : Except EvalError (Option Float) :=
  match r.get? f.id with
  | none => .ok none
  | some v =>
    match v.asNumber? with
    | some x => .ok (some x)
    | none => .error (.notNumeric f.id v.display)

def storedValue (f : Field) : Except EvalError (Option Scalar) :=
  match r.get? f.id with
  | some (.boolean b) => .ok (some (.boolean b))
  | _ => (storedNumber r f).map (·.map .number)

def ofRecord (calculated : Field → Except EvalError Float) : Scope where
  field id := do
    let f ← require index id
    if f.isCalculated then
      let x ← calculated f
      return some (.number x)
    else storedValue r f
  summary s id := do
    let f ← require index id
    if s = .count then return 1.0
    else if f.isCalculated then calculated f
    else
      let x ← storedNumber r f
      return x.getD 0.0

def recordScope : (room : Nat) → Scope
  | 0 => ofRecord index r (openField none)
  | room + 1 => ofRecord index r (openField (some fun e => e.evaluate (recordScope room)))

theorem recordScope_eq (room : Nat) :
    recordScope index r room = ofRecord index r (openField (within (recordScope index r) room)) := by
  cases room <;> rfl

end Record

/-! ### A group of records -/

section Group
variable (index : FieldIndex) (group : List Record)

def requireNumeric (f : Field) : Except EvalError Unit :=
  match (group.filterMap (·.get? f.id)).find? (·.asNumber?.isNone) with
  | some v => .error (.notNumeric f.id v.display)
  | none => .ok ()

/-- The aggregate of a base field. Keys can be counted whatever the values are. -/
def aggregateStored (f : Field) (a : Aggregation) : Except EvalError Float :=
  if a = .count then .ok (Float.ofNat group.length)
  else if a = .distinctCount then .ok (aggregate f a group)
  else do
    requireNumeric group f
    return aggregate f a group

def accumulate (result : Record → Except EvalError Float) :
    Accumulator → List Record → Except EvalError Accumulator
  | acc, [] => .ok acc
  | acc, r :: rs => do
    let x ← result r
    accumulate result (acc.addNumber x) rs

def aggregateCalculated (result : Record → Except EvalError Float) (a : Aggregation) :
    Except EvalError Float :=
  if a = .count then .ok (Float.ofNat group.length)
  else do
    let acc ← accumulate result (Accumulator.start a) group
    return acc.result a

def ofGroup (overGroup : Field → Except EvalError Float)
    (overRecord : Field → Record → Except EvalError Float) : Scope where
  field id := do
    let f ← require index id
    let x ← if f.isCalculated then overGroup f else aggregateStored group f f.aggregation
    return some (.number x)
  summary s id := do
    let f ← require index id
    if f.isCalculated then aggregateCalculated group (overRecord f) (.ofSummary s)
    else aggregateStored group f (.ofSummary s)

def groupScope : (room : Nat) → Scope
  | 0 => ofGroup index group (openField none) fun f _ => openField none f
  | room + 1 => ofGroup index group (openField (some fun e => e.evaluate (groupScope room)))
      fun f r => openField (within (recordScope index r) (room + 1)) f

theorem groupScope_eq (room : Nat) :
    groupScope index group room =
      ofGroup index group (openField (within (groupScope index group) room))
        fun f r => openField (within (recordScope index r) room) f := by
  cases room <;> rfl

end Group

end Crosstab.Evaluation
