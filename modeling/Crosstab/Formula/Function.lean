import Crosstab.Decimal

/-!
# The functions of formulas

A formula may call a closed set of functions on values, each with its number of arguments, and may
take a summary of a field over the records at hand.
-/

namespace Crosstab.Formula

/-- A summary of a field, as in `sum("Amount")`. -/
inductive Summary where
  | sum
  | count
  | avg
  | min
  | max
  deriving DecidableEq

namespace Summary

def name : Summary → String
  | sum => "sum"
  | count => "count"
  | avg => "avg"
  | min => "min"
  | max => "max"

def ofName? (s : String) : Option Summary :=
  match Decimal.lowerAscii s with
  | "sum" => some sum
  | "count" => some count
  | "avg" => some avg
  | "min" => some min
  | "max" => some max
  | _ => none

theorem ofName?_name (s : Summary) : ofName? s.name = some s := by
  cases s <;> decide

theorem ofName?_eq_some_iff {name : String} {s : Summary} :
    ofName? name = some s ↔ Decimal.lowerAscii name = s.name := by
  constructor
  · intro h
    unfold ofName? at h
    split at h <;> cases h <;> assumption
  · intro h
    rw [ofName?, h]
    cases s <;> rfl

end Summary

inductive Arity where
  | exactly (n : Nat)
  | atLeast (n : Nat)
  deriving DecidableEq

namespace Arity

def accepts : Arity → Nat → Bool
  | exactly n, count => count = n
  | atLeast n, count => n ≤ count

def text : Arity → String
  | exactly n => "exactly " ++ Nat.repr n
  | atLeast n => "at least " ++ Nat.repr n

end Arity

inductive Function where
  | abs
  | min
  | max
  /-- Rounding to a whole number. -/
  | round
  /-- The choice between two values by a condition. -/
  | choose
  | or
  | and
  deriving DecidableEq

namespace Function

def name : Function → String
  | abs => "ABS"
  | min => "MIN"
  | max => "MAX"
  | round => "RD"
  | choose => "IF"
  | or => "OR"
  | and => "AND"

def ofName? : String → Option Function
  | "ABS" => some abs
  | "MIN" => some min
  | "MAX" => some max
  | "RD" => some round
  | "IF" => some choose
  | "OR" => some or
  | "AND" => some and
  | _ => none

theorem ofName?_name (f : Function) : ofName? f.name = some f := by
  cases f <;> rfl

theorem eq_name_of_ofName? {name : String} {f : Function} (h : ofName? name = some f) :
    name = f.name := by
  unfold ofName? at h
  split at h <;> cases h <;> rfl

def arity : Function → Arity
  | abs | round => .exactly 1
  | choose => .exactly 3
  | min | max | or | and => .atLeast 2

theorem name_injective {f g : Function} (h : f.name = g.name) : f = g :=
  Option.some.inj ((ofName?_name f).symm.trans ((congrArg ofName? h).trans (ofName?_name g)))

theorem not_accepts_zero (f : Function) : f.arity.accepts 0 = false := by
  cases f <;> rfl

end Function

end Crosstab.Formula
