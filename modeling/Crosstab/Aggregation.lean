import Crosstab.Binary64
import Crosstab.Field.Basic

/-!
# Aggregation

An `Accumulator` takes in one value after the other and keeps what every aggregation needs. Values
that are no numbers, and missing ones, are taken in as 0. Different keys are kept only where they
are to be counted.
-/

namespace Crosstab

structure Accumulator where
  sum : Float
  count : Nat
  min? : Option Float
  max? : Option Float
  /-- The keys seen so far, each once, where they are kept. -/
  keys? : Option (List String)

namespace Accumulator

def empty : Accumulator := ⟨0.0, 0, none, none, none⟩

def start (a : Aggregation) : Accumulator :=
  { empty with keys? := if a = .distinctCount then some [] else none }

def addKey (acc : Accumulator) (key : String) : Accumulator :=
  { acc with keys? := acc.keys?.map fun keys => if key ∈ keys then keys else key :: keys }

def push (acc : Accumulator) (x : Float) : Accumulator :=
  { acc with
    sum := acc.sum + x
    count := acc.count + 1
    min? := some (match acc.min? with
      | some m => Binary64.lesser m x
      | none => x)
    max? := some (match acc.max? with
      | some m => Binary64.greater m x
      | none => x) }

def addNumber (acc : Accumulator) (x : Float) : Accumulator := (acc.addKey (numberText x)).push x

/-- The key of a value where it is counted: its grouping key, or its text if it has none. -/
def distinctKey (type : SemanticType) (v : Option Value) : String :=
  (Value.key? type v).getD ((v.map Value.display).getD "")

def addValue (acc : Accumulator) (f : Field) (v : Option Value) : Accumulator :=
  (acc.addKey (distinctKey f.type v)).push (Value.numberOrZero v)

def addRecord (acc : Accumulator) (f : Field) (r : Record) : Accumulator :=
  acc.addValue f (r.get? f.id)

/-- The aggregate of what was taken in, and 0 for nothing. -/
def result (acc : Accumulator) : Aggregation → Float
  | .sum => acc.sum
  | .avg => if 0 < acc.count then acc.sum / Float.ofNat acc.count else 0.0
  | .min => acc.min?.getD 0.0
  | .max => acc.max?.getD 0.0
  | .count => Float.ofNat acc.count
  | .distinctCount => Float.ofNat (acc.keys?.getD []).length

end Accumulator

def aggregate (f : Field) (a : Aggregation) (records : List Record) : Float :=
  (records.foldl (fun acc r => acc.addRecord f r) (Accumulator.start a)).result a

end Crosstab
