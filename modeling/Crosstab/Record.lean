import Crosstab.Calendar
import Crosstab.Formula.Expr
import Crosstab.Labelled

/-!
# Records

A record holds at most one value for each field: a truth value, a number, a date or text. What a
value means depends on who reads it: as a number, as a date, as display text, or as the key by which
records of one group agree. The key depends on the type of the field, and text in a date field that
spells no date has none.
-/

namespace Crosstab

/-! ### Values -/

inductive SemanticType where
  | string
  | number
  | date
  | boolean
  deriving DecidableEq

namespace SemanticType

def name : SemanticType → String
  | string => "string"
  | number => "number"
  | date => "date"
  | boolean => "boolean"

def ofName? : String → Option SemanticType
  | "string" => some string
  | "number" => some number
  | "date" => some date
  | "boolean" => some boolean
  | _ => none

end SemanticType

inductive Value where
  | boolean (b : Bool)
  | number (x : Float)
  | date (d : Date)
  | text (s : String)
  deriving DecidableEq

namespace Value

/-- The value that a written record holds where it has a string: a date if it spells one. -/
def ofString (s : String) : Value :=
  match Date.ofRecorded? s with
  | some d => date d
  | none => text s

def asNumber? : Value → Option Float
  | number x => some x
  | text s => Decimal.number? (Text.trim s)
  | _ => none

def asDate? : Value → Option Date
  | date d => some d
  | text s => Date.ofText? s
  | _ => none

def display : Value → String
  | boolean b => if b then "true" else "false"
  | number x => numberText x
  | date d => d.text
  | text s => s

/-- The grouping key of a field that may hold a value. Without a value, and for blank text in a
date field, it is the empty text. Text in a date field that spells no date has no key. -/
def key? (type : SemanticType) : Option Value → Option String
  | none => some ""
  | some (text s) =>
    if type = .date then
      if Text.trim s = "" then some "" else (Date.ofText? s).map Date.text
    else some s
  | some v => some v.display

def numberOrZero (v : Option Value) : Float := (v.bind asNumber?).getD 0.0

@[simp]
theorem key?_none (type : SemanticType) : key? type none = some "" := rfl

theorem key?_eq_display {type : SemanticType} (h : type ≠ .date) (v : Value) :
    key? type (some v) = some v.display := by
  cases v <;> simp [key?, display, h]

end Value

/-! ### Records -/

abbrev Record := Labelled Value

structure Entry where
  position : Nat
  record : Record

def Entry.ofRecords (records : List Record) : List Entry :=
  records.zipIdx.map fun (r, i) => ⟨i, r⟩

end Crosstab
