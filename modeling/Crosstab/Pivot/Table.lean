import Crosstab.Evaluation.Evaluator
import Crosstab.Record

/-!
# Pivot tables

A `Table` is the outcome of a pivot: a tree of rows, the totals, and what could not be computed.
Rows are found by their path, the group keys from the outermost row field inward.
-/

namespace Crosstab.Pivot

def crossLabel (column : String) (measure : FieldId) : String := column ++ "::" ++ measure

/-- The parts of a label around the last two colons that stand next to each other, given backward
and read from the end. -/
def splitBackward : List Char → List Char → Option (List Char × List Char)
  | ':' :: ':' :: before, after => some (before.reverse, after)
  | c :: before, after => splitBackward before (c :: after)
  | [], _ => none

def splitCrossLabel (label : String) : Option (String × FieldId) :=
  (splitBackward label.toList.reverse []).map fun (column, measure) =>
    (String.ofList column, String.ofList measure)

/-- A group of records that agree in the fields down to one row field. -/
structure Row where
  /-- The key of the group for the row field at `depth`. -/
  key : String
  /-- What is shown for the group. -/
  label : String
  depth : Nat
  /-- Values by measure. A measure that could not be computed has none. -/
  values : Labelled Float
  /-- Values by column value and measure. -/
  crossValues : Labelled Float
  children : List Row
  /-- The records of the group, in the order of the input. -/
  entries : List Entry

def Row.isTerminal (r : Row) : Bool := r.children.isEmpty

abbrev Path := List String

structure Fault where
  /-- The path of the row, and the empty path for totals. -/
  path : Path
  /-- The column value, in a cell of the cross-tab. -/
  column : Option String
  measure : FieldId
  error : EvalError
  deriving DecidableEq

structure InvalidDate where
  position : Nat
  field : FieldId
  value : String
  deriving DecidableEq

def InvalidDate.message (e : InvalidDate) : String :=
  "record " ++ Nat.repr e.position ++ ": field " ++ e.field ++ " holds '" ++ e.value ++
    "', which is not a date"

structure Table where
  rows : List Row
  grandTotal : Labelled Float
  columnTotals : Labelled Float
  /-- The column values in the order in which they first occur. -/
  columnValues : List String
  /-- The number of records that took part. -/
  recordCount : Nat
  faults : List Fault
  dataErrors : List InvalidDate

namespace Table

def findIn (rows : List Row) : Path → Option Row
  | [] => none
  | [k] => rows.find? (·.key = k)
  | k :: ks =>
    match rows.find? (·.key = k) with
    | some r => findIn r.children ks
    | none => none

def findRow (t : Table) (path : Path) : Option Row := findIn t.rows path

def drillDown (t : Table) (path : Path) : Option (List Entry) :=
  (t.findRow path).map (·.entries)

structure FlatRow where
  path : Path
  row : Row
  hasChildren : Bool
  isExpanded : Bool

mutual

def flattenRow (expanded : List Path) (above : Path) : Row → List FlatRow
  | ⟨key, label, depth, values, crossValues, children, entries⟩ =>
    let path := above ++ [key]
    let hasChildren := !children.isEmpty
    let isExpanded := hasChildren && expanded.contains path
    let row : Row := ⟨key, label, depth, values, crossValues, children, entries⟩
    ⟨path, row, hasChildren, isExpanded⟩ ::
      (if isExpanded then flattenRows expanded path children else [])

def flattenRows (expanded : List Path) (above : Path) : List Row → List FlatRow
  | [] => []
  | r :: rs => flattenRow expanded above r ++ flattenRows expanded above rs

end

/-- The rows in the order of display. Those below a row are listed where its path is expanded. -/
def flatten (t : Table) (expanded : List Path) : List FlatRow := flattenRows expanded [] t.rows

end Table

end Crosstab.Pivot
