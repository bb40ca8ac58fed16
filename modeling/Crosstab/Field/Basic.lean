import Crosstab.Formula.Parser
import Crosstab.Record

/-!
# Fields

A field has an id, a name to show, a type, and perhaps an aggregation of its own. A calculated field
has a formula besides, read once when the field is made. A `ConfigError` says why a field cannot be
registered or a pivot cannot be set up, which comes out before any record is looked at.

A `FieldIndex` is built from fields in order; of several fields with one id, the last one counts.
-/

namespace Crosstab

/-! ### Refused fields and settings -/

inductive Role where
  | row
  | column
  | measure
  | filter
  /-- Named by a formula. -/
  | formula
  /-- To be removed from the calculated fields. -/
  | calculated
  deriving DecidableEq

def Role.name : Role → String
  | row => "row"
  | column => "column"
  | measure => "measure"
  | filter => "filter"
  | formula => "formula"
  | calculated => "calculated"

inductive Topic where
  | fieldId
  | aggregation
  | filterOperator
  | filterValue
  | filterUpperBound
  | filterValues
  deriving DecidableEq

def Topic.name : Topic → String
  | fieldId => "field id"
  | aggregation => "aggregation"
  | filterOperator => "filter operator"
  | filterValue => "filter value"
  | filterUpperBound => "filter upper bound"
  | filterValues => "filter values"

inductive ConfigError where
  /-- The id or the display name is taken. -/
  | duplicateField (name : String)
  | unknownField (field : String) (role : Role)
  | notCalculated (id : FieldId)
  | invalidFormula (field formula : String) (cause : Formula.ParseError)
  | invalidOption (topic : Topic) (value : String)
  deriving DecidableEq

def ConfigError.message : ConfigError → String
  | duplicateField name => "duplicate field id: " ++ name
  | unknownField field role => "unknown " ++ role.name ++ " field: " ++ field
  | notCalculated id => "field " ++ id ++ " is not a calculated field"
  | invalidFormula field formula cause =>
    "invalid formula for " ++ field ++ " (" ++ formula ++ "): " ++ cause.message
  | invalidOption topic value => "invalid " ++ topic.name ++ ": " ++ value

/-! ### Fields -/

open Formula (Expr ParseError Summary)

inductive Aggregation where
  | sum
  | avg
  | min
  | max
  | count
  /-- The number of different keys. -/
  | distinctCount
  deriving DecidableEq

namespace Aggregation

def name : Aggregation → String
  | sum => "sum"
  | avg => "avg"
  | min => "min"
  | max => "max"
  | count => "count"
  | distinctCount => "distinctCount"

def ofName? (s : String) : Option Aggregation :=
  match Decimal.lowerAscii (Text.trim s) with
  | "sum" => some sum
  | "avg" | "average" => some avg
  | "min" => some min
  | "max" => some max
  | "count" => some count
  | "distinctcount" => some distinctCount
  | _ => none

def all : List Aggregation := [sum, avg, min, max, count, distinctCount]

def ofSummary : Summary → Aggregation
  | .sum => sum
  | .count => count
  | .avg => avg
  | .min => min
  | .max => max

end Aggregation

structure Calculation where
  formula : String
  expr : Expr

namespace Calculation

def compile (resolve : String → Option FieldId) (formula : String) :
    Except ParseError Calculation :=
  (Formula.parse resolve formula).map fun expr => ⟨formula, expr⟩

def dependencies (c : Calculation) : List FieldId := c.expr.dependencies

end Calculation

structure Field where
  id : FieldId
  displayName : String
  type : SemanticType
  defaultAggregation : Option Aggregation
  calculation : Option Calculation

namespace Field

def base (id : FieldId) (displayName : String) (type : SemanticType)
    (aggregation : Option Aggregation) : Field :=
  ⟨id, displayName, type, aggregation, none⟩

/-- A field whose values come from a formula. They are numbers, and they are summed. -/
def calculated (id : FieldId) (displayName : String) (resolve : String → Option FieldId)
    (formula : String) : Except ConfigError Field :=
  match Calculation.compile resolve formula with
  | .ok c => .ok ⟨id, displayName, .number, some .sum, some c⟩
  | .error cause => .error (.invalidFormula displayName formula cause)

def withAggregation (f : Field) (a : Aggregation) : Field :=
  { f with defaultAggregation := some a }

/-- The aggregation of the field as a measure: the sum if it has none of its own. -/
def aggregation (f : Field) : Aggregation := f.defaultAggregation.getD .sum

def isCalculated (f : Field) : Bool := f.calculation.isSome

def dependencies (f : Field) : List FieldId :=
  match f.calculation with
  | some c => c.dependencies
  | none => []

end Field

/-! ### Fields by id -/

structure FieldIndex where
  added : List Field

namespace FieldIndex
variable (i : FieldIndex)

def get? (id : FieldId) : Option Field := i.added.reverse.find? (·.id = id)

def ids : List FieldId := (i.added.map (·.id)).eraseDups

def size : Nat := i.ids.length

theorem id_of_get? {i : FieldIndex} {id : FieldId} {f : Field} (h : i.get? id = some f) :
    f.id = id := by
  simpa using List.find?_some h

theorem mem_of_get? {i : FieldIndex} {id : FieldId} {f : Field} (h : i.get? id = some f) :
    f ∈ i.added :=
  List.mem_reverse.1 (List.mem_of_find?_eq_some h)

theorem mem_ids_of_get? {i : FieldIndex} {id : FieldId} {f : Field} (h : i.get? id = some f) :
    id ∈ i.ids := by
  rw [ids, List.mem_eraseDups, ← id_of_get? h]
  exact List.mem_map_of_mem (mem_of_get? h)

end FieldIndex

end Crosstab
