import Crosstab.Pivot.Config
import Crosstab.Pivot.Table

/-!
# Layouts

A `Layout` is a pivot as a user writes it: fields by id or display name, aggregations and operators
by name. It becomes a configuration against a catalog, and does so anew each time, since the catalog
may have changed.
-/

namespace Crosstab.Session

open Pivot (Condition Config Filter Path)

/-- A measure, with an aggregation in place of the field's own if one is named. -/
structure MeasureChoice where
  field : String
  aggregation : Option String
  deriving DecidableEq

structure FilterChoice where
  field : String
  operator : String
  /-- The operand, or the lower end of a range. -/
  value : Option Value
  /-- The upper end of a range. -/
  upper : Option Value
  /-- The operands of a choice among several. -/
  values : Option (List Value)
  deriving DecidableEq

structure Layout where
  /-- The row fields, outermost first. -/
  rows : List String
  column : Option String
  measures : List MeasureChoice
  filters : List FilterChoice
  /-- The rows whose rows are listed in the order of display; without it there is no such list. -/
  expanded : Option (List Path)
  deriving DecidableEq

def findField (catalog : Catalog) (role : Role) (name : String) : Except ConfigError Field :=
  match (catalog.get? name).or (catalog.find? name) with
  | some f => .ok f
  | none => .error (.unknownField name role)

def findAggregation (name : String) : Except ConfigError Aggregation :=
  match Aggregation.ofName? name with
  | some a => .ok a
  | none => .error (.invalidOption .aggregation name)

def MeasureChoice.resolve (catalog : Catalog) (m : MeasureChoice) : Except ConfigError Field := do
  let f ← findField catalog .measure m.field
  match m.aggregation with
  | some name => (findAggregation name).map f.withAggregation
  | none => return f

namespace FilterChoice
variable (f : FilterChoice)

def operand {α : Type} (topic : Topic) : Option α → Except ConfigError α
  | some a => .ok a
  | none => .error (.invalidOption topic (f.operator ++ " on " ++ f.field))

/-- The condition with the name of the operator, in any case. The upper end of a range is looked for
first. -/
def condition : Except ConfigError Condition :=
  match Decimal.lowerAscii f.operator with
  | "equals" => (f.operand .filterValue f.value).map .equals
  | "notequals" => (f.operand .filterValue f.value).map .notEquals
  | "contains" => (f.operand .filterValue f.value).map fun v => .contains v.display
  | "greaterthan" => (f.operand .filterValue f.value).map .greaterThan
  | "lessthan" => (f.operand .filterValue f.value).map .lessThan
  | "between" => do
    let high ← f.operand .filterUpperBound f.upper
    let low ← f.operand .filterValue f.value
    return .between low high
  | "in" => (f.operand .filterValues f.values).map .oneOf
  | _ => .error (.invalidOption .filterOperator f.operator)

def resolve (catalog : Catalog) : Except ConfigError Filter := do
  let field ← findField catalog .filter f.field
  let condition ← f.condition
  return ⟨field, condition⟩

end FilterChoice

def Layout.toConfig (catalog : Catalog) (layout : Layout) : Except ConfigError Config := do
  let rows ← layout.rows.mapM (findField catalog .row)
  let column ← layout.column.mapM (findField catalog .column)
  let measures ← layout.measures.mapM (·.resolve catalog)
  let filters ← layout.filters.mapM (·.resolve catalog)
  let config : Config := ⟨rows, column, measures, filters, catalog.fields⟩
  config.validate
  return config

end Crosstab.Session
