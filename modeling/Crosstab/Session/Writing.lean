import Crosstab.Json.Basic
import Crosstab.Session.Basic

/-!
# Answers as documents

How fields, records, layouts and reports are written. Members that hold nothing are null, except
those of a formula, which a base field does not have, and the rows in the order of display, which
only some layouts ask for. How numbers are written is left to a parameter.
-/

namespace Crosstab

namespace Labelled

def toJson {α : Type} (value : α → Json) (m : Labelled α) : Json :=
  .object (m.entries.map fun (label, a) => (label, value a))

end Labelled

/-- The name, the text or the number of a field's value. Dates are written year first. -/
def Value.toJson (num : Float → Json) : Value → Json
  | boolean b => .boolean b
  | number x => num x
  | date d => .string d.isoText
  | text s => .string s

def Field.toJson (f : Field) : Json :=
  .object ([
    ("id", .string f.id),
    ("displayName", .string f.displayName),
    ("semanticType", .string f.type.name),
    ("defaultAggregation", .ofText? (f.defaultAggregation.map (·.name)))] ++
    match f.calculation with
    | some c => [("formula", .string c.formula), ("dependencies", .ofTexts c.dependencies)]
    | none => [])

namespace Pivot

def Condition.name : Condition → String
  | equals _ => "equals"
  | notEquals _ => "notEquals"
  | contains _ => "contains"
  | greaterThan _ => "greaterThan"
  | lessThan _ => "lessThan"
  | between _ _ => "between"
  | oneOf _ => "in"

def Condition.operands (num : Float → Json) : Condition → Json
  | equals v | notEquals v | greaterThan v | lessThan v => v.toJson num
  | contains needle => .string needle
  | between low high => .array [low.toJson num, high.toJson num]
  | oneOf vs => .array (vs.map (·.toJson num))

def Config.toJson (num : Float → Json) (c : Config) : Json :=
  .object [
    ("rowFields", .array (c.rows.map (·.toJson))),
    ("columnField", (c.column.map (·.toJson)).getD .null),
    ("measures", .array (c.measures.map (·.toJson))),
    ("filters", .array (c.filters.map fun f => .object [
      ("field", f.field.toJson),
      ("condition", .object [
        ("operator", .string f.condition.name),
        ("value", f.condition.operands num)])]))]

mutual

def Row.toJson (num : Float → Json) : Row → Json
  | ⟨key, label, depth, values, crossValues, children, entries⟩ => .object [
    ("groupKey", .string key),
    ("label", .string label),
    ("depth", .ofNat depth),
    ("recordCount", .ofNat entries.length),
    ("measureValues", values.toJson num),
    ("crossTabValues", crossValues.toJson num),
    ("children", .array (Row.allToJson num children))]

def Row.allToJson (num : Float → Json) : List Row → List Json
  | [] => []
  | r :: rs => Row.toJson num r :: Row.allToJson num rs

end

def Fault.toJson (f : Fault) : Json :=
  .object [
    ("rowPath", .ofTexts f.path),
    ("column", .ofText? f.column),
    ("measureId", .string f.measure),
    ("message", .string f.error.message)]

def Table.FlatRow.toJson (num : Float → Json) (f : Table.FlatRow) : Json :=
  .object [
    ("path", .ofTexts f.path),
    ("label", .string f.row.label),
    ("depth", .ofNat f.row.depth),
    ("hasChildren", .boolean f.hasChildren),
    ("isExpanded", .boolean f.isExpanded),
    ("measureValues", f.row.values.toJson num),
    ("crossTabValues", f.row.crossValues.toJson num)]

end Pivot

namespace Session

def Report.toJson (num : Float → Json) (r : Report) : Json :=
  .object ([
    ("rows", .array (Pivot.Row.allToJson num r.table.rows)),
    ("grandTotal", r.table.grandTotal.toJson num),
    ("columnTotals", r.table.columnTotals.toJson num),
    ("columnValues", .ofTexts r.table.columnValues),
    ("measureIds", .ofTexts r.measures),
    ("recordCount", .ofNat r.table.recordCount)] ++
    (match r.flat with
      | some rows => [("flatRows", .array (rows.map (·.toJson num)))]
      | none => []) ++ [
    ("faults", .array (r.table.faults.map (·.toJson))),
    ("dataErrors", .ofTexts (r.table.dataErrors.map (·.message)))])

def Validation.toJson : Validation → Json
  | valid dependencies => .object [
      ("valid", .boolean true), ("error", .null), ("dependencies", .ofTexts dependencies)]
  | invalid cause => .object [
      ("valid", .boolean false), ("error", .string cause.message), ("dependencies", .array [])]

def MeasureChoice.toJson (m : MeasureChoice) : Json :=
  .object [("field", .string m.field), ("aggregation", .ofText? m.aggregation)]

def FilterChoice.toJson (num : Float → Json) (f : FilterChoice) : Json :=
  .object [
    ("field", .string f.field),
    ("operator", .string f.operator),
    ("value", (f.value.map (·.toJson num)).getD .null),
    ("valueTo", (f.upper.map (·.toJson num)).getD .null),
    ("values", (f.values.map fun vs => Json.array (vs.map (·.toJson num))).getD .null)]

def Layout.toJson (num : Float → Json) (l : Layout) : Json :=
  .object [
    ("rowFields", .ofTexts l.rows),
    ("columnField", .ofText? l.column),
    ("measures", .array (l.measures.map (·.toJson))),
    ("filters", .array (l.filters.map (·.toJson num))),
    ("expanded", (l.expanded.map fun ps => Json.array (ps.map .ofTexts)).getD .null)]

end Session

end Crosstab
