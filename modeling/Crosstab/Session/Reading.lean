import Crosstab.Json.Basic
import Crosstab.Session.Layout

/-!
# Records and layouts as documents

A record is an object of plain values; strings that spell dates are dates. A layout, a measure, a
filter and the request for a calculated field are objects with named members, of which unknown ones
do not count. Each may also be an array of its members in order, cut off before members that may be
missing.
-/

namespace Crosstab

def Value.ofJson? : Json → Option Value
  | .boolean b => some (.boolean b)
  | .number literal => (Json.number literal).toFloat?.map .number
  | .string s => some (.ofString s)
  | _ => none

namespace Json

def membersVia? {α : Type} (f : Json → Option α) (j : Json) : Option (List (String × α)) := do
  let ms ← j.toMembers?
  ms.mapM fun (name, j) => (f j).map fun a => (name, a)

def itemsVia? {α : Type} (f : Json → Option α) (j : Json) : Option (List α) := do
  let js ← j.toList?
  js.mapM f

/-- The members with the given names, from an object or in order from an array. -/
def parts? (names : List String) : Json → Option (List (Option Json))
  | object ms => some (names.map fun name => (object ms).member? name)
  | array js =>
    if js.length ≤ names.length then
      some (js.map some ++ List.replicate (names.length - js.length) none)
    else none
  | _ => none

/-- A member that may be missing or null. -/
def optional? {α : Type} (f : Json → Option α) : Option Json → Option (Option α)
  | none | some null => some none
  | some j => (f j).map some

/-- A list that may be missing but not null. -/
def listOrEmpty? {α : Type} (f : Json → Option α) : Option Json → Option (List α)
  | none => some []
  | some j => j.itemsVia? f

def texts? (j : Json) : Option (List String) := j.itemsVia? toString?

end Json

def Record.ofJson? (j : Json) : Option Record := (j.membersVia? Value.ofJson?).map .ofList

namespace Session

def MeasureChoice.ofJson? (j : Json) : Option MeasureChoice := do
  let [field, aggregation] ← j.parts? ["field", "aggregation"] | none
  let field ← field.bind Json.toString?
  let aggregation ← Json.optional? Json.toString? aggregation
  return ⟨field, aggregation⟩

def FilterChoice.ofJson? (j : Json) : Option FilterChoice := do
  let [field, operator, value, upper, values] ←
    j.parts? ["field", "operator", "value", "valueTo", "values"] | none
  let field ← field.bind Json.toString?
  let operator ← operator.bind Json.toString?
  let value ← Json.optional? Value.ofJson? value
  let upper ← Json.optional? Value.ofJson? upper
  let values ← Json.optional? (Json.itemsVia? Value.ofJson?) values
  return ⟨field, operator, value, upper, values⟩

def Layout.ofJson? (j : Json) : Option Layout := do
  let [rows, column, measures, filters, expanded] ←
    j.parts? ["rowFields", "columnField", "measures", "filters", "expanded"] | none
  let rows ← Json.listOrEmpty? Json.toString? rows
  let column ← Json.optional? Json.toString? column
  let measures ← Json.listOrEmpty? MeasureChoice.ofJson? measures
  let filters ← Json.listOrEmpty? FilterChoice.ofJson? filters
  let expanded ← Json.optional? (Json.itemsVia? Json.texts?) expanded
  return ⟨rows, column, measures, filters, expanded⟩

structure FormulaRequest where
  name : String
  formula : String
  deriving DecidableEq

def FormulaRequest.ofJson? (j : Json) : Option FormulaRequest := do
  let [name, formula] ← j.parts? ["name", "formula"] | none
  let name ← name.bind Json.toString?
  let formula ← formula.bind Json.toString?
  return ⟨name, formula⟩

end Session

end Crosstab
