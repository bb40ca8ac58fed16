import Crosstab.Field.Catalog
import Crosstab.Text

/-!
# Pivot configurations

A `Config` says which fields make the rows, the column and the measures of a pivot table, and which
records take part. `validate` refuses it before any record is looked at, if two measures share an
id, if a calculated measure is to be aggregated in any way but its own, or if a formula leads to a
field that is not there.

A filter accepts or rejects what a record holds for its field. In a date field values compare in
time. In any other field two values that both stand for numbers compare as numbers, and others by
their text. A missing value, and values that do not compare, satisfy only `notEquals`; a search for
text takes the empty text for a missing value.
-/

namespace Crosstab.Pivot

/-! ### Filters -/

inductive Condition where
  | equals (v : Value)
  | notEquals (v : Value)
  /-- The key has this text in it, whatever the case of letters. -/
  | contains (needle : String)
  | greaterThan (v : Value)
  | lessThan (v : Value)
  /-- Both ends belong to the range. -/
  | between (low high : Value)
  | oneOf (vs : List Value)
  deriving DecidableEq

structure Filter where
  field : Field
  condition : Condition

def compare? (type : SemanticType) (v : Option Value) (operand : Value) : Option Ordering :=
  match v with
  | none => none
  | some v =>
    if type = .date then
      match v.asDate?, operand.asDate? with
      | some a, some b => some (a.compare b)
      | _, _ => none
    else
      match v.asNumber?, operand.asNumber? with
      | some x, some y => Binary64.compare? x y
      | _, _ => (Value.key? type (some v)).map fun key => compare key operand.display

def Condition.holds (type : SemanticType) (v : Option Value) : Condition → Bool
  | equals operand => compare? type v operand = some .eq
  | notEquals operand => compare? type v operand ≠ some .eq
  | contains needle =>
    match Value.key? type v with
    | some key => Text.contains (Text.lowercase key) (Text.lowercase needle)
    | none => false
  | greaterThan operand => compare? type v operand = some .gt
  | lessThan operand => compare? type v operand = some .lt
  | between low high =>
    (compare? type v low = some .gt || compare? type v low = some .eq) &&
      (compare? type v high = some .lt || compare? type v high = some .eq)
  | oneOf operands => operands.any fun operand => compare? type v operand = some .eq

def Filter.accepts (f : Filter) (v : Option Value) : Bool := f.condition.holds f.field.type v

def Filter.admits (f : Filter) (r : Record) : Bool := f.accepts (r.get? f.field.id)

/-! ### Configurations -/

structure Config where
  /-- The row fields, outermost first. -/
  rows : List Field
  column : Option Field
  measures : List Field
  filters : List Filter
  /-- Fields that formulas may refer to besides the ones placed above. -/
  references : List Field

namespace Config
variable (c : Config)

def withCatalog (catalog : Catalog) : Config :=
  { c with references := c.references ++ catalog.fields }

/-- The fields that formulas can refer to. The references come last: a measure with an aggregation
of its own does not change what its field means in a formula. -/
def fieldIndex : FieldIndex :=
  ⟨c.measures ++ (c.rows ++ (c.column.toList ++ (c.filters.map (·.field) ++ c.references)))⟩

def dateFields : List Field :=
  (c.rows ++ (c.column.toList ++ c.filters.map (·.field))).filter (·.type = .date)

def checkMeasures (seen : List FieldId) : List Field → Except ConfigError Unit
  | [] => .ok ()
  | m :: ms =>
    if m.id ∈ seen then .error (.duplicateField m.id)
    else if m.isCalculated ∧ m.aggregation ≠ .sum then
      .error (.invalidOption .aggregation
        (m.aggregation.name ++ " on calculated field " ++ m.displayName))
    else checkMeasures (m.id :: seen) ms

def calculatedAmong (index : FieldIndex) : List FieldId → Except ConfigError (List Field)
  | [] => .ok []
  | id :: ids =>
    match index.get? id with
    | none => .error (.unknownField id .formula)
    | some f => do
      let fs ← calculatedAmong index ids
      return if f.isCalculated then f :: fs else fs

def without (ids : List FieldId) (id : FieldId) : List FieldId := ids.filter (· ≠ id)

theorem length_without_lt {ids : List FieldId} {id : FieldId} (h : id ∈ ids) :
    (without ids id).length < ids.length :=
  List.length_filter_lt_length_iff_exists.2 ⟨id, h, by simp⟩

/-- Follows the formulas of `pending` fields, the first one first, and of the fields they lead to.
Only fields whose id is in `unvisited` are followed, and each id once. -/
def follow (index : FieldIndex) (unvisited : List FieldId) (pending : List Field) :
    Except ConfigError Unit :=
  match pending with
  | [] => .ok ()
  | f :: fs =>
    if f.id ∈ unvisited then do
      let found ← calculatedAmong index f.dependencies
      follow index (without unvisited f.id) (found.reverse ++ fs)
    else follow index unvisited fs
termination_by (unvisited.length, pending.length)
decreasing_by
  · exact Prod.Lex.left _ _ (length_without_lt ‹_›)
  · exact Prod.Lex.right _ (Nat.lt_succ_self _)

/-- Why a configuration is refused, if it is. The last measure is followed first. -/
def validate : Except ConfigError Unit := do
  checkMeasures [] c.measures
  let index := c.fieldIndex
  follow index index.ids (c.measures.filter (·.isCalculated)).reverse

end Config

end Crosstab.Pivot
