import Crosstab.Evaluation.Scopes
import Crosstab.Pivot.Config
import Crosstab.Pivot.Table

/-!
# Computing a pivot

Records without a date where one is needed are reported and left out, and the filters sift the
others. What passes is grouped by the row fields, one after the other, and every group is one row:
its measures, its measures by column value, and the rows below it. A measure that cannot be computed
in a cell leaves a fault there and nothing else.

`partition` sorts records into groups by a key. Every record comes into one group, the records of a
group keep their order, and the groups stand in the order in which their keys first occur.
-/

namespace Crosstab.Pivot

/-! ### Groups -/

section
variable {α : Type}

def members (key : String) (groups : List (String × List α)) : List α :=
  match groups.find? (·.1 = key) with
  | some g => g.2
  | none => []

def partition (key : α → String) : List α → List (String × List α)
  | [] => []
  | a :: as =>
    let groups := partition key as
    (key a, a :: members (key a) groups) :: groups.filter (·.1 ≠ key a)

theorem members_cons (k : String) (g : String × List α) (groups : List (String × List α)) :
    members k (g :: groups) = if g.1 = k then g.2 else members k groups := by
  unfold members
  by_cases h : g.1 = k <;> simp [h]

theorem members_filter_ne {k k' : String} (h : k' ≠ k) (groups : List (String × List α)) :
    members k' (groups.filter (·.1 ≠ k)) = members k' groups := by
  induction groups with
  | nil => rfl
  | cons g gs ih => by_cases hg : g.1 = k <;> grind [members_cons]

/-- The group with a key has the records with that key, in order. -/
theorem members_partition (key : α → String) (k : String) (as : List α) :
    members k (partition key as) = as.filter (key · = k) := by
  induction as with
  | nil => rfl
  | cons a as ih =>
    rw [partition, members_cons]
    by_cases h : key a = k
    · subst h
      simp [ih]
    · rw [if_neg h, members_filter_ne (Ne.symm h), ih]
      simp [h]

end

/-- The key of a record for a field. A date that has none was left out before. -/
def keyOf (f : Field) (r : Record) : String := (Value.key? f.type (r.get? f.id)).getD ""

def groupBy (f : Field) (es : List Entry) : List (String × List Entry) :=
  partition (fun e => keyOf f e.record) es

/-! ### Rows and totals -/

namespace Config
variable (c : Config)

def invalidDate? (e : Entry) : Option InvalidDate :=
  (c.dateFields.find? fun f => (Value.key? f.type (e.record.get? f.id)).isNone).map fun f =>
    ⟨e.position, f.id, ((e.record.get? f.id).map Value.display).getD ""⟩

def dataErrors (es : List Entry) : List InvalidDate := es.filterMap c.invalidDate?

def passes (e : Entry) : Bool :=
  (c.invalidDate? e).isNone && c.filters.all (·.admits e.record)

def passed (es : List Entry) : List Entry := es.filter c.passes

/-- The outcome of a measure over some records. A calculated measure is its formula over the group
as a whole. -/
def outcome (index : FieldIndex) (m : Field) (records : List Record) : Except EvalError Float :=
  if m.isCalculated then Evaluation.calculate (Evaluation.groupScope index records) 0 m
  else .ok (aggregate m m.aggregation records)

def outcomes (index : FieldIndex) (es : List Entry) : List (FieldId × Except EvalError Float) :=
  let records := es.map (·.record)
  c.measures.map fun m => (m.id, outcome index m records)

end Config

def cellValues (os : List (FieldId × Except EvalError Float)) : List (FieldId × Float) :=
  os.filterMap fun (id, o) =>
    match o with
    | .ok x => some (id, x)
    | .error _ => none

def cellFaults (path : Path) (column : Option String)
    (os : List (FieldId × Except EvalError Float)) : List Fault :=
  os.filterMap fun (id, o) =>
    match o with
    | .ok _ => none
    | .error e => some ⟨path, column, id, e⟩

/-- The cells of one line of the table by column value: the values in order, the column values, and
the faults. -/
structure CrossTab where
  values : List (String × Float)
  columns : List String
  faults : List Fault

namespace Config
variable (c : Config)

def crossTab (index : FieldIndex) (path : Path) (es : List Entry) : CrossTab :=
  match c.column with
  | none => ⟨[], [], []⟩
  | some f =>
    let cells := (groupBy f es).map fun (column, group) => (column, c.outcomes index group)
    { values := cells.flatMap fun (column, os) =>
        (cellValues os).map fun (id, x) => (crossLabel column id, x)
      columns := cells.map (·.1)
      faults := cells.flatMap fun (column, os) => cellFaults path (some column) os }

/-- The rows for the given row fields over some records, and their faults: of each row first its
own, then those of its columns, then those of the rows below it. -/
def rowsBy (index : FieldIndex) : List Field → (depth : Nat) → Path → List Entry →
    List Row × List Fault
  | [], _, _, _ => ([], [])
  | f :: fs, depth, above, es =>
    let built := (groupBy f es).map fun (key, group) =>
      let path := above ++ [key]
      let os := c.outcomes index group
      let cross := c.crossTab index path group
      let below := rowsBy index fs (depth + 1) path group
      let row : Row :=
        { key := key
          label := key
          depth := depth
          values := .ofList (cellValues os)
          crossValues := .ofList cross.values
          children := below.1
          entries := group }
      (row, cellFaults path none os ++ cross.faults ++ below.2)
    (built.map (·.1), built.flatMap (·.2))

def compute (records : List Record) : Table :=
  let index := c.fieldIndex
  let all := Entry.ofRecords records
  let es := c.passed all
  let rows := c.rowsBy index c.rows 0 [] es
  let total := c.outcomes index es
  let cross := c.crossTab index [] es
  { rows := rows.1
    grandTotal := .ofList (cellValues total)
    columnTotals := .ofList cross.values
    columnValues := cross.columns
    recordCount := es.length
    faults := rows.2 ++ cellFaults [] none total ++ cross.faults
    dataErrors := c.dataErrors all }

end Config

def tabulate (records : List Record) (c : Config) : Except ConfigError Table := do
  c.validate
  return c.compute records

theorem tabulate_of_validate {c : Config} (hc : c.validate = .ok ()) (records : List Record) :
    tabulate records c = .ok (c.compute records) := by
  rw [tabulate, hc]
  rfl

/-- The records of the row at a path, found without the table: those that take part and have the
path's keys in the row fields. -/
def drillDown (records : List Record) (c : Config) (path : Path) :
    Except ConfigError (List Entry) := do
  c.validate
  if c.rows.length < path.length then return []
  else
    return (c.passed (Entry.ofRecords records)).filter fun e =>
      (c.rows.zip path).all fun (f, key) => Value.key? f.type (e.record.get? f.id) = some key

end Crosstab.Pivot
