import Crosstab.Pivot.Compute
import Crosstab.Session.Layout

/-!
# Sessions

A `Session` is what commands work on: the catalog, the records and the current layout. A command
returns its answer and the session after it, or an error, after which the session is what it was.
Ids of new calculated fields are given from outside.

A `Command` reads and writes the current session one step after the other. What it wrote before it
failed stays written.
-/

namespace Crosstab

open Pivot (Path Table)

structure Session where
  catalog : Catalog
  records : List Record
  layout : Session.Layout

namespace Session

inductive CommandError where
  | emptyName
  | config (cause : ConfigError)
  deriving DecidableEq

def CommandError.message : CommandError → String
  | emptyName => "Calculated field name cannot be empty"
  | config cause => cause.message

def ofConfig {α : Type} : Except ConfigError α → Except CommandError α
  | .ok a => .ok a
  | .error e => .error (.config e)

def defaultLayout : Layout where
  rows := ["dataPrevisao"]
  column := some "tipo"
  measures := [⟨"valorConta", none⟩, ⟨"aPagarReceber", none⟩]
  filters := []
  expanded := none

def new : Session := ⟨.financial, [], defaultLayout⟩

inductive Validation where
  | valid (dependencies : List FieldId)
  | invalid (cause : Formula.ParseError)

/-- The table of the current layout with its measures, and the rows in the order of display if the
layout asks for them. -/
structure Report where
  table : Table
  measures : List FieldId
  flat : Option (List Table.FlatRow)

variable (s : Session)

def load (records : List Record) : Session := { s with records := records }

/-- Registers a calculated field under an id that is new. White space around the name and the
formula does not count. -/
def addCalculated (id : FieldId) (name formula : String) : Except CommandError (Field × Session) :=
  let name := Text.trim name
  if name = "" then .error .emptyName
  else do
    let (f, catalog) ← ofConfig (s.catalog.create id name (Text.trim formula))
    return (f, { s with catalog := catalog })

def removeCalculated (id : FieldId) : Except CommandError (Field × Session) := do
  let (f, catalog) ← ofConfig (s.catalog.remove id)
  return (f, { s with catalog := catalog })

def validateFormula (formula : String) : Validation :=
  match Formula.parse s.catalog.resolve (Text.trim formula) with
  | .ok e => .valid e.dependencies
  | .error cause => .invalid cause

def configure (layout : Layout) : Except CommandError Session := do
  let _ ← ofConfig (layout.toConfig s.catalog)
  return { s with layout := layout }

def report : Except CommandError Report := do
  let config ← ofConfig (s.layout.toConfig s.catalog)
  let table ← ofConfig (Pivot.tabulate s.records config)
  return ⟨table, config.measures.map (·.id), s.layout.expanded.map table.flatten⟩

def drillDown (path : Path) : Except CommandError (List Record) := do
  let config ← ofConfig (s.layout.toConfig s.catalog)
  let es ← ofConfig (Pivot.drillDown s.records config path)
  return es.map (·.record)

end Session

end Crosstab

/-! ### Commands -/

namespace Crosstab.Session

open Pivot (Path)

inductive Command where
  | load (records : List Record)
  | fields
  | addCalculated (id : FieldId) (name formula : String)
  | removeCalculated (id : FieldId)
  | validateFormula (formula : String)
  | configure (l : Layout)
  | layout
  | report
  | drillDown (path : Path)

inductive Answer where
  | done
  | count (n : Nat)
  | field (f : Field)
  | fields (fs : List Field)
  | validation (v : Validation)
  | layout (l : Layout)
  | report (r : Report)
  | records (rs : List Record)

abbrev Action (α : Type) := ExceptT CommandError (StateM Session) α

def Action.of {α : Type} (x : Except CommandError α) : Action α := ExceptT.mk (pure x)

def Command.act : Command → Action Answer
  | load records => do
    modify (·.load records)
    return .count records.length
  | fields => do
    let s ← get
    return .fields s.catalog.fields
  | addCalculated id name formula => do
    let name := Text.trim name
    if name = "" then Action.of (.error .emptyName)
    else do
      let s ← get
      let f ← Action.of
        (ofConfig (Field.calculated id name s.catalog.resolve (Text.trim formula)))
      let catalog ← Action.of (ofConfig (s.catalog.register f))
      set { s with catalog := catalog }
      match catalog.get? id with
      | some f => return .field f
      | none => Action.of (.error (.config (.unknownField id .calculated)))
  | removeCalculated id => do
    let s ← get
    let (f, catalog) ← Action.of (ofConfig (s.catalog.remove id))
    set { s with catalog := catalog }
    return .field f
  | validateFormula formula => do
    let s ← get
    return .validation (s.validateFormula formula)
  | configure l => do
    let s ← get
    let _ ← Action.of (ofConfig (l.toConfig s.catalog))
    set { s with layout := l }
    return .done
  | layout => do
    let s ← get
    return .layout s.layout
  | report => do
    let s ← get
    let r ← Action.of s.report
    return .report r
  | drillDown path => do
    let s ← get
    let rs ← Action.of (s.drillDown path)
    return .records rs

end Crosstab.Session
