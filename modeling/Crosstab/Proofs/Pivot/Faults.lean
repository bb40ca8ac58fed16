import Crosstab.Proofs.Pivot.Cells
import Mathlib.Logic.Equiv.Prod

/-!
# Faults are the cells without a value

`tableCells` lists the cells of a table in the order in which they are computed, and `accounts`
pairs each with every measure. The faults of a table are the pairs for which it shows nothing, in
this order.
-/

namespace Crosstab.Pivot

/-- A cell of a table: where it stands, what it is computed over, and what it shows for a
measure. -/
structure Cell where
  path : Path
  column : Option String
  entries : List Entry
  shown : FieldId → Option Float

def Cell.place (cell : Cell) : Path × Option String := (cell.path, cell.column)

namespace Config
variable (c : Config)

def columnCells (path : Path) (es : List Entry) (values : Labelled Float) : List Cell :=
  (c.columnKeys es).map fun column =>
    ⟨path, some column, c.inColumn column es, fun id => values.get? (crossLabel column id)⟩

mutual

def rowCells (above : Path) : Row → List Cell
  | ⟨key, _, _, values, crossValues, children, entries⟩ =>
    ⟨above ++ [key], none, entries, values.get?⟩ ::
      (c.columnCells (above ++ [key]) entries crossValues ++ rowsCells (above ++ [key]) children)

def rowsCells (above : Path) : List Row → List Cell
  | [] => []
  | r :: rs => rowCells above r ++ rowsCells above rs

end

def tableCells (es : List Entry) (t : Table) : List Cell :=
  c.rowsCells [] t.rows ++
    ⟨[], none, es, t.grandTotal.get?⟩ :: c.columnCells [] es t.columnTotals

def accounts (cells : List Cell) : List (Cell × Field) :=
  cells.flatMap fun cell => c.measures.map fun m => (cell, m)

def fault? (p : Cell × Field) : Option Fault :=
  match c.outcomeOver p.2 p.1.entries with
  | .ok _ => none
  | .error e => some ⟨p.1.path, p.1.column, p.2.id, e⟩

def lineCells (path : Path) (es : List Entry) : List Cell :=
  ⟨path, none, es, (Labelled.ofList (cellValues (c.outcomes c.fieldIndex es))).get?⟩ ::
    c.columnCells path es (.ofList (c.columnEntries es))

theorem rowsCells_eq_flatMap (above : Path) (rows : List Row) :
    c.rowsCells above rows = rows.flatMap (c.rowCells above) := by
  induction rows with
  | nil => rfl
  | cons r rs ih => rw [rowsCells, ih, List.flatMap_cons]

theorem rowsCells_rowsBy {f : Field} {fs : List Field} {es : List Entry}
    (h : Keyed (f :: fs) es) (hcol : Keyed c.column.toList es) (above : Path) :
    c.rowsCells above (c.rowsBy c.fieldIndex (f :: fs) above.length above es).1 =
      (canonicalKeys f es).flatMap fun key =>
        c.lineCells (above ++ [key]) (withKey f key es) ++
          c.rowsCells (above ++ [key])
            (c.rowsBy c.fieldIndex fs (above ++ [key]).length (above ++ [key])
              (withKey f key es)).1 := by
  rw [c.rowsBy_rows c.fieldIndex h, rowsCells_eq_flatMap, List.flatMap_map]
  apply List.flatMap_congr
  intro key _
  rw [rowFor, rowCells, c.crossTab_eq (hcol.withKey f key)]
  rfl

theorem tableCells_compute (records : List Record) :
    c.tableCells (c.passed (Entry.ofRecords records)) (c.compute records) =
      c.rowsCells [] (c.rowsBy c.fieldIndex c.rows 0 []
        (c.passed (Entry.ofRecords records))).1 ++
        c.lineCells [] (c.passed (Entry.ofRecords records)) := by
  rw [tableCells, compute, c.crossTab_eq (keyed_columns c _)]
  rfl

/-! ### Faults of a line and of a tree -/

theorem accounts_append (cells cells' : List Cell) :
    c.accounts (cells ++ cells') = c.accounts cells ++ c.accounts cells' :=
  List.flatMap_append

theorem filterMap_accounts (cells : List Cell) :
    (c.accounts cells).filterMap c.fault? =
      cells.flatMap fun cell =>
        cellFaults cell.path cell.column (c.outcomes c.fieldIndex cell.entries) := by
  rw [accounts, List.filterMap_flatMap]
  apply List.flatMap_congr
  intro cell _
  rw [c.outcomes_eq, cellFaults, List.filterMap_map, List.filterMap_map]
  apply List.filterMap_congr
  intro m _
  cases hm : c.outcomeOver m cell.entries <;> simp [fault?, hm]

theorem faults_lineCells {es : List Entry} (hcol : Keyed c.column.toList es) (path : Path) :
    (c.accounts (c.lineCells path es)).filterMap c.fault? =
      cellFaults path none (c.outcomes c.fieldIndex es) ++
        (c.crossTab c.fieldIndex path es).faults := by
  rw [filterMap_accounts, c.crossTab_eq hcol, lineCells, columnCells, List.flatMap_cons,
    List.flatMap_map]

theorem faults_rowsCells {fs : List Field} {es : List Entry} (h : Keyed fs es)
    (hcol : Keyed c.column.toList es) (above : Path) :
    (c.accounts (c.rowsCells above (c.rowsBy c.fieldIndex fs above.length above es).1)).filterMap
        c.fault? =
      (c.rowsBy c.fieldIndex fs above.length above es).2 := by
  induction fs generalizing es above with
  | nil => rfl
  | cons f fs ih =>
    rw [c.rowsCells_rowsBy h hcol, c.rowsBy_faults c.fieldIndex h, filterMap_accounts,
      List.flatMap_assoc]
    apply List.flatMap_congr
    intro key _
    rw [← filterMap_accounts, accounts_append, List.filterMap_append,
      c.faults_lineCells (hcol.withKey f key),
      ih (h.tail.withKey f key) (hcol.withKey f key)]

theorem faults_compute (records : List Record) :
    (c.compute records).faults =
      (c.accounts (c.tableCells (c.passed (Entry.ofRecords records))
        (c.compute records))).filterMap c.fault? := by
  rw [tableCells_compute, accounts_append, List.filterMap_append,
    c.faults_lineCells (keyed_columns c _)]
  rw [show (0 : Nat) = ([] : Path).length from rfl,
    c.faults_rowsCells (c.keyed_rows _) (keyed_columns c _), compute, List.append_assoc]
  rfl

/-! ### Places -/

theorem path_of_mem_lineCells {path : Path} {es : List Entry} {cell : Cell}
    (h : cell ∈ c.lineCells path es) : cell.path = path := by
  rcases List.mem_cons.1 h with rfl | h
  · rfl
  · obtain ⟨column, -, rfl⟩ := List.mem_map.1 h
    rfl

theorem nodup_lineCells (path : Path) (es : List Entry) :
    ((c.lineCells path es).map Cell.place).Nodup := by
  rw [lineCells, columnCells, List.map_cons, List.map_map, List.nodup_cons]
  constructor
  · simp [Cell.place]
  · apply List.Nodup.map ?_ (nodup_eraseDups _)
    intro column column' h
    simpa [Cell.place] using h

theorem exists_lineCells_of_mem {fs : List Field} {es : List Entry} (h : Keyed fs es)
    (hcol : Keyed c.column.toList es) (above : Path) {cell : Cell}
    (hcell : cell ∈ c.rowsCells above (c.rowsBy c.fieldIndex fs above.length above es).1) :
    ∃ key rest group, cell ∈ c.lineCells (above ++ key :: rest) group := by
  induction fs generalizing es above with
  | nil => cases hcell
  | cons f fs ih =>
    rw [c.rowsCells_rowsBy h hcol] at hcell
    obtain ⟨key, -, hcell⟩ := List.mem_flatMap.1 hcell
    rcases List.mem_append.1 hcell with hline | hbelow
    · exact ⟨key, [], _, hline⟩
    · obtain ⟨key', rest, group, hline⟩ := ih (h.tail.withKey f key) (hcol.withKey f key) _ hbelow
      rw [List.append_assoc] at hline
      exact ⟨key, key' :: rest, group, hline⟩

theorem path_of_mem_rowsCells {fs : List Field} {es : List Entry} (h : Keyed fs es)
    (hcol : Keyed c.column.toList es) (above : Path) {cell : Cell}
    (hcell : cell ∈ c.rowsCells above (c.rowsBy c.fieldIndex fs above.length above es).1) :
    ∃ key rest, cell.path = above ++ key :: rest := by
  obtain ⟨key, rest, group, hline⟩ := c.exists_lineCells_of_mem h hcol above hcell
  exact ⟨key, rest, c.path_of_mem_lineCells hline⟩

theorem nodup_rowsCells {fs : List Field} {es : List Entry} (h : Keyed fs es)
    (hcol : Keyed c.column.toList es) (above : Path) :
    ((c.rowsCells above (c.rowsBy c.fieldIndex fs above.length above es).1).map
      Cell.place).Nodup := by
  induction fs generalizing es above with
  | nil => exact List.nodup_nil
  | cons f fs ih =>
    have hbelow (key : String) {cell : Cell}
        (hcell : cell ∈ c.rowsCells (above ++ [key]) (c.rowsBy c.fieldIndex fs
          (above ++ [key]).length (above ++ [key]) (withKey f key es)).1) :=
      c.path_of_mem_rowsCells (h.tail.withKey f key) (hcol.withKey f key) (above ++ [key]) hcell
    rw [c.rowsCells_rowsBy h hcol, List.map_flatMap, List.nodup_flatMap]
    constructor
    · intro key _
      rw [List.map_append, List.nodup_append]
      refine ⟨c.nodup_lineCells _ _, ih (h.tail.withKey f key) (hcol.withKey f key) _, ?_⟩
      rintro _ hmem _ hmem' rfl
      obtain ⟨cell, hline, rfl⟩ := List.mem_map.1 hmem
      obtain ⟨cell', hcell, hplace⟩ := List.mem_map.1 hmem'
      obtain ⟨key', rest, hpath⟩ := hbelow key hcell
      have heq : cell'.path = cell.path := congrArg Prod.fst hplace
      rw [hpath, c.path_of_mem_lineCells hline] at heq
      simp at heq
    · refine (nodup_canonicalKeys f es).imp ?_
      have hstart {key : String} {place : Path × Option String}
          (hmem : place ∈ (c.lineCells (above ++ [key]) (withKey f key es) ++
            c.rowsCells (above ++ [key]) (c.rowsBy c.fieldIndex fs (above ++ [key]).length
              (above ++ [key]) (withKey f key es)).1).map Cell.place) :
          ∃ rest, place.1 = above ++ key :: rest := by
        obtain ⟨cell, hcell, rfl⟩ := List.mem_map.1 hmem
        rcases List.mem_append.1 hcell with hline | hcell
        · exact ⟨[], c.path_of_mem_lineCells hline⟩
        · obtain ⟨key', rest, hpath⟩ := hbelow key hcell
          exact ⟨key' :: rest, by rw [Cell.place, hpath, List.append_assoc]; rfl⟩
      intro key key' hne place hmem hmem'
      obtain ⟨rest, hrest⟩ := hstart hmem
      obtain ⟨rest', hrest'⟩ := hstart hmem'
      have heq := List.append_cancel_left (hrest.symm.trans hrest')
      exact hne (List.cons.inj heq).1

theorem nodup_tableCells (records : List Record) :
    ((c.tableCells (c.passed (Entry.ofRecords records)) (c.compute records)).map
      Cell.place).Nodup := by
  have hrows := c.keyed_rows (Entry.ofRecords records)
  have hcol := keyed_columns c (Entry.ofRecords records)
  rw [tableCells_compute, List.map_append, List.nodup_append]
  refine ⟨c.nodup_rowsCells hrows hcol [], c.nodup_lineCells _ _, ?_⟩
  rintro _ hmem _ hmem' rfl
  obtain ⟨cell, hcell, rfl⟩ := List.mem_map.1 hmem
  obtain ⟨cell', hline, hplace⟩ := List.mem_map.1 hmem'
  obtain ⟨key, rest, hpath⟩ := c.path_of_mem_rowsCells hrows hcol [] hcell
  have heq : cell'.path = cell.path := congrArg Prod.fst hplace
  rw [hpath, c.path_of_mem_lineCells hline] at heq
  simp at heq

/-! ### Values -/

def Shows (cell : Cell) : Prop :=
  ∀ m ∈ c.measures, ∀ x, cell.shown m.id = some x ↔ c.outcomeOver m cell.entries = .ok x

section
variable (hc : c.validate = .ok ()) (hids : ∀ m ∈ c.measures, ':' ∉ m.id.toList)
include hc hids

theorem shows_lineCells {path : Path} {es : List Entry} {cell : Cell}
    (h : cell ∈ c.lineCells path es) : c.Shows cell := by
  intro m hm x
  rcases List.mem_cons.1 h with rfl | h
  · exact (showsMeasures c hc es).value hm x
  · obtain ⟨column, hcolumn, rfl⟩ := List.mem_map.1 h
    refine ((showsColumns c hc hids es).value column hm x).trans (and_iff_right ?_)
    exact c.mem_columnKeys.1 hcolumn

theorem shows_tableCells (records : List Record) {cell : Cell}
    (hcell : cell ∈ c.tableCells (c.passed (Entry.ofRecords records)) (c.compute records)) :
    c.Shows cell := by
  rw [tableCells_compute] at hcell
  rcases List.mem_append.1 hcell with hrow | hline
  · obtain ⟨key, rest, group, hline⟩ :=
      c.exists_lineCells_of_mem (c.keyed_rows _) (keyed_columns c _) [] hrow
    exact c.shows_lineCells hc hids hline
  · exact c.shows_lineCells hc hids hline

end

theorem nodup_accounts (hc : c.validate = .ok ()) {cells : List Cell}
    (h : (cells.map Cell.place).Nodup) :
    ((c.accounts cells).map fun p => (p.1.path, p.1.column, p.2.id)).Nodup := by
  have hpairs : (c.accounts cells).map (fun p => (p.1.place, p.2.id)) =
      (cells.map Cell.place) ×ˢ (c.measures.map (·.id)) := by
    simp [accounts, SProd.sprod, List.product, List.map_flatMap, List.flatMap_map,
      Function.comp_def]
  have hnodup := (h.product (c.nodup_measures hc)).map (Equiv.prodAssoc _ _ _).injective
  rw [← hpairs, List.map_map] at hnodup
  exact hnodup

theorem isCalculated_of_outcomeOver {m : Field} {es : List Entry} {e : EvalError}
    (h : c.outcomeOver m es = .error e) : m.isCalculated = true := by
  by_contra hbase
  rw [outcomeOver, if_neg hbase] at h
  cases h

end Config

theorem forall₂_filterMap_filter {α β : Type} {R : β → α → Prop} {g : α → Option β}
    {q : α → Bool} (as : List α) (hq : ∀ a ∈ as, q a = (g a).isSome)
    (hR : ∀ a ∈ as, ∀ b, g a = some b → R b a) :
    List.Forall₂ R (as.filterMap g) (as.filter q) := by
  induction as with
  | nil => exact .nil
  | cons a as ih =>
    have hrest := ih (fun b hb => hq b (List.mem_cons_of_mem a hb))
      (fun b hb => hR b (List.mem_cons_of_mem a hb))
    have hqa := hq a List.mem_cons_self
    cases hg : g a with
    | none =>
      rw [hg] at hqa
      rw [List.filterMap_cons_none hg, List.filter_cons_of_neg (by simp [hqa])]
      exact hrest
    | some b =>
      rw [hg] at hqa
      rw [List.filterMap_cons_some hg, List.filter_cons_of_pos (by simp [hqa])]
      exact .cons (hR a List.mem_cons_self b hg) hrest

/-- A fault reports a measure that could not be computed in a cell. -/
structure Reports (c : Config) (fault : Fault) (p : Cell × Field) : Prop where
  path : fault.path = p.1.path
  column : fault.column = p.1.column
  measure : fault.measure = p.2.id
  error : c.outcomeOver p.2 p.1.entries = .error fault.error

theorem reports_of_fault? {c : Config} {p : Cell × Field} {fault : Fault}
    (h : c.fault? p = some fault) : Reports c fault p := by
  unfold Config.fault? at h
  split at h
  · cases h
  · obtain rfl := Option.some.inj h
    exact ⟨rfl, rfl, rfl, ‹_›⟩

/-- The faults of a table are the cells and measures without a value, in the order of the cells,
and each once. Only calculated measures have faults. -/
theorem tabulate_faults (records : List Record) (c : Config) (hc : c.validate = .ok ())
    (hids : ∀ m ∈ c.measures, ':' ∉ m.id.toList) :
    ∃ t, tabulate records c = .ok t ∧
      let cells := c.tableCells (c.passed (Entry.ofRecords records)) t
      List.Forall₂ (Reports c) t.faults
          ((c.accounts cells).filter fun p => (p.1.shown p.2.id).isNone) ∧
        (cells.map fun cell => (cell.path, cell.column)).Nodup ∧
        (∀ fault ∈ t.faults, ∀ m ∈ c.measures, m.id = fault.measure → m.isCalculated = true) ∧
        (t.faults.map fun fault => (fault.path, fault.column, fault.measure)).Nodup := by
  refine ⟨c.compute records, by rw [tabulate, hc]; rfl, ?_, c.nodup_tableCells records, ?_, ?_⟩
  · rw [c.faults_compute]
    apply forall₂_filterMap_filter
    · rintro ⟨cell, m⟩ hp
      obtain ⟨cell', hcell, hp⟩ := List.mem_flatMap.1 hp
      obtain ⟨m', hm, hp⟩ := List.mem_map.1 hp
      obtain ⟨rfl, rfl⟩ := Prod.mk.inj hp
      have hshows := c.shows_tableCells hc hids records hcell m' hm
      cases ho : c.outcomeOver m' cell'.entries with
      | ok x => simp [Config.fault?, ho, (hshows x).2 ho]
      | error e =>
        have hnone : cell'.shown m'.id = none :=
          Option.eq_none_iff_forall_ne_some.2 fun x hx => by simp [(hshows x).1 hx] at ho
        simp [Config.fault?, ho, hnone]
    · intro p _ fault hfault
      exact reports_of_fault? hfault
  · intro fault hfault m hm hid
    rw [c.faults_compute] at hfault
    obtain ⟨⟨cell, m'⟩, hp, hfault⟩ := List.mem_filterMap.1 hfault
    have hreports := reports_of_fault? hfault
    obtain ⟨cell', -, hp⟩ := List.mem_flatMap.1 hp
    obtain ⟨m'', hm', hp⟩ := List.mem_map.1 hp
    obtain ⟨rfl, rfl⟩ := Prod.mk.inj hp
    rw [eq_of_measure_id c hc hm hm' (hid.trans hreports.measure)]
    exact c.isCalculated_of_outcomeOver hreports.error
  · rw [c.faults_compute]
    refine (c.nodup_accounts hc (c.nodup_tableCells records)).sublist ?_
    apply map_filterMap_sublist
    intro p fault hfault
    have hreports := reports_of_fault? hfault
    rw [hreports.path, hreports.column, hreports.measure]

theorem ledger_faults :
    (ledgerConfig.validate = .ok () ∧ ∀ m ∈ ledgerConfig.measures, ':' ∉ m.id.toList) ∧
    ∃ t, tabulate ledger ledgerConfig = .ok t ∧
      let cells := ledgerConfig.tableCells (ledgerConfig.passed (Entry.ofRecords ledger)) t
      List.Forall₂ (Reports ledgerConfig) t.faults
          ((ledgerConfig.accounts cells).filter fun p => (p.1.shown p.2.id).isNone) ∧
        (cells.map fun cell => (cell.path, cell.column)).Nodup ∧
        (∀ fault ∈ t.faults, ∀ m ∈ ledgerConfig.measures, m.id = fault.measure →
          m.isCalculated = true) ∧
        (t.faults.map fun fault => (fault.path, fault.column, fault.measure)).Nodup :=
  ⟨⟨by cbv, by decide⟩, tabulate_faults ledger ledgerConfig (by cbv) (by decide)⟩

end Crosstab.Pivot
