import Crosstab.Proofs.Pivot.DrillDown
import Crosstab.Proofs.Pivot.Lines

/-!
# Columns as rows

The column field can be made the last of the row fields instead. The rows of the one table are rows
of the other, and the cells by column value of a line come back as the rows below it, in the same
order, with the same values and the same faults.
-/

namespace Crosstab.Pivot

/-! ### Longer paths -/

/-- Fields that come after those of a path do not count. -/
theorem along_append {fs : List Field} {path : Path} (h : path.length ≤ fs.length)
    (gs : List Field) (es : List Entry) : along (fs ++ gs) path es = along fs path es := by
  induction fs generalizing path es with
  | nil =>
    obtain rfl := List.length_eq_zero_iff.1 (Nat.le_zero.1 h)
    rw [along_nil, along_nil]
  | cons f fs ih =>
    cases path with
    | nil => rw [along_nil, along_nil]
    | cons key path =>
      rw [List.cons_append, along_cons, along_cons, ih (Nat.le_of_succ_le_succ h)]

theorem along_concat {fs : List Field} {path : Path} (h : path.length = fs.length) (f : Field)
    (key : String) (es : List Entry) :
    along (fs ++ [f]) (path ++ [key]) es = withKey f key (along fs path es) := by
  induction fs generalizing path es with
  | nil =>
    obtain rfl := List.length_eq_zero_iff.1 h
    rw [List.nil_append, List.nil_append, along_cons, along_nil, along_nil]
  | cons f' fs ih =>
    cases path with
    | nil => cases h
    | cons key' path =>
      rw [List.cons_append, List.cons_append, along_cons, along_cons, ih (Nat.succ.inj h)]

/-! ### What the tables have in common -/

/-- The cells by column value of a line stand below it in another table. -/
structure StandsBelow (c : Config) (t t' : Table) (path : Path) (columns : List String)
    (values : Labelled Float) (below : List Row) : Prop where
  columns : below.map (·.key) = columns
  values (column : String) {m : Field} (hm : m ∈ c.measures) :
    values.get? (crossLabel column m.id) =
      (t'.findRow (path ++ [column])).bind (·.values.get? m.id)
  faults (column : String) :
    t'.faults.filter (·.path = path ++ [column]) =
      (t.faults.filter fun f => f.path = path ∧ f.column = some column).map fun f =>
        { f with path := path ++ [column], column := none }

/-- A table by columns, and one with the columns as rows. -/
structure ColumnsBelow (c : Config) (t t' : Table) : Prop where
  dataErrors : t'.dataErrors = t.dataErrors
  recordCount : t'.recordCount = t.recordCount
  rows {path : Path} {r : Row} : RowAt t.rows path r →
    ∃ r', RowAt t'.rows path r' ∧ r'.values = r.values
  terminal {path : Path} {r r' : Row} : TerminalAt t.rows path r → RowAt t'.rows path r' →
    StandsBelow c t t' path (c.columnKeys r.entries) r.crossValues r'.children
  totals : c.rows = [] → StandsBelow c t t' [] t.columnValues t.columnTotals t'.rows

namespace Config
variable (c : Config)

theorem findRow_compute {records : List Record} {path : Path} {r : Row} :
    (c.compute records).findRow path = some r ↔ RowAt (c.compute records).rows path r :=
  findIn_eq_some_iff (c.rowTree_compute records).siblingsDiffer

def columnsAsRows : Config := { c with rows := c.rows ++ c.column.toList, column := none }

theorem fieldIndex_columnsAsRows : c.columnsAsRows.fieldIndex = c.fieldIndex := by
  simp [fieldIndex, columnsAsRows]

theorem validate_columnsAsRows : c.columnsAsRows.validate = c.validate := by
  rw [validate, validate, fieldIndex_columnsAsRows]
  rfl

theorem invalidDate?_columnsAsRows : c.columnsAsRows.invalidDate? = c.invalidDate? := by
  have hdates : c.columnsAsRows.dateFields = c.dateFields := by
    simp [dateFields, columnsAsRows]
  funext e
  rw [invalidDate?, invalidDate?, hdates]

theorem dataErrors_columnsAsRows (es : List Entry) :
    c.columnsAsRows.dataErrors es = c.dataErrors es := by
  rw [dataErrors, dataErrors, invalidDate?_columnsAsRows]

theorem passed_columnsAsRows (es : List Entry) : c.columnsAsRows.passed es = c.passed es := by
  apply List.filter_congr
  intro e _
  rw [passes, passes, invalidDate?_columnsAsRows]
  rfl

theorem outcomes_columnsAsRows (es : List Entry) :
    c.columnsAsRows.outcomes c.columnsAsRows.fieldIndex es = c.outcomes c.fieldIndex es := by
  rw [fieldIndex_columnsAsRows]
  rfl

theorem lineFaults_columnsAsRows (path : Path) (es : List Entry) :
    c.columnsAsRows.lineFaults c.columnsAsRows.fieldIndex path es =
      cellFaults path none (c.outcomes c.fieldIndex es) := by
  rw [lineFaults, outcomes_columnsAsRows]
  exact List.append_nil _

theorem outcomeOver_columnsAsRows (m : Field) (es : List Entry) :
    c.columnsAsRows.outcomeOver m es = c.outcomeOver m es := by
  rw [outcomeOver, fieldIndex_columnsAsRows, outcomeOver]

/-! ### Columns of a line -/

theorem inColumn_ne_nil_iff {column : String} {es : List Entry} :
    c.inColumn column es ≠ [] ↔ column ∈ c.columnKeys es := by
  rw [mem_columnKeys]
  simp [inColumn, List.filter_eq_nil_iff]

theorem filter_column_lineFaults {es : List Entry} (h : Keyed c.column.toList es) (path : Path)
    (column : String) :
    (c.lineFaults c.fieldIndex path es).filter (·.column = some column) =
      if column ∈ c.columnKeys es then
        cellFaults path (some column) (c.outcomes c.fieldIndex (c.inColumn column es))
      else [] := by
  have hown : (cellFaults path none (c.outcomes c.fieldIndex es)).filter
      (·.column = some column) = [] := by
    apply List.filter_eq_nil_iff.2
    intro fault hfault
    simp [(path_of_mem_cellFaults hfault).2]
  have hself : (cellFaults path (some column) (c.outcomes c.fieldIndex
      (c.inColumn column es))).filter (·.column = some column) =
        cellFaults path (some column) (c.outcomes c.fieldIndex (c.inColumn column es)) := by
    apply List.filter_eq_self.2
    intro fault hfault
    simp [(path_of_mem_cellFaults hfault).2]
  have hother : ∀ column' ≠ column, (cellFaults path (some column') (c.outcomes c.fieldIndex
      (c.inColumn column' es))).filter (·.column = some column) = [] := by
    intro column' hne
    apply List.filter_eq_nil_iff.2
    intro fault hfault
    simp [(path_of_mem_cellFaults hfault).2, hne]
  have hkeys : (c.columnKeys es).Nodup := nodup_eraseDups _
  rw [lineFaults, c.crossTab_eq h, List.filter_append, hown, List.nil_append,
    List.filter_flatMap, flatMap_eq_of_nodup hkeys hother, hself]

section
variable {c} {f : Field} (hcolumn : c.column = some f) {records : List Record} {path : Path}
  (hpath : path.length = c.rows.length) {es : List Entry}
  (hes : along c.rows path (c.passed (Entry.ofRecords records)) = es)
include hcolumn hpath

theorem length_columnsAsRows (column : String) :
    (path ++ [column]).length = c.columnsAsRows.rows.length := by
  rw [columnsAsRows, hcolumn, Option.toList_some, List.length_append, List.length_append, hpath,
    List.length_singleton, List.length_singleton]

include hes

/-- One more key leads to the entries of a line that have that column value. -/
theorem along_columnsAsRows (column : String) :
    along c.columnsAsRows.rows (path ++ [column])
        (c.columnsAsRows.passed (Entry.ofRecords records)) = c.inColumn column es := by
  rw [passed_columnsAsRows, columnsAsRows, hcolumn, Option.toList_some, along_concat hpath, hes,
    inColumn, c.columnKey?_eq hcolumn, withKey]

theorem rowAt_columnsAsRows {column : String} {r : Row} :
    RowAt (c.columnsAsRows.compute records).rows (path ++ [column]) r ↔
      column ∈ c.columnKeys es ∧
        r = c.columnsAsRows.rowFor c.columnsAsRows.fieldIndex [] (path ++ [column]) column
          (c.inColumn column es) := by
  have hlen := length_columnsAsRows hcolumn hpath column
  rw [rowAt_compute, along_columnsAsRows hcolumn hpath hes, inColumn_ne_nil_iff,
    List.drop_eq_nil_of_le hlen.ge, List.getLast?_concat]
  constructor
  · rintro ⟨key, hkey, -, hmem, hr⟩
    obtain rfl := Option.some.inj hkey
    exact ⟨hmem, hr⟩
  · rintro ⟨hmem, hr⟩
    exact ⟨column, rfl, hlen.le, hmem, hr⟩

theorem filter_path_columnsAsRows (column : String) :
    (c.columnsAsRows.compute records).faults.filter (·.path = path ++ [column]) =
      if column ∈ c.columnKeys es then
        cellFaults (path ++ [column]) none (c.outcomes c.fieldIndex (c.inColumn column es))
      else [] := by
  have hlen := length_columnsAsRows hcolumn hpath column
  have hnil : path ++ [column] ≠ [] := List.append_ne_nil_of_right_ne_nil _ (List.cons_ne_nil _ _)
  rw [filter_path_compute, along_columnsAsRows hcolumn hpath hes, lineFaults_columnsAsRows]
  simp only [inColumn_ne_nil_iff, or_iff_right hnil, and_iff_right hlen.le]

/-- The cells of a line that no rows stand below come back as rows below it. -/
theorem standsBelow_columnsAsRows (hc : c.validate = .ok ()) {values : Labelled Float}
    {below : List Row} (hbelow : below.map (·.key) = c.columnKeys es)
    (hvalues : ShowsColumns c es values)
    (hfaults : (c.compute records).faults.filter (·.path = path) =
      c.lineFaults c.fieldIndex path es) :
    StandsBelow c (c.compute records) (c.columnsAsRows.compute records) path (c.columnKeys es)
      values below := by
  constructor
  case columns => exact hbelow
  case values =>
    intro column m hm
    have hc' : c.columnsAsRows.validate = .ok () := by rw [validate_columnsAsRows, hc]
    have hshows := (showsMeasures c.columnsAsRows hc' (c.inColumn column es)).value hm
    apply Option.ext
    intro x
    -- both sides need an entry in the column and the outcome over the entries there
    rw [hvalues.value column hm, ← mem_columnKeys, ← outcomeOver_columnsAsRows, ← hshows,
      Option.bind_eq_some_iff]
    simp only [findRow_compute, rowAt_columnsAsRows hcolumn hpath hes]
    constructor
    · rintro ⟨hmem, hx⟩
      exact ⟨_, ⟨hmem, rfl⟩, hx⟩
    · rintro ⟨r, ⟨hmem, rfl⟩, hx⟩
      exact ⟨hmem, hx⟩
  case faults =>
    intro column
    have hkeyed : Keyed c.column.toList es := hes ▸ (keyed_columns c _).along c.rows path
    have hboth : (c.compute records).faults.filter
        (fun f => f.path = path ∧ f.column = some column) =
          (c.lineFaults c.fieldIndex path es).filter (·.column = some column) := by
      rw [← hfaults, List.filter_filter]
      simp only [Bool.decide_and, Bool.and_comm]
    rw [hboth, c.filter_column_lineFaults hkeyed, filter_path_columnsAsRows hcolumn hpath hes]
    split_ifs
    · exact (map_cellFaults (fun _ _ => rfl) _).symm
    · rfl

end

/-! ### Tables -/

theorem exists_row_columnsAsRows {records : List Record} {path : Path} {r : Row}
    (hr : RowAt (c.compute records).rows path r) :
    ∃ r', RowAt (c.columnsAsRows.compute records).rows path r' ∧ r'.entries = r.entries ∧
      r'.values = r.values := by
  obtain ⟨key, hkey, hlen, hne, rfl⟩ := (c.rowAt_compute records path r).1 hr
  have hlen' : path.length ≤ c.columnsAsRows.rows.length := by
    rw [columnsAsRows, List.length_append]
    exact Nat.le_add_right_of_le hlen
  have halong : along c.columnsAsRows.rows path
      (c.columnsAsRows.passed (Entry.ofRecords records)) =
        along c.rows path (c.passed (Entry.ofRecords records)) := by
    rw [passed_columnsAsRows]
    exact along_append hlen _ _
  refine ⟨_, (c.columnsAsRows.rowAt_compute records path _).2 ⟨key, hkey, hlen', ?_, rfl⟩,
    halong, ?_⟩
  · rwa [halong]
  · rw [rowFor, rowFor, halong, outcomes_columnsAsRows]

/-- With the columns as rows a table has the same rows, and below the last of them, or at the top if
there are none, the cells by column value. -/
theorem columnsBelow_compute (hc : c.validate = .ok ())
    (hids : ∀ m ∈ c.measures, ':' ∉ m.id.toList) {f : Field} (hcolumn : c.column = some f)
    (records : List Record) :
    ColumnsBelow c (c.compute records) (c.columnsAsRows.compute records) := by
  have htree := c.columnsAsRows.rowTree_compute records
  have hkeys (es : List Entry) : levelKeys [f] es = c.columnKeys es :=
    (c.columnKeys_eq hcolumn es).symm
  constructor
  case dataErrors => exact c.dataErrors_columnsAsRows _
  case recordCount => exact congrArg List.length (c.passed_columnsAsRows _)
  case rows =>
    intro path r hr
    obtain ⟨r', hr', -, hvalues⟩ := c.exists_row_columnsAsRows hr
    exact ⟨r', hr', hvalues⟩
  case terminal =>
    intro path r r' hr hr'
    obtain ⟨hr, hpath⟩ := c.terminalAt_compute.1 hr
    obtain ⟨r'', hr'', hentries, -⟩ := c.exists_row_columnsAsRows hr
    obtain rfl := htree.unique hr' hr''
    have hbelow : r'.children.map (·.key) = c.columnKeys r.entries := by
      have hlast : c.columnsAsRows.rows.drop path.length = [f] := by
        rw [columnsAsRows, hcolumn, hpath]
        exact List.drop_left
      rw [(htree.below hr').keys, hlast, hkeys, hentries]
    exact standsBelow_columnsAsRows hcolumn hpath (c.entries_of_rowAt hr).symm hc hbelow
      (c.shows_rowAt hc hids hr).2 (c.filter_path_of_rowAt hr)
  case totals =>
    intro hrows
    have hpath : ([] : Path).length = c.rows.length := by rw [hrows, List.length_nil, List.length_nil]
    have hbelow : (c.columnsAsRows.compute records).rows.map (·.key) =
        c.columnKeys (c.passed (Entry.ofRecords records)) := by
      have hlast : c.columnsAsRows.rows = [f] := by
        rw [columnsAsRows, hcolumn, hrows]
        rfl
      refine htree.top.keys.trans ?_
      rw [hlast, hkeys, passed_columnsAsRows]
    rw [c.columnValues_compute]
    exact standsBelow_columnsAsRows hcolumn hpath (along_nil _ _) hc hbelow
      (c.shows_columnTotals hc hids records) (c.filter_path_totals records)

end Config

end Crosstab.Pivot
