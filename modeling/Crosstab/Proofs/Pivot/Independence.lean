import Crosstab.Proofs.Pivot.Lines
import Crosstab.Proofs.Pivot.References

/-!
# Measures do not interfere

Two configurations that sort and sift records alike may have different measures. A measure of both
has the same values and the same faults in both tables, as long as formulas find the same fields:
no measure is computed from what another one comes to.
-/

namespace Crosstab.Pivot

/-- Two tables have the same cells, and show and report the same of a measure in each of them. -/
structure SameMeasure (id : FieldId) (t t' : Table) : Prop where
  rows (path : Path) : (∃ r, RowAt t'.rows path r) ↔ ∃ r, RowAt t.rows path r
  values {path : Path} {r r' : Row} : RowAt t.rows path r → RowAt t'.rows path r' →
    r'.values.get? id = r.values.get? id
  crossValues {path : Path} {r r' : Row} (column : String) : RowAt t.rows path r →
    RowAt t'.rows path r' →
    r'.crossValues.get? (crossLabel column id) = r.crossValues.get? (crossLabel column id)
  grandTotal : t'.grandTotal.get? id = t.grandTotal.get? id
  columnTotals (column : String) :
    t'.columnTotals.get? (crossLabel column id) = t.columnTotals.get? (crossLabel column id)
  columnValues : t'.columnValues = t.columnValues
  faults : t'.faults.filter (·.measure = id) = t.faults.filter (·.measure = id)

theorem filter_measure_cellFaults (path : Path) (column : Option String)
    (os : List (FieldId × Except EvalError Float)) (id : FieldId) :
    (cellFaults path column os).filter (·.measure = id) =
      cellFaults path column (os.filter (·.1 = id)) := by
  induction os with
  | nil => rfl
  | cons o os ih =>
    obtain ⟨id', x⟩ := o
    by_cases hid : id' = id <;> cases x <;> simp_all [cellFaults]

theorem ShowsMeasures.get?_eq {c c' : Config} {es : List Entry} {values values' : Labelled Float}
    (h : ShowsMeasures c es values) (h' : ShowsMeasures c' es values') {m : Field}
    (hm : m ∈ c.measures) (hm' : m ∈ c'.measures)
    (ho : c'.outcomeOver m es = c.outcomeOver m es) :
    values'.get? m.id = values.get? m.id := by
  apply Option.ext
  intro x
  rw [h'.value hm', h.value hm, ho]

theorem ShowsColumns.get?_eq {c : Config} {ms : List Field} {es : List Entry}
    {values values' : Labelled Float} (h : ShowsColumns c es values)
    (h' : ShowsColumns { c with measures := ms } es values') {m : Field} (hm : m ∈ c.measures)
    (hm' : m ∈ ms) (ho : ∀ es, { c with measures := ms }.outcomeOver m es = c.outcomeOver m es)
    (column : String) :
    values'.get? (crossLabel column m.id) = values.get? (crossLabel column m.id) := by
  apply Option.ext
  intro x
  rw [h'.value column hm', h.value column hm, ho]
  rfl

namespace Config
variable {c : Config}

theorem filter_outcomes (hc : c.validate = .ok ()) {m : Field} (hm : m ∈ c.measures)
    (es : List Entry) :
    (c.outcomes c.fieldIndex es).filter (·.1 = m.id) = [(m.id, c.outcomeOver m es)] := by
  have hsame : c.measures.filter (·.id = m.id) = [m] :=
    filter_key_eq_singleton (c.nodup_measures hc) hm
  rw [c.outcomes_eq, List.filter_map]
  exact congrArg (List.map fun m => (m.id, c.outcomeOver m es)) hsame

variable {ms : List Field} (hc : c.validate = .ok ())
  (hc' : { c with measures := ms }.validate = .ok ())
  (hindex : ∀ id, { c with measures := ms }.fieldIndex.get? id = c.fieldIndex.get? id)
  {m : Field} (hm : m ∈ c.measures) (hm' : m ∈ ms)

include hindex hm in
theorem outcomeOver_measures (es : List Entry) :
    { c with measures := ms }.outcomeOver m es = c.outcomeOver m es :=
  outcome_congr (fun _ _ id _ => hindex id) hm _

section
include hc hc' hindex hm hm'

/-! ### Faults -/

theorem filter_measure_outcomes (path : Path) (column : Option String) (es : List Entry) :
    (cellFaults path column ({ c with measures := ms }.outcomes
        { c with measures := ms }.fieldIndex es)).filter (·.measure = m.id) =
      (cellFaults path column (c.outcomes c.fieldIndex es)).filter (·.measure = m.id) := by
  rw [filter_measure_cellFaults, filter_measure_cellFaults, filter_outcomes hc hm,
    filter_outcomes hc' hm', outcomeOver_measures hindex hm]

theorem filter_measure_crossTab (path : Path) (es : List Entry) :
    ({ c with measures := ms }.crossTab { c with measures := ms }.fieldIndex path es).faults.filter
        (·.measure = m.id) =
      (c.crossTab c.fieldIndex path es).faults.filter (·.measure = m.id) := by
  simp only [crossTab_faults, List.filter_flatMap, filter_measure_outcomes hc hc' hindex hm hm']

theorem filter_measure_rowsBy (fs : List Field) (depth : Nat) (above : Path) (es : List Entry) :
    ({ c with measures := ms }.rowsBy { c with measures := ms }.fieldIndex fs depth above es).2.filter
        (·.measure = m.id) =
      (c.rowsBy c.fieldIndex fs depth above es).2.filter (·.measure = m.id) := by
  induction fs generalizing depth above es with
  | nil => rfl
  | cons f fs ih =>
    simp only [rowsBy, List.flatMap_map, List.filter_flatMap, List.filter_append,
      filter_measure_outcomes hc hc' hindex hm hm', filter_measure_crossTab hc hc' hindex hm hm', ih]

theorem filter_measure_compute (records : List Record) :
    ({ c with measures := ms }.compute records).faults.filter (·.measure = m.id) =
      (c.compute records).faults.filter (·.measure = m.id) := by
  simp only [compute, List.filter_append, filter_measure_outcomes hc hc' hindex hm hm',
    filter_measure_crossTab hc hc' hindex hm hm']
  congr 2
  exact filter_measure_rowsBy hc hc' hindex hm hm' c.rows 0 [] _

/-- A measure of two configurations that differ only in their measures is the same in both tables
of the same records. -/
theorem sameMeasure_compute (hids : ∀ m ∈ c.measures, ':' ∉ m.id.toList)
    (hids' : ∀ m ∈ ms, ':' ∉ m.id.toList) (records : List Record) :
    SameMeasure m.id (c.compute records) ({ c with measures := ms }.compute records) := by
  have ho := outcomeOver_measures hindex hm
  have hentries {path : Path} {r r' : Row} (hr : RowAt (c.compute records).rows path r)
      (hr' : RowAt ({ c with measures := ms }.compute records).rows path r') :
      r'.entries = r.entries := by
    rw [entries_of_rowAt _ hr, entries_of_rowAt _ hr']
    rfl
  constructor
  case rows =>
    intro path
    rw [exists_rowAt_compute, exists_rowAt_compute]
    exact Iff.rfl
  case values =>
    intro path r r' hr hr'
    have hshows := (c.shows_rowAt hc hids hr).1
    have hshows' := (shows_rowAt _ hc' hids' hr').1
    rw [hentries hr hr'] at hshows'
    exact hshows.get?_eq hshows' hm hm' (ho _)
  case crossValues =>
    intro path r r' column hr hr'
    have hshows := (c.shows_rowAt hc hids hr).2
    have hshows' := (shows_rowAt _ hc' hids' hr').2
    rw [hentries hr hr'] at hshows'
    exact hshows.get?_eq hshows' hm hm' ho column
  case grandTotal =>
    exact (showsMeasures c hc _).get?_eq (showsMeasures _ hc' _) hm hm' (ho _)
  case columnTotals =>
    exact (c.shows_columnTotals hc hids records).get?_eq (shows_columnTotals _ hc' hids' records)
      hm hm' ho
  case columnValues =>
    rw [columnValues_compute, columnValues_compute]
    rfl
  case faults => exact filter_measure_compute hc hc' hindex hm hm' records

end

end Config

end Crosstab.Pivot
