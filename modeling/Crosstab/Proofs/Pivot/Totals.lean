import Crosstab.Proofs.Aggregation
import Crosstab.Proofs.Binary64.Sums
import Crosstab.Proofs.Pivot.Lines

/-!
# Totals are the sums of their parts

Every cell adds up its own records. The rows below a line, and the columns of a line, divide its
records, so for a measure that counts or sums, the cell of the line is the sum of the cells of its
parts, as long as no cell rounds while it adds up.
-/

namespace Crosstab.Pivot

open Binary64 (AddsExactly Whole value)

/-! ### One cell -/

def contribution (m : Field) (r : Record) : Float :=
  if m.aggregation = .count then 1.0 else Value.numberOrZero (r.get? m.id)

def contributions (m : Field) (es : List Entry) : List Float :=
  es.map fun e => contribution m e.record

def exactTotal (m : Field) (es : List Entry) : ℚ := ((contributions m es).map value).sum

theorem exactTotal_perm {m : Field} {es es' : List Entry} (h : es.Perm es') :
    exactTotal m es = exactTotal m es' :=
  ((h.map _).map _).sum_eq

theorem exactTotal_flatMap {α : Type} (m : Field) (as : List α) (entries : α → List Entry) :
    exactTotal m (as.flatMap entries) = (as.map fun a => exactTotal m (entries a)).sum := by
  induction as with
  | nil => rfl
  | cons a as ih =>
    rw [List.flatMap_cons, List.map_cons, List.sum_cons, ← ih]
    simp [exactTotal, contributions]

/-- A cell that is added up without rounding holds the exact sum. -/
theorem aggregate_exact {m : Field} (hm : m.aggregation = .count ∨ m.aggregation = .sum)
    {es : List Entry} (h : AddsExactly 0.0 (contributions m es)) :
    (aggregate m m.aggregation (es.map (·.record))).isFinite = true ∧
      value (aggregate m m.aggregation (es.map (·.record))) = exactTotal m es := by
  have hsum := Binary64.isFinite_sum h
  have hvalue := Binary64.value_sum h
  rcases hm with hm | hm
  · have hcount : aggregate m m.aggregation (es.map (·.record)) = Float.ofNat es.length := by
      rw [hm, aggregate_count, List.length_map]
    have htotal : exactTotal m es = es.length := by
      simp [exactTotal, contributions, contribution, hm, Binary64.value_one]
    rw [hcount, htotal]
    exact Binary64.value_ofNat hsum (hvalue.trans htotal)
  · have hfold : aggregate m m.aggregation (es.map (·.record)) =
        Binary64.sum (contributions m es) := by
      rw [aggregate, hm]
      simp only [Accumulator.result, Accumulator.sum_foldl, contributions, contribution, hm,
        List.map_map]
      rfl
    rw [hfold]
    exact ⟨hsum, hvalue⟩

/-! ### Parts -/

/-- A number is the sum of some numbers: it stands for the exact sum, and adding them up yields it
unless an addition rounds. -/
structure AddsUp (x : Float) (parts : List Float) : Prop where
  value : value x = (parts.map value).sum
  beq : AddsExactly 0.0 parts → (x == Binary64.sum parts) = true

def TotalOf (parts : List Float) (cell : Option Float) : Prop := ∃ x, cell = some x ∧ AddsUp x parts

/-- The total over entries that are divided among parts, where a part without entries may show
nothing. -/
theorem addsUp_of_perm {α : Type} {m : Field} {x : Float} {es : List Entry}
    (hx : x.isFinite = true) (hvalue : value x = exactTotal m es) {as : List α}
    {entries : α → List Entry} (hperm : (as.flatMap entries).Perm es) {cell : α → Option Float}
    (hcell : ∀ a ∈ as, ((cell a).map value).getD 0 = exactTotal m (entries a)) :
    AddsUp x (as.filterMap cell) := by
  have hsum : value x = ((as.filterMap cell).map value).sum := by
    rw [hvalue, ← exactTotal_perm hperm, exactTotal_flatMap]
    clear hperm
    induction as with
    | nil => rfl
    | cons a as ih =>
      have ha := hcell a List.mem_cons_self
      have has := ih fun b hb => hcell b (List.mem_cons_of_mem a hb)
      rw [List.map_cons, List.sum_cons, has, ← ha]
      cases hshown : cell a <;> simp [hshown]
  refine ⟨hsum, fun hexact => ?_⟩
  exact Binary64.beq_of_value_eq hx (Binary64.isFinite_sum hexact)
    (hsum.trans (Binary64.value_sum hexact).symm)

/-! ### Tables -/

/-- No cell of a table over some entries rounds while it adds up a measure: neither the cells of
the rows and of the grand total nor those of their columns. -/
structure ExactCells (c : Config) (m : Field) (es : List Entry) : Prop where
  line (path : Path) : AddsExactly 0.0 (contributions m (along c.rows path es))
  column (path : Path) (column : String) :
    AddsExactly 0.0 (contributions m (c.inColumn column (along c.rows path es)))

/-- Whole numbers whose absolute values sum to less than `2 ^ 53` are added up without rounding in
every cell. -/
theorem exactCells_of_whole (c : Config) {m : Field} {es : List Entry}
    (hwhole : ∀ x ∈ contributions m es, Whole x)
    (hsmall : ((contributions m es).map fun x => |value x|).sum < 2 ^ 53) : ExactCells c m es := by
  have hsub {es' : List Entry} (h : es'.Sublist es) : AddsExactly 0.0 (contributions m es') :=
    Binary64.addsExactly_of_sublist (h.map _) hwhole hsmall
  exact ⟨fun _ => hsub List.filter_sublist,
    fun _ _ => hsub (List.filter_sublist.trans List.filter_sublist)⟩

/-- A measure of a table adds up: every row shows it, and the total of every line is the sum over
the rows below it and over its columns. -/
structure Additive (c : Config) (m : FieldId) (t : Table) : Prop where
  shown {path : Path} {r : Row} : RowAt t.rows path r → (r.values.get? m).isSome
  total : TotalOf (t.rows.filterMap (·.values.get? m)) (t.grandTotal.get? m)
  children {path : Path} {r : Row} : RowAt t.rows path r → r.isTerminal = false →
    TotalOf (r.children.filterMap (·.values.get? m)) (r.values.get? m)
  columns {path : Path} {r : Row} : c.column.isSome → RowAt t.rows path r →
    TotalOf (t.columnValues.filterMap fun column => r.crossValues.get? (crossLabel column m))
      (r.values.get? m)
  columnTotals : c.column.isSome →
    TotalOf (t.columnValues.filterMap fun column => t.columnTotals.get? (crossLabel column m))
      (t.grandTotal.get? m)

section
variable {c : Config} {m : Field} {es : List Entry}

theorem outcomeOver_of_base (hbase : m.isCalculated = false) (es : List Entry) :
    c.outcomeOver m es = .ok (aggregate m m.aggregation (es.map (·.record))) := by
  rw [Config.outcomeOver, hbase]
  rfl

/-- Different columns that some entries have divide the entries. -/
theorem inColumn_perm (hcolumn : c.column.isSome) (hkeyed : Keyed c.column.toList es)
    {columns : List String} (hnodup : columns.Nodup) (hall : c.columnKeys es ⊆ columns) :
    (columns.flatMap fun column => c.inColumn column es).Perm es := by
  obtain ⟨f, hf⟩ := Option.isSome_iff_exists.1 hcolumn
  have hkey (e : Entry) (he : e ∈ es) : c.columnKey? e = some ((c.columnKey? e).getD "") := by
    have hsome := hkeyed f (by simp [hf]) e he
    obtain ⟨key, hkey⟩ := Option.isSome_iff_exists.1 hsome
    simp [Config.columnKey?, hf, hkey]
  have hfilter (column : String) :
      c.inColumn column es = es.filter fun e => (c.columnKey? e).getD "" = column := by
    apply List.filter_congr
    intro e he
    rw [hkey e he, Option.getD_some]
    simp
  simp only [hfilter]
  refine flatMap_filter_perm _ hnodup es fun e he => hall (c.mem_columnKeys.2 ⟨e, he, hkey e he⟩)

variable (hm : m ∈ c.measures) (hbase : m.isCalculated = false)
include hm hbase

theorem get?_of_showsMeasures {values : Labelled Float} (h : ShowsMeasures c es values) :
    values.get? m.id = some (aggregate m m.aggregation (es.map (·.record))) :=
  (h.value hm _).2 (outcomeOver_of_base hbase es)

theorem get?_of_showsColumns {values : Labelled Float} (h : ShowsColumns c es values)
    (column : String) :
    values.get? (crossLabel column m.id) =
      if column ∈ c.columnKeys es then
        some (aggregate m m.aggregation ((c.inColumn column es).map (·.record)))
      else none := by
  split_ifs with hmem
  · exact (h.value column hm _).2 ⟨c.mem_columnKeys.1 hmem, outcomeOver_of_base hbase _⟩
  · apply Option.eq_none_iff_forall_ne_some.2
    intro x hx
    exact hmem (c.mem_columnKeys.2 ((h.value column hm x).1 hx).1)

variable (hagg : m.aggregation = .count ∨ m.aggregation = .sum)
include hagg

/-- The cell of a line is the sum of the cells of the rows below it. -/
theorem totalOf_rows {values : Labelled Float} (h : ShowsMeasures c es values)
    (hexact : AddsExactly 0.0 (contributions m es)) {rows : List Row}
    (hperm : (rows.flatMap (·.entries)).Perm es)
    (hrows : ∀ r ∈ rows, ShowsMeasures c r.entries r.values ∧
      AddsExactly 0.0 (contributions m r.entries)) :
    TotalOf (rows.filterMap (·.values.get? m.id)) (values.get? m.id) := by
  obtain ⟨hfinite, hvalue⟩ := aggregate_exact hagg hexact
  refine ⟨_, get?_of_showsMeasures hm hbase h, addsUp_of_perm hfinite hvalue hperm ?_⟩
  intro r hr
  obtain ⟨hshows, hexact⟩ := hrows r hr
  rw [get?_of_showsMeasures hm hbase hshows, Option.map_some, Option.getD_some,
    (aggregate_exact hagg hexact).2]

/-- The cell of a line is the sum of the cells of its columns. -/
theorem totalOf_columns {values cross : Labelled Float} (h : ShowsMeasures c es values)
    (hcross : ShowsColumns c es cross) (hexact : AddsExactly 0.0 (contributions m es))
    (hexact' : ∀ column, AddsExactly 0.0 (contributions m (c.inColumn column es)))
    (hcolumn : c.column.isSome) (hkeyed : Keyed c.column.toList es) {columns : List String}
    (hnodup : columns.Nodup) (hall : c.columnKeys es ⊆ columns) :
    TotalOf (columns.filterMap fun column => cross.get? (crossLabel column m.id))
      (values.get? m.id) := by
  obtain ⟨hfinite, hvalue⟩ := aggregate_exact hagg hexact
  refine ⟨_, get?_of_showsMeasures hm hbase h,
    addsUp_of_perm hfinite hvalue (inColumn_perm hcolumn hkeyed hnodup hall) ?_⟩
  intro column _
  rw [get?_of_showsColumns hm hbase hcross]
  split_ifs with hmem
  · rw [Option.map_some, Option.getD_some, (aggregate_exact hagg (hexact' column)).2]
  · have hnone : c.inColumn column es = [] := by
      apply List.filter_eq_nil_iff.2
      intro e he hkey
      exact hmem (c.mem_columnKeys.2 ⟨e, he, by simpa using hkey⟩)
    rw [hnone]
    rfl

end

theorem columnKeys_filter_subset (c : Config) (p : Entry → Bool) (es : List Entry) :
    c.columnKeys (es.filter p) ⊆ c.columnKeys es := by
  intro column hcolumn
  obtain ⟨e, he, hkey⟩ := c.mem_columnKeys.1 hcolumn
  exact c.mem_columnKeys.2 ⟨e, (List.mem_filter.1 he).1, hkey⟩

section
variable {records : List Record} {c : Config} {m : Field}
  (hexact : ExactCells c m (c.passed (Entry.ofRecords records)))
include hexact

theorem ExactCells.top :
    AddsExactly 0.0 (contributions m (c.passed (Entry.ofRecords records))) := by
  have htop := hexact.line []
  rwa [along_nil] at htop

theorem ExactCells.topColumn (column : String) :
    AddsExactly 0.0 (contributions m (c.inColumn column (c.passed (Entry.ofRecords records)))) := by
  have htop := hexact.column [] column
  rwa [along_nil] at htop

theorem ExactCells.row {path : Path} {r : Row} (hr : RowAt (c.compute records).rows path r) :
    AddsExactly 0.0 (contributions m r.entries) := by
  rw [c.entries_of_rowAt hr]
  exact hexact.line path

variable (hc : c.validate = .ok ()) (hids : ∀ m ∈ c.measures, ':' ∉ m.id.toList)
  (hm : m ∈ c.measures) (hbase : m.isCalculated = false)
  (hagg : m.aggregation = .count ∨ m.aggregation = .sum)
include hc hids hm hbase hagg

theorem totalOf_children {path : Path} {r : Row} (hr : RowAt (c.compute records).rows path r)
    (hterminal : r.isTerminal = false) :
    TotalOf (r.children.filterMap (·.values.get? m.id)) (r.values.get? m.id) := by
  have htree := c.rowTree_compute records
  have hbelow : c.rows.drop path.length ≠ [] := by
    intro hnone
    have hlen := htree.depth hr
    have hle := ((c.exists_rowAt_compute records path).1 ⟨r, hr⟩).2.1
    rw [List.drop_eq_nil_iff] at hnone
    have hnil := (htree.terminal hr).2 (by omega)
    rw [Row.isTerminal, hnil] at hterminal
    cases hterminal
  apply totalOf_rows hm hbase hagg (c.shows_rowAt hc hids hr).1 (hexact.row hr)
    ((htree.below hr).perm hbelow)
  intro s hs
  have hs := hr.child hs
  exact ⟨(c.shows_rowAt hc hids hs).1, hexact.row hs⟩

theorem totalOf_crossValues (hcolumn : c.column.isSome) {path : Path} {r : Row}
    (hr : RowAt (c.compute records).rows path r) :
    TotalOf ((c.columnKeys (c.passed (Entry.ofRecords records))).filterMap
      fun column => r.crossValues.get? (crossLabel column m.id)) (r.values.get? m.id) := by
  obtain ⟨hvalues, hcross⟩ := c.shows_rowAt hc hids hr
  have hentries := c.entries_of_rowAt hr
  refine totalOf_columns hm hbase hagg hvalues hcross (hexact.row hr) ?_ hcolumn ?_
    (nodup_eraseDups _) ?_
  · intro column
    rw [hentries]
    exact hexact.column path column
  · rw [hentries]
    exact (keyed_columns c _).along _ _
  · rw [hentries]
    exact columnKeys_filter_subset c _ _

end

/-- A measure that counts or sums adds up in every table whose cells do not round. -/
theorem tabulate_additive (records : List Record) (c : Config) (hc : c.validate = .ok ())
    (hrows : c.rows ≠ []) (hids : ∀ m ∈ c.measures, ':' ∉ m.id.toList) {m : Field}
    (hm : m ∈ c.measures) (hbase : m.isCalculated = false)
    (hagg : m.aggregation = .count ∨ m.aggregation = .sum)
    (hexact : ExactCells c m (c.passed (Entry.ofRecords records))) :
    ∃ t, tabulate records c = .ok t ∧ Additive c m.id t := by
  refine ⟨c.compute records, by rw [tabulate, hc]; rfl, ?_⟩
  have htotals : ShowsMeasures c (c.passed (Entry.ofRecords records))
      (c.compute records).grandTotal := showsMeasures c hc _
  have hcolumns : (c.compute records).columnValues =
      c.columnKeys (c.passed (Entry.ofRecords records)) := by
    rw [Config.compute, c.crossTab_eq (keyed_columns c _)]
  constructor
  case shown =>
    intro path r hr
    rw [get?_of_showsMeasures hm hbase (c.shows_rowAt hc hids hr).1]
    rfl
  case total =>
    apply totalOf_rows hm hbase hagg htotals hexact.top
      ((c.rowTree_compute records).top.perm hrows)
    intro r hr
    have hr := RowAt.here hr
    exact ⟨(c.shows_rowAt hc hids hr).1, hexact.row hr⟩
  case children =>
    intro path r hr hterminal
    exact totalOf_children hexact hc hids hm hbase hagg hr hterminal
  case columns =>
    intro path r hcolumn hr
    rw [hcolumns]
    exact totalOf_crossValues hexact hc hids hm hbase hagg hcolumn hr
  case columnTotals =>
    intro hcolumn
    rw [hcolumns]
    exact totalOf_columns hm hbase hagg htotals (c.shows_columnTotals hc hids records) hexact.top
      hexact.topColumn hcolumn (keyed_columns c _) (nodup_eraseDups _) (List.Subset.refl _)

theorem ledger_exactCells : ExactCells ledgerConfig (.base "amount" "Amount" .number (some .sum))
    (ledgerConfig.passed (Entry.ofRecords ledger)) := by
  have hamounts : contributions (.base "amount" "Amount" .number (some .sum))
      (ledgerConfig.passed (Entry.ofRecords ledger)) = [Float.ofNat 5, Float.ofNat 7] := by
    decide +kernel
  have hfive := (Binary64.isFinite_and_value_ofNat (n := 5) (by omega)).2
  have hseven := (Binary64.isFinite_and_value_ofNat (n := 7) (by omega)).2
  apply exactCells_of_whole
  · rw [hamounts]
    simp [Binary64.whole_ofNat]
  · rw [hamounts]
    norm_num [hfive, hseven]

theorem ledger_additive :
    (ledgerConfig.validate = .ok () ∧ ledgerConfig.rows ≠ [] ∧
      ∀ m ∈ ledgerConfig.measures, ':' ∉ m.id.toList) ∧
    ∃ t, tabulate ledger ledgerConfig = .ok t ∧ Additive ledgerConfig "amount" t :=
  ⟨⟨by cbv, by decide, by decide⟩,
    tabulate_additive ledger ledgerConfig (by cbv) (by decide) (by decide)
      (m := .base "amount" "Amount" .number (some .sum)) List.mem_cons_self rfl (.inr rfl)
      ledger_exactCells⟩

end Crosstab.Pivot
