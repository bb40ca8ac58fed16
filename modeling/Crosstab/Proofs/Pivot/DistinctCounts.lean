import Crosstab.Proofs.Pivot.Totals

/-!
# Distinct values are counted as groups

A measure that counts distinct values counts the keys by which the same field would make groups:
those of the records of a row where the field makes the rows below it, and those of the columns
where it makes the columns.
-/

namespace Crosstab.Pivot

/-- A cell shows a count. Below `2 ^ 53` it shows it exactly. -/
structure ShowsCount (cell : Option Float) (n : Nat) : Prop where
  shown : cell = some (Float.ofNat n)
  exact : n < 2 ^ 53 → (Float.ofNat n).isFinite = true ∧ Binary64.value (Float.ofNat n) = n

theorem showsCount_ofNat (n : Nat) : ShowsCount (some (Float.ofNat n)) n :=
  ⟨rfl, Binary64.isFinite_and_value_ofNat⟩

/-- Two fields have the same id and hold values of one type, so a record has one key for both. -/
def SameKeys (f m : Field) : Prop := f.id = m.id ∧ f.type = m.type

/-- A measure of a table counts the groups that a field with the same keys makes: below each row
the rows, in the whole table the top rows, and on each line the columns. -/
structure CountsGroups (c : Config) (m : Field) (t : Table) : Prop where
  rows {f : Field} {i : Nat} : c.rows[i]? = some f → SameKeys f m → ∀ {path : Path} {r : Row},
    RowAt t.rows path r → r.depth + 1 = i → ShowsCount (r.values.get? m.id) r.children.length
  top {f : Field} : c.rows[0]? = some f → SameKeys f m →
    ShowsCount (t.grandTotal.get? m.id) t.rows.length
  columns {f : Field} : c.column = some f → SameKeys f m → ∀ {path : Path} {r : Row},
    RowAt t.rows path r → ShowsCount (r.values.get? m.id) (c.columnKeys r.entries).length
  columnTotal {f : Field} : c.column = some f → SameKeys f m →
    ShowsCount (t.grandTotal.get? m.id) t.columnValues.length

/-- Where all entries have keys, the keys that are counted are those that make groups. -/
theorem aggregate_distinct {f m : Field} (h : SameKeys f m) {es : List Entry}
    (hkeyed : Keyed [f] es) :
    aggregate m .distinctCount (es.map (·.record)) = Float.ofNat (canonicalKeys f es).length := by
  have hkeys : (es.map fun e => Accumulator.distinctKey m.type (e.record.get? m.id)) =
      es.filterMap (canonicalKey? f) := by
    rw [← List.filterMap_eq_map]
    apply List.filterMap_congr
    intro e he
    obtain ⟨key, hkey⟩ := Option.isSome_iff_exists.1 (hkeyed f (List.mem_singleton_self f) e he)
    rw [hkey]
    rw [canonicalKey?, h.1, h.2] at hkey
    rw [Function.comp_apply, Accumulator.distinctKey, hkey, Option.getD_some]
  rw [aggregate_distinctCount, List.map_map, canonicalKeys, ← hkeys]
  rfl

theorem showsCount_of_showsMeasures {c : Config} {m : Field} (hm : m ∈ c.measures)
    (hbase : m.isCalculated = false) (hagg : m.aggregation = .distinctCount) {es : List Entry}
    {values : Labelled Float} (hshows : ShowsMeasures c es values) {f : Field}
    (h : SameKeys f m) (hkeyed : Keyed [f] es) :
    ShowsCount (values.get? m.id) (canonicalKeys f es).length := by
  rw [get?_of_showsMeasures hm hbase hshows, hagg, aggregate_distinct h hkeyed]
  exact showsCount_ofNat _

/-- The rows that divide some entries are as many as the keys of the first field that is left. -/
theorem Divides.length_eq {f : Field} {fs : List Field} {es : List Entry} {rows : List Row}
    (h : Divides (f :: fs) es rows) : rows.length = (canonicalKeys f es).length := by
  have hlength := congrArg List.length h.keys
  rwa [List.length_map] at hlength

theorem drop_eq_cons {f : Field} {fs : List Field} {i : Nat} (h : fs[i]? = some f) :
    fs.drop i = f :: fs.drop (i + 1) := by
  rw [List.drop_eq_getElem?_toList_append, h]
  rfl

/-- A measure that counts distinct values counts the groups of its field. -/
theorem tabulate_distinct (records : List Record) (c : Config) (hc : c.validate = .ok ())
    {m : Field} (hm : m ∈ c.measures) (hbase : m.isCalculated = false)
    (hagg : m.aggregation = .distinctCount) :
    ∃ t, tabulate records c = .ok t ∧ CountsGroups c m t := by
  refine ⟨c.compute records, tabulate_of_validate hc records, ?_⟩
  have hrows := c.keyed_rows (Entry.ofRecords records)
  have htree := c.rowTree_compute records
  have htotals : ShowsMeasures c (c.passed (Entry.ofRecords records))
      (c.compute records).grandTotal := showsMeasures c hc _
  have hkeyedAt {path : Path} {r : Row} (hr : RowAt (c.compute records).rows path r)
      {fs : List Field} (hkeyed : Keyed fs (c.passed (Entry.ofRecords records))) :
      Keyed fs r.entries := by
    rw [c.entries_of_rowAt hr]
    exact hkeyed.along _ _
  have hcount {es : List Entry} {values : Labelled Float} (hshows : ShowsMeasures c es values)
      {f : Field} (h : SameKeys f m) (hkeyed : Keyed [f] es) :
      ShowsCount (values.get? m.id) (canonicalKeys f es).length :=
    showsCount_of_showsMeasures hm hbase hagg hshows h hkeyed
  constructor
  case rows =>
    intro f i hf h path r hr hdepth
    have hlevel : c.rows.drop path.length = f :: c.rows.drop (path.length + 1) := by
      rw [← htree.depth hr, hdepth]
      exact drop_eq_cons hf
    have hkeyed := hkeyedAt hr (hrows.drop path.length)
    have hbelow := htree.below hr
    rw [hlevel] at hkeyed hbelow
    rw [hbelow.length_eq]
    exact hcount (c.showsMeasures_rowAt hc hr) h hkeyed.head
  case top =>
    intro f hf h
    have hfirst : c.rows = f :: c.rows.drop 1 := drop_eq_cons hf
    have hdivides := htree.top
    rw [hfirst] at hrows hdivides
    rw [hdivides.length_eq]
    exact hcount htotals h hrows.head
  case columns =>
    intro f hf h path r hr
    rw [c.columnKeys_eq hf]
    exact hcount (c.showsMeasures_rowAt hc hr) h (hkeyedAt hr (c.keyed_column hf _))
  case columnTotal =>
    intro f hf h
    rw [c.columnValues_compute, c.columnKeys_eq hf]
    exact hcount htotals h (c.keyed_column hf _)

def days : Field := .base "day" "Day" .date (some .distinctCount)

def banks : Field := .base "bank" "Bank" .string (some .distinctCount)

/-- The ledger with its days and its banks counted. The days divide the kinds, and the banks are the
columns. -/
def countingConfig : Config := { ledgerConfig with measures := [days, banks] }

theorem ledger_distinct :
    (countingConfig.validate = .ok () ∧ ∀ m ∈ [days, banks], m ∈ countingConfig.measures ∧
      m.isCalculated = false ∧ m.aggregation = .distinctCount) ∧
    ∃ t, tabulate ledger countingConfig = .ok t ∧
      CountsGroups countingConfig days t ∧ CountsGroups countingConfig banks t ∧
      (∀ {path : Path} {r : Row}, RowAt t.rows path r → r.depth = 0 →
        ShowsCount (r.values.get? "day") r.children.length) ∧
      t.columnValues = ["", "A"] ∧ ShowsCount (t.grandTotal.get? "bank") 2 := by
  have hvalid : countingConfig.validate = .ok () := by cbv
  have hdays : days ∈ countingConfig.measures := List.mem_cons_self
  have hbanks : banks ∈ countingConfig.measures := List.mem_cons_of_mem _ List.mem_cons_self
  have htable := tabulate_of_validate hvalid ledger
  obtain ⟨t, ht, hcountDays⟩ := tabulate_distinct ledger countingConfig hvalid hdays rfl rfl
  obtain ⟨t', ht', hcountBanks⟩ := tabulate_distinct ledger countingConfig hvalid hbanks rfl rfl
  obtain rfl : countingConfig.compute ledger = t := Except.ok.inj (htable.symm.trans ht)
  obtain rfl : countingConfig.compute ledger = t' := Except.ok.inj (htable.symm.trans ht')
  have hcolumns : (countingConfig.compute ledger).columnValues = ["", "A"] := by decide +kernel
  have hbankTotal := hcountBanks.columnTotal rfl ⟨rfl, rfl⟩
  rw [hcolumns] at hbankTotal
  refine ⟨⟨hvalid, ?_⟩, _, ht, hcountDays, hcountBanks, ?_, hcolumns, hbankTotal⟩
  · intro m hm
    rcases List.mem_pair.1 hm with rfl | rfl
    · exact ⟨hdays, rfl, rfl⟩
    · exact ⟨hbanks, rfl, rfl⟩
  · intro path r hr hdepth
    exact hcountDays.rows (i := 1) rfl ⟨rfl, rfl⟩ hr (by rw [hdepth])

end Crosstab.Pivot
