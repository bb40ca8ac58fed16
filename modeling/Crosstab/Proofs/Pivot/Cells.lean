import Crosstab.Proofs.Except
import Crosstab.Proofs.Pivot.Labels
import Crosstab.Proofs.Pivot.RowTree

/-!
# What a cell shows

A cell shows every measure that can be computed over its entries, and nothing else. The cells of a
line by column value share one map, whose labels are unambiguous as long as the ids of the measures
have no colon.
-/

namespace Crosstab.Pivot

theorem map_filterMap_sublist {α β γ : Type} {g : α → Option β} {k : β → γ} {k' : α → γ}
    (h : ∀ a b, g a = some b → k b = k' a) (as : List α) :
    ((as.filterMap g).map k).Sublist (as.map k') := by
  induction as with
  | nil => exact .slnil
  | cons a as ih =>
    cases hg : g a with
    | none => simpa [hg] using ih.cons (k' a)
    | some b => simpa [hg, h a b hg] using ih

/-! ### Measures -/

namespace Config

theorem checkMeasures_eq_ok_iff {seen : List FieldId} {ms : List Field} :
    checkMeasures seen ms = .ok () ↔
      (ms.map (·.id)).Nodup ∧ (∀ m ∈ ms, m.id ∉ seen) ∧
        ∀ m ∈ ms, m.isCalculated = true → m.aggregation = .sum := by
  induction ms generalizing seen with
  | nil => simp [checkMeasures]
  | cons m ms ih =>
    rw [checkMeasures]
    split_ifs with hseen hcalc
    · simp [hseen]
    · simp [hcalc]
    · rw [ih]
      simp only [List.map_cons, List.nodup_cons, List.mem_cons, List.mem_map, forall_eq_or_imp]
      grind

variable (c : Config)

theorem nodup_measures (h : c.validate = .ok ()) : (c.measures.map (·.id)).Nodup := by
  obtain ⟨_, hmeasures, _⟩ := bind_eq_ok.1 h
  exact (checkMeasures_eq_ok_iff.1 hmeasures).1

/-- The outcome of a measure over some entries: the result of its formula over the group as a whole
if it is calculated, and else its aggregate. -/
def outcomeOver (m : Field) (es : List Entry) : Except EvalError Float :=
  if m.isCalculated then
    Evaluation.calculate (Evaluation.groupScope c.fieldIndex (es.map (·.record))) 0 m
  else .ok (aggregate m m.aggregation (es.map (·.record)))

theorem outcomes_eq (es : List Entry) :
    c.outcomes c.fieldIndex es = c.measures.map fun m => (m.id, c.outcomeOver m es) := rfl

def columnKey? (e : Entry) : Option String := c.column.bind fun f => canonicalKey? f e

theorem columnKey?_eq {f : Field} (hcolumn : c.column = some f) :
    c.columnKey? = canonicalKey? f := by
  funext e
  rw [columnKey?, hcolumn, Option.bind_some]

def columnKeys (es : List Entry) : List String := (es.filterMap c.columnKey?).eraseDups

theorem columnKeys_eq {f : Field} (hcolumn : c.column = some f) (es : List Entry) :
    c.columnKeys es = canonicalKeys f es := by
  rw [columnKeys, c.columnKey?_eq hcolumn, canonicalKeys]

def inColumn (column : String) (es : List Entry) : List Entry :=
  es.filter (c.columnKey? · = some column)

theorem mem_columnKeys {column : String} {es : List Entry} :
    column ∈ c.columnKeys es ↔ ∃ e ∈ es, c.columnKey? e = some column := by
  simp [columnKeys, List.mem_eraseDups]

def columnEntries (es : List Entry) : List (String × Float) :=
  (c.columnKeys es).flatMap fun column =>
    (cellValues (c.outcomes c.fieldIndex (c.inColumn column es))).map fun v =>
      (crossLabel column v.1, v.2)

theorem crossTab_eq {es : List Entry} (h : Keyed c.column.toList es) (path : Path) :
    c.crossTab c.fieldIndex path es =
      { values := c.columnEntries es
        columns := c.columnKeys es
        faults := (c.columnKeys es).flatMap fun column =>
          cellFaults path (some column) (c.outcomes c.fieldIndex (c.inColumn column es)) } := by
  cases hcolumn : c.column with
  | none =>
    have hkey : c.columnKey? = fun _ => none := by
      funext e
      simp [columnKey?, hcolumn]
    have hkeys : c.columnKeys es = [] := by simp [columnKeys, hkey]
    simp [crossTab, columnEntries, hcolumn, hkeys]
  | some f =>
    have hkey := c.columnKey?_eq hcolumn
    have hgroups : groupBy f es =
        (c.columnKeys es).map fun column => (column, c.inColumn column es) := by
      rw [groupBy_eq (by simpa [hcolumn] using h), columnKeys, hkey]
      apply List.map_congr_left
      intro column _
      rw [inColumn, hkey, withKey]
    simp [crossTab, columnEntries, hcolumn, hgroups, List.flatMap_map, Function.comp_def]

end Config

/-- Values by measure are the outcomes over some entries. -/
structure ShowsMeasures (c : Config) (es : List Entry) (values : Labelled Float) : Prop where
  value {m : Field} (hm : m ∈ c.measures) (x : Float) :
    values.get? m.id = some x ↔ c.outcomeOver m es = .ok x
  only {label : String} : (values.get? label).isSome → ∃ m ∈ c.measures, label = m.id

/-- Values by column value and measure are the outcomes over the entries with that column value. -/
structure ShowsColumns (c : Config) (es : List Entry) (values : Labelled Float) : Prop where
  value (column : String) {m : Field} (hm : m ∈ c.measures) (x : Float) :
    values.get? (crossLabel column m.id) = some x ↔
      (∃ e ∈ es, c.columnKey? e = some column) ∧ c.outcomeOver m (c.inColumn column es) = .ok x
  only {label : String} : (values.get? label).isSome →
    ∃ column, (∃ e ∈ es, c.columnKey? e = some column) ∧
      ∃ m ∈ c.measures, label = crossLabel column m.id

section
variable (c : Config)

theorem mem_cellValues {es : List Entry} {id : FieldId} {x : Float} :
    (id, x) ∈ cellValues (c.outcomes c.fieldIndex es) ↔
      ∃ m ∈ c.measures, m.id = id ∧ c.outcomeOver m es = .ok x := by
  rw [c.outcomes_eq, cellValues, List.filterMap_map, List.mem_filterMap]
  apply exists_congr
  intro m
  apply and_congr_right
  intro _
  cases hm : c.outcomeOver m es <;> simp [hm]

theorem cellValues_labels (es : List Entry) :
    ((cellValues (c.outcomes c.fieldIndex es)).map Prod.fst).Sublist (c.measures.map (·.id)) := by
  rw [c.outcomes_eq, cellValues, List.filterMap_map]
  apply map_filterMap_sublist
  intro m v hv
  simp only [Function.comp_apply] at hv
  split at hv
  · exact congrArg Prod.fst (Option.some.inj hv).symm
  · cases hv

variable (hc : c.validate = .ok ())
include hc

theorem nodup_cellValues (es : List Entry) :
    ((cellValues (c.outcomes c.fieldIndex es)).map Prod.fst).Nodup :=
  (c.nodup_measures hc).sublist (cellValues_labels c es)

theorem eq_of_measure_id {m m' : Field} (hm : m ∈ c.measures) (hm' : m' ∈ c.measures)
    (h : m.id = m'.id) : m = m' :=
  List.inj_on_of_nodup_map (c.nodup_measures hc) hm hm' h

theorem showsMeasures (es : List Entry) :
    ShowsMeasures c es (.ofList (cellValues (c.outcomes c.fieldIndex es))) := by
  have hget := Labelled.get?_ofList (nodup_cellValues c hc es)
  constructor
  case value =>
    intro m hm x
    rw [hget, mem_cellValues]
    constructor
    · rintro ⟨m', hm', hid, hx⟩
      rwa [← eq_of_measure_id c hc hm' hm hid]
    · intro hx
      exact ⟨m, hm, rfl, hx⟩
  case only =>
    intro label hlabel
    obtain ⟨x, hx⟩ := Option.isSome_iff_exists.1 hlabel
    obtain ⟨m, hm, hid, -⟩ := (mem_cellValues c).1 ((hget label x).1 hx)
    exact ⟨m, hm, hid.symm⟩

omit hc in
theorem mem_columnEntries {es : List Entry} {label : String} {x : Float} :
    (label, x) ∈ c.columnEntries es ↔
      ∃ column, (∃ e ∈ es, c.columnKey? e = some column) ∧ ∃ m ∈ c.measures,
        label = crossLabel column m.id ∧ c.outcomeOver m (c.inColumn column es) = .ok x := by
  simp only [Config.columnEntries, List.mem_flatMap, c.mem_columnKeys, List.mem_map, Prod.exists,
    mem_cellValues, Prod.mk.injEq]
  apply exists_congr
  intro column
  apply and_congr_right
  intro _
  constructor
  · rintro ⟨id, y, ⟨m, hm, rfl, hy⟩, rfl, rfl⟩
    exact ⟨m, hm, rfl, hy⟩
  · rintro ⟨m, hm, rfl, hx⟩
    exact ⟨m.id, x, ⟨m, hm, rfl, hx⟩, rfl, rfl⟩

variable (hids : ∀ m ∈ c.measures, ':' ∉ m.id.toList)
include hids

omit hc in
theorem eq_of_crossLabel_eq {column column' : String} {m m' : Field} (hm : m ∈ c.measures)
    (hm' : m' ∈ c.measures) (h : crossLabel column m.id = crossLabel column' m'.id) :
    column = column' ∧ m.id = m'.id :=
  crossLabel_inj (hids m hm) (hids m' hm') h

theorem nodup_columnEntries (es : List Entry) : ((c.columnEntries es).map Prod.fst).Nodup := by
  have hmeasure {column : String} {v : FieldId × Float}
      (hv : v ∈ cellValues (c.outcomes c.fieldIndex (c.inColumn column es))) :
      ∃ m ∈ c.measures, m.id = v.1 := by
    obtain ⟨m, hm, hid, -⟩ := (mem_cellValues c).1 hv
    exact ⟨m, hm, hid⟩
  rw [Config.columnEntries, List.map_flatMap, List.nodup_flatMap]
  constructor
  · intro column _
    rw [List.map_map]
    refine List.Nodup.map_on ?_ (nodup_cellValues c hc _).of_map
    intro v hv w hw h
    obtain ⟨m, hm, hid⟩ := hmeasure hv
    obtain ⟨m', hm', hid'⟩ := hmeasure hw
    have hlabel : crossLabel column m.id = crossLabel column m'.id := by rw [hid, hid']; exact h
    have hids' := (eq_of_crossLabel_eq c hids hm hm' hlabel).2
    exact List.inj_on_of_nodup_map (nodup_cellValues c hc _) hv hw (by rw [← hid, ← hid', hids'])
  · refine (nodup_eraseDups _).imp ?_
    intro column column' hne
    simp only [Function.onFun, List.disjoint_left, List.mem_map]
    rintro _ ⟨_, ⟨v, hv, rfl⟩, rfl⟩ ⟨_, ⟨w, hw, rfl⟩, h⟩
    obtain ⟨m, hm, hid⟩ := hmeasure hv
    obtain ⟨m', hm', hid'⟩ := hmeasure hw
    apply hne
    refine (eq_of_crossLabel_eq c hids hm hm' ?_).1
    rw [hid, hid']
    exact h.symm

theorem showsColumns (es : List Entry) : ShowsColumns c es (.ofList (c.columnEntries es)) := by
  have hget := Labelled.get?_ofList (nodup_columnEntries c hc hids es)
  constructor
  case value =>
    intro column m hm x
    rw [hget, mem_columnEntries]
    constructor
    · rintro ⟨column', he, m', hm', hlabel, hx⟩
      obtain ⟨rfl, hid⟩ := eq_of_crossLabel_eq c hids hm hm' hlabel
      rw [eq_of_measure_id c hc hm hm' hid]
      exact ⟨he, hx⟩
    · rintro ⟨he, hx⟩
      exact ⟨column, he, m, hm, rfl, hx⟩
  case only =>
    intro label hlabel
    obtain ⟨x, hx⟩ := Option.isSome_iff_exists.1 hlabel
    obtain ⟨column, he, m, hm, hlabel, -⟩ := (mem_columnEntries c).1 ((hget label x).1 hx)
    exact ⟨column, he, m, hm, hlabel⟩

end

/-! ### Tables -/

theorem keyed_columns (c : Config) (es : List Entry) : Keyed c.column.toList (c.passed es) := by
  intro f hf
  exact c.keyed_column (Option.mem_toList.1 hf) es f (List.mem_singleton_self f)

/-- Every cell of a table shows the outcomes over exactly its entries. -/
theorem tabulate_cells (records : List Record) (c : Config) (hc : c.validate = .ok ())
    (hids : ∀ m ∈ c.measures, ':' ∉ m.id.toList) :
    let passed := c.passed (Entry.ofRecords records)
    ∃ t, tabulate records c = .ok t ∧
      (∀ path r, RowAt t.rows path r →
        ShowsMeasures c r.entries r.values ∧ ShowsColumns c r.entries r.crossValues) ∧
      ShowsMeasures c passed t.grandTotal ∧ ShowsColumns c passed t.columnTotals ∧
      t.columnValues = c.columnKeys passed := by
  intro passed
  have hcross (es : List Entry) (path : Path) (h : Keyed c.column.toList es) :
      ShowsColumns c es (.ofList (c.crossTab c.fieldIndex path es).values) := by
    rw [c.crossTab_eq h]
    exact showsColumns c hc hids es
  refine ⟨c.compute records, by rw [tabulate, hc]; rfl, ?_, showsMeasures c hc passed,
    hcross passed [] (keyed_columns c _), by rw [Config.compute, c.crossTab_eq (keyed_columns c _)]⟩
  intro path r hr
  obtain ⟨key, -, -, -, rfl⟩ :=
    (c.rowAt_rowsBy c.fieldIndex (c.keyed_rows _) [] path r).1 hr
  exact ⟨showsMeasures c hc _, hcross _ _ ((keyed_columns c _).along _ _)⟩

theorem ledger_cells :
    let passed := ledgerConfig.passed (Entry.ofRecords ledger)
    (ledgerConfig.validate = .ok () ∧ ∀ m ∈ ledgerConfig.measures, ':' ∉ m.id.toList) ∧
    ∃ t, tabulate ledger ledgerConfig = .ok t ∧
      (∀ path r, RowAt t.rows path r →
        ShowsMeasures ledgerConfig r.entries r.values ∧
          ShowsColumns ledgerConfig r.entries r.crossValues) ∧
      ShowsMeasures ledgerConfig passed t.grandTotal ∧
      ShowsColumns ledgerConfig passed t.columnTotals ∧
      t.columnValues = ledgerConfig.columnKeys passed :=
  ⟨⟨by cbv, by decide⟩, tabulate_cells ledger ledgerConfig (by cbv) (by decide)⟩

end Crosstab.Pivot
