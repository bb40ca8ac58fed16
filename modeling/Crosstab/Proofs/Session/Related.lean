import Crosstab.Proofs.Pivot.ColumnRows
import Crosstab.Proofs.Pivot.Independence
import Crosstab.Proofs.Pivot.Reordering
import Crosstab.Proofs.Session.Runs

/-!
# Related layouts

Layouts that are accepted in one catalog, and what their tables have in common. New fields get ids
without colons, as the program makes them, so that the labels of cross-tab values stay unambiguous.
-/

namespace Crosstab.Session

open Pivot (ColumnsBelow Config Reordered SameMeasure tabulate)

variable {s t : Session} {l l' : Layout} {config config' : Config}

/-! ### Plain ids -/

def GivesPlainIds (_ : Session) : Command → Prop
  | .addCalculated id _ _ => ':' ∉ id.toList
  | _ => True

theorem Effect.plainIds {cmd : Command} (h : Effect s cmd t) (hcmd : s.GivesPlainIds cmd)
    (hdistinct : s.catalog.DistinctIds) (hs : ∀ f ∈ s.catalog.fields, ':' ∉ f.id.toList) :
    ∀ f ∈ t.catalog.fields, ':' ∉ f.id.toList := by
  cases h with
  | none | loaded | configured => exact hs
  | added _ _ hreg =>
    rw [Catalog.fields_of_register hreg]
    exact List.forall_mem_append.2 ⟨hs, List.forall_mem_singleton.2 hcmd⟩
  | removed hrem =>
    rw [Catalog.fields_of_remove hdistinct hrem]
    intro f hf
    exact hs f (List.mem_filter.1 hf).1

theorem Run.plainIds (h : Run GivesPlainIds .new s) :
    ∀ f ∈ s.catalog.fields, ':' ∉ f.id.toList := by
  induction h with
  | start =>
    rw [new]
    decide
  | step hrun cmd hcmd ih =>
    exact (effect_act cmd _).plainIds hcmd (hrun.distinctIds Catalog.distinctIds_financial) ih

theorem Layout.Places.plainIds {c : Catalog} (h : l.Places c config)
    (hc : ∀ f ∈ c.fields, ':' ∉ f.id.toList) : ∀ m ∈ config.measures, ':' ∉ m.id.toList := by
  intro m hm
  obtain ⟨choice, -, f, hf, hid, -⟩ := h.field_of_measure hm
  rw [hid]
  exact hc f hf.mem

/-- Formulas find the same fields in all layouts of a catalog. -/
theorem Layout.Places.get?_fieldIndex_eq {c : Catalog} (h : l.Places c config)
    (h' : l'.Places c config') (id : FieldId) :
    config'.fieldIndex.get? id = config.fieldIndex.get? id := by
  rw [h'.get?_fieldIndex, h.get?_fieldIndex]

theorem tabulate_of_toConfig {c : Catalog} (h : l.toConfig c = .ok config)
    (records : List Record) :
    tabulate records config = .ok (config.compute records) :=
  Pivot.tabulate_of_validate (Layout.toConfig_eq_ok_iff.1 h).2 records

/-! ### Other measures -/

/-- A measure that two layouts have in common comes to the same in every cell of both tables,
whatever the other measures are, if the layouts have the same row fields, column field and filters. -/
theorem sameMeasure_of_layouts (hs : Run GivesPlainIds .new s)
    (h : l.toConfig s.catalog = .ok config) (h' : l'.toConfig s.catalog = .ok config')
    (hrows : config'.rows = config.rows) (hcolumn : config'.column = config.column)
    (hfilters : config'.filters = config.filters) {m : Field} (hm : m ∈ config.measures)
    (hm' : m ∈ config'.measures) (records : List Record) :
    ∃ t t', tabulate records config = .ok t ∧ tabulate records config' = .ok t' ∧
      SameMeasure m.id t t' := by
  obtain ⟨hplaces, hvalid⟩ := Layout.toConfig_eq_ok_iff.1 h
  obtain ⟨hplaces', hvalid'⟩ := Layout.toConfig_eq_ok_iff.1 h'
  have hindex := hplaces.get?_fieldIndex_eq hplaces'
  have hreferences : config'.references = config.references :=
    hplaces'.references.trans hplaces.references.symm
  have hids := hplaces.plainIds hs.plainIds
  have hids' := hplaces'.plainIds hs.plainIds
  refine ⟨_, _, tabulate_of_toConfig h records, tabulate_of_toConfig h' records, ?_⟩
  have hsame : config' = { config with measures := config'.measures } := by
    rw [← hrows, ← hcolumn, ← hfilters, ← hreferences]
  rw [hsame] at hvalid' hindex ⊢
  exact Config.sameMeasure_compute hvalid hvalid' hindex hm hm' hids hids' records

def doubledFormula : String := "[Valor da Conta] + [Valor da Conta]"

def doubled : Field :=
  ⟨"calc_1", "Dobro", .number, some .sum,
    some ⟨doubledFormula, .binary .add (.field "valorConta") (.field "valorConta")⟩⟩

def doubledSession : Session :=
  { new with catalog := { Catalog.financial with calculated := [doubled] } }

theorem calculated_doubled :
    Field.calculated "calc_1" "Dobro" new.catalog.resolve doubledFormula = .ok doubled := by
  have hparse : Formula.parse new.catalog.resolve doubledFormula =
      .ok (.binary .add (.field "valorConta") (.field "valorConta")) := by cbv
  rw [Field.calculated, Calculation.compile, hparse]
  rfl

theorem run_doubledSession : Run GivesPlainIds .new doubledSession := by
  have hplain : new.GivesPlainIds (.addCalculated "calc_1" "Dobro" doubledFormula) := by
    rw [GivesPlainIds]
    decide
  have hreg : new.catalog.register doubled = .ok doubledSession.catalog := by
    refine Catalog.register_eq_ok_iff.2 ⟨⟨rfl, rfl, rfl, ?_⟩, rfl⟩
    rw [doubled]
    decide
  have hcreate := Catalog.create_of_calculated calculated_doubled
  rw [hreg] at hcreate
  have hact : (Command.addCalculated "calc_1" "Dobro" doubledFormula).act new =
      (.ok (.field doubled), doubledSession) :=
    act_addCalculated_of_create (by cbv) (by decide) (by cbv) hcreate
  have hstate : ((Command.addCalculated "calc_1" "Dobro" doubledFormula).act new).2 =
      doubledSession := congrArg Prod.snd hact
  exact hstate ▸ .step .start _ hplain

def doubledLayout : Layout := { defaultLayout with measures := [⟨"Dobro", none⟩] }

def meanLayout : Layout :=
  { defaultLayout with measures := [⟨"Valor da Conta", some "avg"⟩, ⟨"Dobro", none⟩] }

def measuring (ms : List Field) : Config :=
  { defaultConfig with measures := ms, references := doubledSession.catalog.fields }

def meanAmount : Field := .base "valorConta" "Valor da Conta" .number (some .avg)

theorem toConfig_doubledLayout :
    doubledLayout.toConfig doubledSession.catalog = .ok (measuring [doubled]) :=
  Layout.toConfig_eq_ok_iff.2 ⟨⟨rfl, rfl, rfl, rfl, rfl⟩, by cbv⟩

theorem toConfig_meanLayout :
    meanLayout.toConfig doubledSession.catalog = .ok (measuring [meanAmount, doubled]) := by
  have hmean : findAggregation "avg" = .ok .avg := by
    have hname : Aggregation.ofName? "avg" = some .avg := by decide
    rw [findAggregation, hname]
  refine Layout.toConfig_eq_ok_iff.2 ⟨⟨rfl, rfl, ?_, rfl, rfl⟩, by cbv⟩
  rfl

theorem sameMeasure_doubled :
    Run GivesPlainIds .new doubledSession ∧
    doubledLayout.toConfig doubledSession.catalog = .ok (measuring [doubled]) ∧
    meanLayout.toConfig doubledSession.catalog = .ok (measuring [meanAmount, doubled]) ∧
    ∃ t t', tabulate demoRecords (measuring [doubled]) = .ok t ∧
      tabulate demoRecords (measuring [meanAmount, doubled]) = .ok t' ∧
      SameMeasure "calc_1" t t' := by
  have hm : doubled ∈ (measuring [doubled]).measures := List.mem_singleton_self doubled
  have hm' : doubled ∈ (measuring [meanAmount, doubled]).measures :=
    List.mem_cons_of_mem meanAmount (List.mem_singleton_self doubled)
  exact ⟨run_doubledSession, toConfig_doubledLayout, toConfig_meanLayout,
    sameMeasure_of_layouts run_doubledSession toConfig_doubledLayout toConfig_meanLayout rfl rfl rfl
      hm hm' demoRecords⟩

/-! ### The row fields in another order -/

/-- Two layouts that have their row fields in different orders, and nothing else, keep the same
records and make the same totals and, under rearranged paths, the same terminal rows. -/
theorem reordered_of_layouts {c : Catalog} (σ : Equiv.Perm (Fin l.rows.length))
    (h : l.toConfig c = .ok config)
    (h' : { l with rows := arrange σ l.rows }.toConfig c = .ok config') (records : List Record) :
    config'.passed (Entry.ofRecords records) = config.passed (Entry.ofRecords records) ∧
      ∃ t t', tabulate records config = .ok t ∧ tabulate records config' = .ok t' ∧
        Reordered σ t t' := by
  obtain ⟨hplaces, -⟩ := Layout.toConfig_eq_ok_iff.1 h
  obtain ⟨hplaces', -⟩ := Layout.toConfig_eq_ok_iff.1 h'
  have hlen : config.rows.length = l.rows.length := (length_of_mapM hplaces.rows).symm
  have hrows : config'.rows = arrange σ config.rows :=
    Except.ok.inj (hplaces'.rows.symm.trans (mapM_arrange σ hplaces.rows))
  have hcolumn : config'.column = config.column :=
    Except.ok.inj (hplaces'.column.symm.trans hplaces.column)
  have hmeasures : config'.measures = config.measures :=
    Except.ok.inj (hplaces'.measures.symm.trans hplaces.measures)
  have hfilters : config'.filters = config.filters :=
    Except.ok.inj (hplaces'.filters.symm.trans hplaces.filters)
  have hreferences : config'.references = config.references :=
    hplaces'.references.trans hplaces.references.symm
  have hsame : config' = config.reorder σ := by
    rw [Config.reorder, ← hrows, ← hcolumn, ← hmeasures, ← hfilters, ← hreferences]
  have hindex := hplaces.get?_fieldIndex_eq hplaces'
  refine ⟨?_, _, _, tabulate_of_toConfig h records, tabulate_of_toConfig h' records, ?_⟩
  · rw [hsame, Config.passed_reorder hlen]
  · rw [hsame] at hindex ⊢
    exact Config.reordered_compute hindex hlen records

def bankLayout : Layout := { defaultLayout with rows := ["dataPrevisao", "banco"] }

def bankConfig : Config :=
  { defaultConfig with rows := [.base "dataPrevisao" "Data de Previsão" .date none,
      .base "banco" "Banco para Transferência" .string none] }

def banksFirst : Equiv.Perm (Fin bankLayout.rows.length) := Equiv.swap (0 : Fin 2) (1 : Fin 2)

theorem reordered_banksFirst :
    bankLayout.toConfig .financial = .ok bankConfig ∧
    { bankLayout with rows := arrange banksFirst bankLayout.rows }.toConfig .financial =
      .ok (bankConfig.reorder banksFirst) ∧
    (bankConfig.reorder banksFirst).passed (Entry.ofRecords demoRecords) =
      bankConfig.passed (Entry.ofRecords demoRecords) ∧
    ∃ t t', tabulate demoRecords bankConfig = .ok t ∧
      tabulate demoRecords (bankConfig.reorder banksFirst) = .ok t' ∧ Reordered banksFirst t t' := by
  have hids : (bankConfig.measures.map (·.id)).Nodup := by decide
  have hbase : ∀ m ∈ bankConfig.measures, m.isCalculated = false := by decide
  have hconfig : bankLayout.toConfig .financial = .ok bankConfig :=
    Layout.toConfig_eq_ok_iff.2 ⟨⟨rfl, rfl, rfl, rfl, rfl⟩, Config.validate_of_base hids hbase⟩
  have hconfig' : { bankLayout with rows := arrange banksFirst bankLayout.rows }.toConfig
      .financial = .ok (bankConfig.reorder banksFirst) :=
    Layout.toConfig_eq_ok_iff.2 ⟨⟨rfl, rfl, rfl, rfl, rfl⟩, Config.validate_of_base hids hbase⟩
  exact ⟨hconfig, hconfig', reordered_of_layouts banksFirst hconfig hconfig' demoRecords⟩

/-! ### Columns as rows -/

theorem Layout.Places.columnsAsRows {c : Catalog} (h : l.Places c config) {name : String}
    (hname : l.column = some name) :
    Layout.Places { l with rows := l.rows ++ [name], column := none } c config.columnsAsRows := by
  have hlast : [name].mapM (findField c .row) = .ok config.column.toList := by
    have hcolumn := option_mapM_eq_ok.1 h.column
    rw [hname, Option.toList_some] at hcolumn
    exact mapM_of_ok hcolumn fun _ _ _ hf => findField_eq_ok_iff.2 (findField_eq_ok_iff.1 hf)
  refine ⟨?_, rfl, h.measures, h.filters, h.references⟩
  exact mapM_append_eq_ok h.rows hlast

/-- A layout with a column field is accepted with that field as the last of its row fields, too. The
table is the same then, with the cells by column value as rows. -/
theorem columnsBelow_of_layout (hs : Run GivesPlainIds .new s) {name : String}
    (hname : l.column = some name) (h : l.toConfig s.catalog = .ok config)
    (records : List Record) :
    ∃ config', { l with rows := l.rows ++ [name], column := none }.toConfig s.catalog =
        .ok config' ∧
      ∃ t t', tabulate records config = .ok t ∧ tabulate records config' = .ok t' ∧
        ColumnsBelow config t t' := by
  obtain ⟨hplaces, hvalid⟩ := Layout.toConfig_eq_ok_iff.1 h
  have hvalid' : config.columnsAsRows.validate = .ok () := by
    rw [config.validate_columnsAsRows, hvalid]
  have h' : { l with rows := l.rows ++ [name], column := none }.toConfig s.catalog =
      .ok config.columnsAsRows :=
    Layout.toConfig_eq_ok_iff.2 ⟨hplaces.columnsAsRows hname, hvalid'⟩
  obtain ⟨f, hf, -⟩ := exists_result_of_mapM (option_mapM_eq_ok.1 hplaces.column)
    (Option.mem_toList.2 hname)
  have hids := hplaces.plainIds hs.plainIds
  exact ⟨_, h', _, _, tabulate_of_toConfig h records, tabulate_of_toConfig h' records,
    config.columnsBelow_compute hvalid hids (Option.mem_toList.1 hf) records⟩

theorem columnsBelow_doubled :
    Run GivesPlainIds .new doubledSession ∧ meanLayout.column = some "tipo" ∧
    meanLayout.toConfig doubledSession.catalog = .ok (measuring [meanAmount, doubled]) ∧
    ∃ config', { meanLayout with rows := meanLayout.rows ++ ["tipo"], column := none }.toConfig
        doubledSession.catalog = .ok config' ∧
      ∃ t t', tabulate demoRecords (measuring [meanAmount, doubled]) = .ok t ∧
        tabulate demoRecords config' = .ok t' ∧
        ColumnsBelow (measuring [meanAmount, doubled]) t t' :=
  ⟨run_doubledSession, rfl, toConfig_meanLayout,
    columnsBelow_of_layout run_doubledSession rfl toConfig_meanLayout demoRecords⟩

end Crosstab.Session
