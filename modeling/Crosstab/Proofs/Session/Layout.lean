import Crosstab.Proofs.Field.Catalog
import Crosstab.Proofs.Pivot.References
import Crosstab.Session.Layout

/-!
# Layouts against another catalog

A layout is read against the catalog of the moment. It uses the fields that its names mean and those
that the formulas of its measures lead to. In a catalog that keeps the meaning of its names, and the
fields it uses, the layout is accepted again, with other references and the same table.
-/

namespace Crosstab.Session

open Pivot (Config Filter)

def Layout.names (l : Layout) : List String :=
  l.rows ++ (l.column.toList ++ (l.measures.map (·.field) ++ l.filters.map (·.field)))

inductive Layout.Uses (l : Layout) (c : Catalog) (id : FieldId) : Prop
  | named {name : String} {f : Field} (hname : name ∈ l.names) (hf : c.Means name f)
    (hid : f.id = id) : Uses l c id
  | led {m : MeasureChoice} {f : Field} (hm : m ∈ l.measures) (hf : c.Means m.field f)
    (hid : c.index.Leads f id) : Uses l c id

/-! ### Parts of a layout -/

section
variable {c c' : Catalog}

theorem findField_eq_ok_iff {role : Role} {name : String} {f : Field} :
    findField c role name = .ok f ↔ c.Means name f := by
  rw [findField, Catalog.Means]
  cases (c.get? name).or (c.find? name) <;> simp

/-- The measure has the id and the formula of the field that its name means. -/
theorem MeasureChoice.field_of_resolve {m : MeasureChoice} {f : Field}
    (h : m.resolve c = .ok f) :
    ∃ g, c.Means m.field g ∧ f.id = g.id ∧ f.calculation = g.calculation := by
  obtain ⟨g, hg, h⟩ := bind_eq_ok.1 h
  refine ⟨g, findField_eq_ok_iff.1 hg, ?_⟩
  cases hname : m.aggregation with
  | none =>
    simp only [hname] at h
    obtain rfl := Except.ok.inj h
    exact ⟨rfl, rfl⟩
  | some name =>
    simp only [hname] at h
    cases ha : findAggregation name with
    | error e => rw [ha] at h; cases h
    | ok a =>
      rw [ha] at h
      obtain rfl := Except.ok.inj h
      exact ⟨rfl, rfl⟩

theorem MeasureChoice.resolve_of_means {m : MeasureChoice} {f : Field}
    (hmeans : ∀ g, c.Means m.field g → c'.Means m.field g) (h : m.resolve c = .ok f) :
    m.resolve c' = .ok f := by
  obtain ⟨g, hg, h⟩ := bind_eq_ok.1 h
  have hg' := hmeans g (findField_eq_ok_iff.1 hg)
  exact bind_eq_ok.2 ⟨g, findField_eq_ok_iff.2 hg', h⟩

theorem FilterChoice.field_of_resolve {m : FilterChoice} {f : Filter}
    (h : m.resolve c = .ok f) : c.Means m.field f.field := by
  obtain ⟨g, hg, h⟩ := bind_eq_ok.1 h
  obtain ⟨condition, -, h⟩ := bind_eq_ok.1 h
  obtain rfl := Except.ok.inj h
  exact findField_eq_ok_iff.1 hg

theorem FilterChoice.resolve_of_means {m : FilterChoice} {f : Filter}
    (hmeans : ∀ g, c.Means m.field g → c'.Means m.field g) (h : m.resolve c = .ok f) :
    m.resolve c' = .ok f := by
  obtain ⟨g, hg, h⟩ := bind_eq_ok.1 h
  have hg' := hmeans g (findField_eq_ok_iff.1 hg)
  exact bind_eq_ok.2 ⟨g, findField_eq_ok_iff.2 hg', h⟩

end

structure Layout.Places (l : Layout) (c : Catalog) (config : Config) : Prop where
  rows : l.rows.mapM (findField c .row) = .ok config.rows
  column : l.column.mapM (findField c .column) = .ok config.column
  measures : l.measures.mapM (·.resolve c) = .ok config.measures
  filters : l.filters.mapM (·.resolve c) = .ok config.filters
  references : config.references = c.fields

namespace Layout
variable {l : Layout} {c c' : Catalog} {config : Config}

theorem toConfig_eq_ok_iff :
    l.toConfig c = .ok config ↔ l.Places c config ∧ config.validate = .ok () := by
  obtain ⟨rows, column, measures, filters, references⟩ := config
  constructor
  · intro h
    obtain ⟨_, hrows, h⟩ := bind_eq_ok.1 h
    obtain ⟨_, hcolumn, h⟩ := bind_eq_ok.1 h
    obtain ⟨_, hmeasures, h⟩ := bind_eq_ok.1 h
    obtain ⟨_, hfilters, h⟩ := bind_eq_ok.1 h
    obtain ⟨_, hvalid, h⟩ := bind_eq_ok.1 h
    obtain ⟨rfl, rfl, rfl, rfl, rfl⟩ := Config.mk.inj (Except.ok.inj h)
    exact ⟨⟨hrows, hcolumn, hmeasures, hfilters, rfl⟩, hvalid⟩
  · rintro ⟨⟨hrows, hcolumn, hmeasures, hfilters, rfl⟩, hvalid⟩
    exact bind_eq_ok.2 ⟨rows, hrows, bind_eq_ok.2 ⟨column, hcolumn, bind_eq_ok.2 ⟨measures,
      hmeasures, bind_eq_ok.2 ⟨filters, hfilters, bind_eq_ok.2 ⟨(), hvalid, rfl⟩⟩⟩⟩⟩

namespace Places
variable (h : l.Places c config)
include h

theorem field_of_measure {m : Field} (hm : m ∈ config.measures) :
    ∃ choice ∈ l.measures, ∃ f, c.Means choice.field f ∧ m.id = f.id ∧
      m.calculation = f.calculation := by
  obtain ⟨choice, hchoice, hresolve⟩ := exists_source_of_mapM h.measures hm
  exact ⟨choice, hchoice, MeasureChoice.field_of_resolve hresolve⟩

theorem means_placed {f : Field} (hf : f ∈ config.placed) :
    ∃ name, ∃ g, c.Means name g ∧ g.id = f.id ∧ g.calculation = f.calculation := by
  rcases List.mem_append.1 hf with hf | hf
  · obtain ⟨choice, -, g, hg, hid, hcalc⟩ := h.field_of_measure hf
    exact ⟨choice.field, g, hg, hid.symm, hcalc.symm⟩
  rcases List.mem_append.1 hf with hf | hf
  · obtain ⟨name, -, hname⟩ := exists_source_of_mapM h.rows hf
    exact ⟨name, f, findField_eq_ok_iff.1 hname, rfl, rfl⟩
  rcases List.mem_append.1 hf with hf | hf
  · obtain ⟨name, -, hname⟩ := exists_source_of_mapM (option_mapM_eq_ok.1 h.column) hf
    exact ⟨name, f, findField_eq_ok_iff.1 hname, rfl, rfl⟩
  · obtain ⟨filter, hfilter, rfl⟩ := List.mem_map.1 hf
    obtain ⟨choice, -, hchoice⟩ := exists_source_of_mapM h.filters hfilter
    exact ⟨choice.field, filter.field, FilterChoice.field_of_resolve hchoice, rfl, rfl⟩

theorem get?_fieldIndex (id : FieldId) : config.fieldIndex.get? id = c.index.get? id := by
  have hplaced : ∀ f ∈ config.placed, ∃ g ∈ config.references, g.id = f.id := by
    intro f hf
    obtain ⟨name, g, hg, hid, -⟩ := h.means_placed hf
    exact ⟨g, h.references ▸ hg.mem, hid⟩
  rw [Config.get?_fieldIndex hplaced, h.references, Catalog.index]

theorem leads_iff {m f : Field} (hcalc : m.calculation = f.calculation) {id : FieldId} :
    config.fieldIndex.Leads m id ↔ c.index.Leads f id := by
  have hread : m.dependencies = f.dependencies := by rw [Field.dependencies, hcalc]; rfl
  rw [FieldIndex.Leads.congr fun id _ => (h.get?_fieldIndex id)]
  exact ⟨.of_dependencies hread, .of_dependencies hread.symm⟩

theorem sameCalculations (hc : c.DistinctIds) : config.SameCalculations := by
  have hsource {f : Field} (hf : f ∈ config.fieldIndex.added) :
      ∃ g ∈ c.fields, g.id = f.id ∧ g.calculation = f.calculation := by
    rw [Config.added_fieldIndex, h.references] at hf
    rcases List.mem_append.1 hf with hf | hf
    · obtain ⟨name, g, hg, hid, hcalc⟩ := h.means_placed hf
      exact ⟨g, hg.mem, hid, hcalc⟩
    · exact ⟨f, hf, rfl, rfl⟩
  intro f hf f' hf' hid
  obtain ⟨g, hg, hgid, hcalc⟩ := hsource hf
  obtain ⟨g', hg', hgid', hcalc'⟩ := hsource hf'
  rw [← hcalc, ← hcalc', List.inj_on_of_nodup_map hc hg hg' (hgid.trans (hid.trans hgid'.symm))]

theorem measuresIndexed (hc : c.DistinctIds) : config.MeasuresIndexed :=
  (h.sameCalculations hc).measuresIndexed

/-- The parts mean the same in a catalog in which all names do. -/
theorem of_means (hmeans : ∀ name ∈ l.names, ∀ f, c.Means name f → c'.Means name f) :
    l.Places c' { config with references := c'.fields } := by
  have hfind {role : Role} {name : String} (hname : name ∈ l.names) (f : Field)
      (hf : findField c role name = .ok f) : findField c' role name = .ok f :=
    findField_eq_ok_iff.2 (hmeans name hname f (findField_eq_ok_iff.1 hf))
  constructor
  case rows =>
    exact mapM_of_ok h.rows fun name hname => hfind (List.mem_append_left _ hname)
  case column =>
    apply option_mapM_eq_ok.2
    refine mapM_of_ok (option_mapM_eq_ok.1 h.column) fun name hname => hfind ?_
    exact List.mem_append_right _ (List.mem_append_left _ hname)
  case measures =>
    refine mapM_of_ok h.measures fun m hm f => MeasureChoice.resolve_of_means (hmeans _ ?_)
    have hname : m.field ∈ l.measures.map (·.field) := List.mem_map_of_mem hm
    simp [names, hname]
  case filters =>
    refine mapM_of_ok h.filters fun m hm f => FilterChoice.resolve_of_means (hmeans _ ?_)
    have hname : m.field ∈ l.filters.map (·.field) := List.mem_map_of_mem hm
    simp [names, hname]
  case references => rfl

end Places

/-- An accepted layout uses only fields that are there. -/
theorem isSome_of_uses (hc : c.DistinctIds) (h : l.toConfig c = .ok config) {id : FieldId}
    (hid : l.Uses c id) : (c.index.get? id).isSome := by
  obtain ⟨hplaces, hvalid⟩ := toConfig_eq_ok_iff.1 h
  have hlooks := ((Config.validate_eq_ok_iff (hplaces.measuresIndexed hc)).1 hvalid).2
  cases hid with
  | named _ hf hid =>
    rw [(Catalog.index_get?_eq_some_iff hc).2 ⟨hf.mem, hid⟩]
    rfl
  | @led choice f hchoice hf hid =>
    obtain ⟨m, hm, hresolve⟩ := exists_result_of_mapM hplaces.measures hchoice
    obtain ⟨g, hg, -, hcalc⟩ := MeasureChoice.field_of_resolve hresolve
    obtain rfl := Option.some.inj (hg.symm.trans hf)
    have hleads := (hplaces.leads_iff hcalc).2 hid
    rw [← hplaces.get?_fieldIndex]
    exact hlooks m hm (Field.isCalculated_of_leads hleads) id hleads

/-- Another catalog in which the names of a layout mean the same and all fields it uses are as they
were. -/
structure Agrees (l : Layout) (c c' : Catalog) : Prop where
  means {name : String} {f : Field} : name ∈ l.names → c.Means name f → c'.Means name f
  index {id : FieldId} : l.Uses c id → c'.index.get? id = c.index.get? id

theorem agrees_of_register (hc : c.DistinctIds) (h : l.toConfig c = .ok config) {f : Field}
    (hreg : c.register f = .ok c') (hid : f.id ∉ l.names) : l.Agrees c c' := by
  constructor
  case means =>
    intro name g hname hg
    have hne : name ≠ f.id := fun heq => hid (heq ▸ hname)
    exact hg.register hreg hne
  case index =>
    intro id huses
    -- formulas may lead to ids of fields that are gone, but not those of an accepted layout
    have hne : id ≠ f.id := by
      rintro rfl
      obtain ⟨g, hg⟩ := Option.isSome_iff_exists.1 (isSome_of_uses hc h huses)
      obtain ⟨hmem, hgf⟩ := (Catalog.index_get?_eq_some_iff hc).1 hg
      obtain ⟨⟨-, -, hfree, -⟩, -⟩ := Catalog.register_eq_ok_iff.1 hreg
      exact List.find?_eq_none.1 hfree g hmem (by simpa using hgf)
    exact (Catalog.index_get?_of_ne (Catalog.filter_of_register hreg) hne).symm

theorem agrees_of_remove (hc : c.DistinctIds) {id : FieldId} {f : Field}
    (hrem : c.remove id = .ok (f, c')) (hid : ¬ l.Uses c id) : l.Agrees c c' := by
  constructor
  case means =>
    intro name g hname hg
    exact hg.remove hc hrem fun heq => hid (.named hname hg heq)
  case index =>
    intro id' huses
    have hne : id' ≠ id := fun heq => hid (heq ▸ huses)
    exact Catalog.index_get?_of_ne (Catalog.fields_of_remove hc hrem) hne

theorem toConfig_of_agrees (hc : c.DistinctIds) (hc' : c'.DistinctIds)
    (h : l.toConfig c = .ok config) (hagrees : l.Agrees c c') :
    l.toConfig c' = .ok { config with references := c'.fields } ∧
      ∀ records, { config with references := c'.fields }.compute records =
        config.compute records := by
  obtain ⟨hplaces, hvalid⟩ := toConfig_eq_ok_iff.1 h
  have hplaces' := hplaces.of_means fun _ hname _ => hagrees.means hname
  have hindex : config.AgreesOn { config with references := c'.fields }.fieldIndex := by
    intro m hm id hid
    obtain ⟨choice, hchoice, f, hf, -, hcalc⟩ := hplaces.field_of_measure hm
    rw [hplaces'.get?_fieldIndex, hplaces.get?_fieldIndex]
    exact hagrees.index (.led hchoice hf ((hplaces.leads_iff hcalc).1 hid))
  have hvalid' := Config.validate_references hindex (hplaces.measuresIndexed hc)
    (hplaces'.measuresIndexed hc') hvalid
  exact ⟨toConfig_eq_ok_iff.2 ⟨hplaces', hvalid'⟩, Config.compute_references hindex⟩

end Layout

end Crosstab.Session
