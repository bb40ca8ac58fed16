import Crosstab.Proofs.Field.Circles
import Crosstab.Proofs.Session.Layout

/-!
# Which configurations are accepted

Validation follows the formulas of the calculated measures with a stack of pending fields, which
may hold a field many times over, and a record of the ids it has visited. Each turn takes a field off
the stack or visits a new id, so the search ends, also where formulas lead in a circle. It has come
upon every id that the formulas lead to then, and an id it misses is one of them.
-/

namespace Crosstab

namespace Pivot.Config

/-! ### The search ends -/

/-- Follows pending fields for a number of turns. Ids that were visited are passed over; there is no
result as long as fields are pending. -/
def followFor (index : FieldIndex) : (turns : Nat) → (visited : List FieldId) →
    (pending : List Field) → Option (Except ConfigError Unit)
  | _, _, [] => some (.ok ())
  | 0, _, _ :: _ => none
  | turns + 1, visited, f :: fs =>
    if f.id ∈ visited then followFor index turns visited fs
    else
      match calculatedAmong index f.dependencies with
      | .error e => some (.error e)
      | .ok found => followFor index turns (f.id :: visited) (found.reverse ++ fs)

def validateFor (c : Config) (turns : Nat) : Option (Except ConfigError Unit) :=
  match checkMeasures [] c.measures with
  | .error e => some (.error e)
  | .ok () => followFor c.fieldIndex turns [] (c.measures.filter (·.isCalculated)).reverse

theorem id_mem_ids_of_calculatedAmong {index : FieldIndex} {ids : List FieldId} {found : List Field}
    (h : calculatedAmong index ids = .ok found) {f : Field} (hf : f ∈ found) :
    f.id ∈ index.ids := by
  obtain ⟨-, rfl⟩ := calculatedAmong_eq_ok_iff.1 h
  obtain ⟨id, -, hid⟩ := List.mem_filterMap.1 (List.mem_filter.1 hf).1
  exact FieldIndex.id_of_get? hid ▸ FieldIndex.mem_ids_of_get? hid

/-- The search ends with the same result, whether it keeps the ids that it has visited or those that
it has not. -/
theorem exists_followFor {index : FieldIndex} {unvisited visited : List FieldId}
    {pending : List Field} (hvisited : ∀ id ∈ index.ids, id ∈ visited ↔ id ∉ unvisited)
    (hpending : ∀ f ∈ pending, f.id ∈ index.ids) :
    ∃ turns, followFor index turns visited pending = some (follow index unvisited pending) := by
  fun_induction follow index unvisited pending generalizing visited with
  | case1 => exact ⟨0, rfl⟩
  | case2 unvisited f fs hf ih =>
    obtain ⟨hid, hfs⟩ := List.forall_mem_cons.1 hpending
    have hnew : f.id ∉ visited := fun hmem => (hvisited _ hid).1 hmem hf
    cases hfound : calculatedAmong index f.dependencies with
    | error e =>
      refine ⟨1, ?_⟩
      rw [followFor, if_neg hnew, hfound]
      rfl
    | ok found =>
      have hvisited' : ∀ id ∈ index.ids, id ∈ f.id :: visited ↔ id ∉ without unvisited f.id := by
        intro id hmem
        rw [List.mem_cons, hvisited id hmem, mem_without]
        tauto
      have hpending' : ∀ g ∈ found.reverse ++ fs, g.id ∈ index.ids := by
        intro g hg
        rcases List.mem_append.1 hg with hg | hg
        · exact id_mem_ids_of_calculatedAmong hfound (List.mem_reverse.1 hg)
        · exact hfs g hg
      obtain ⟨turns, hturns⟩ := ih found hvisited' hpending'
      refine ⟨turns + 1, ?_⟩
      rw [followFor, if_neg hnew, hfound]
      exact hturns
  | case3 unvisited f fs hf ih =>
    obtain ⟨hid, hfs⟩ := List.forall_mem_cons.1 hpending
    obtain ⟨turns, hturns⟩ := ih hvisited hfs
    refine ⟨turns + 1, ?_⟩
    rw [followFor, if_pos ((hvisited _ hid).2 hf)]
    exact hturns

theorem exists_validateFor (c : Config) : ∃ turns, c.validateFor turns = some c.validate := by
  cases hcheck : checkMeasures [] c.measures with
  | error e => exact ⟨0, by rw [validateFor, validate, hcheck]; rfl⟩
  | ok =>
    have hvisited : ∀ id ∈ c.fieldIndex.ids, id ∈ [] ↔ id ∉ c.fieldIndex.ids := fun id hid =>
      iff_of_false List.not_mem_nil (not_not_intro hid)
    have hpending : ∀ m ∈ (c.measures.filter (·.isCalculated)).reverse,
        m.id ∈ c.fieldIndex.ids := fun m hm =>
      id_mem_ids (List.mem_filter.1 (List.mem_reverse.1 hm)).1
    obtain ⟨turns, hturns⟩ := exists_followFor hvisited hpending
    exact ⟨turns, by rw [validateFor, validate, hcheck]; exact hturns⟩

/-! ### Missing fields -/

theorem calculatedAmong_error {index : FieldIndex} {ids : List FieldId} {e : ConfigError}
    (h : calculatedAmong index ids = .error e) :
    ∃ id ∈ ids, index.get? id = none ∧ e = .unknownField id .formula := by
  induction ids with
  | nil => cases h
  | cons id ids ih =>
    rw [calculatedAmong] at h
    cases hid : index.get? id with
    | none =>
      rw [hid] at h
      exact ⟨id, List.mem_cons_self, hid, (Except.error.inj h).symm⟩
    | some f =>
      rw [hid] at h
      cases hrest : calculatedAmong index ids with
      | ok fs =>
        rw [hrest] at h
        cases h
      | error e' =>
        rw [hrest] at h
        obtain rfl := Except.error.inj h
        obtain ⟨id', hid', hnone⟩ := ih hrest
        exact ⟨id', List.mem_cons_of_mem id hid', hnone⟩

/-- The search fails at a field it looks at, whose formula reads an id that is not there. -/
theorem follow_error {index : FieldIndex} {unvisited : List FieldId} {pending : List Field}
    {e : ConfigError} (h : follow index unvisited pending = .error e) :
    ∃ g id, Visits index unvisited pending g ∧ id ∈ g.dependencies ∧ index.get? id = none ∧
      e = .unknownField id .formula := by
  fun_induction follow index unvisited pending with
  | case1 => cases h
  | case2 unvisited f fs hf ih =>
    cases hfound : calculatedAmong index f.dependencies with
    | error e' =>
      rw [hfound] at h
      obtain rfl := Except.error.inj h
      obtain ⟨id, hid, hnone, rfl⟩ := calculatedAmong_error hfound
      exact ⟨f, id, .start List.mem_cons_self hf, hid, hnone, rfl⟩
    | ok found =>
      rw [hfound] at h
      obtain ⟨g, id, hg, hid⟩ := ih found h
      have hmem (g : Field) : g ∈ found ↔
          g.isCalculated = true ∧ ∃ id ∈ f.dependencies, index.get? id = some g := by
        obtain ⟨-, rfl⟩ := calculatedAmong_eq_ok_iff.1 hfound
        simp [and_comm]
      exact ⟨g, id, Visits.of_without hmem hf hg, hid⟩
  | case3 unvisited f fs hf ih =>
    obtain ⟨g, id, hg, hid⟩ := ih h
    exact ⟨g, id, (Visits.of_not_mem hf).2 hg, hid⟩

theorem checkMeasures_ne_unknownField {seen : List FieldId} {ms : List Field} {id : FieldId}
    {role : Role} : checkMeasures seen ms ≠ .error (.unknownField id role) := by
  intro h
  induction ms generalizing seen with
  | nil => cases h
  | cons m ms ih =>
    rw [checkMeasures] at h
    split_ifs at h
    · cases h
    · cases h
    · exact ih h

theorem exists_leads_of_unknownField {c : Config} {id : FieldId} {role : Role}
    (h : c.validate = .error (.unknownField id role)) :
    role = .formula ∧ c.fieldIndex.get? id = none ∧
      ∃ m ∈ c.measures, m.isCalculated = true ∧ c.fieldIndex.Leads m id := by
  cases hcheck : checkMeasures [] c.measures with
  | error e =>
    rw [validate, hcheck] at h
    exact absurd (hcheck.trans h) checkMeasures_ne_unknownField
  | ok =>
    rw [validate, hcheck] at h
    obtain ⟨g, id', hg, hid, hnone, he⟩ := follow_error h
    obtain ⟨rfl, rfl⟩ := ConfigError.unknownField.inj he
    obtain ⟨m, hm, hleads⟩ := exists_leads_of_visits hg
    obtain ⟨hm, hcalc⟩ := List.mem_filter.1 (List.mem_reverse.1 hm)
    exact ⟨rfl, hnone, m, hm, hcalc, hleads id hid⟩

/-! ### Checked configurations -/

/-- Validation comes to an end. It accepts measures with different ids, of which the calculated ones
are summed, if everything that their formulas lead to is there; an unknown field is one that they
lead to and that is not there. -/
structure Checked (c : Config) : Prop where
  ends : ∃ turns, c.validateFor turns = some c.validate
  accepted : c.validate = .ok () ↔ (c.measures.map (·.id)).Nodup ∧
    (∀ m ∈ c.measures, m.isCalculated = true → m.aggregation = .sum) ∧
    ∀ m ∈ c.measures, m.isCalculated = true → ∀ id, c.fieldIndex.Leads m id →
      (c.fieldIndex.get? id).isSome
  missing {id : FieldId} {role : Role} : c.validate = .error (.unknownField id role) →
    role = .formula ∧ c.fieldIndex.get? id = none ∧
      ∃ m ∈ c.measures, m.isCalculated = true ∧ c.fieldIndex.Leads m id

theorem SameCalculations.checked {c : Config} (h : c.SameCalculations) : Checked c := by
  constructor
  case ends => exact c.exists_validateFor
  case accepted =>
    rw [validate_eq_ok_iff h.measuresIndexed, checkMeasures_eq_ok_iff, LooksUp]
    simp only [List.not_mem_nil, not_false_eq_true, implies_true, true_and, and_assoc]
  case missing => exact exists_leads_of_unknownField

end Pivot.Config

namespace Session

open Pivot (Config)

namespace Layout
variable {l : Layout} {c : Catalog} {config : Config}

theorem Places.toConfig_eq (h : l.Places c config) :
    l.toConfig c = config.validate.map fun _ => config := by
  obtain ⟨rows, column, measures, filters, references⟩ := config
  obtain ⟨hrows, hcolumn, hmeasures, hfilters, rfl⟩ := h
  have hsteps : l.toConfig c = do
      Config.validate ⟨rows, column, measures, filters, c.fields⟩
      return ⟨rows, column, measures, filters, c.fields⟩ := by
    rw [toConfig, hrows, hcolumn, hmeasures, hfilters]
    rfl
  rw [hsteps]
  cases Config.validate ⟨rows, column, measures, filters, c.fields⟩ <;> rfl

end Layout

/-- A configuration whose fields have one formula for each id is accepted if and only if its
measures have different ids, the calculated ones are summed, and everything that their formulas lead
to is there. The configurations of layouts are such if the ids of the catalog are distinct. -/
theorem checked_of_sameCalculations :
    (∀ config : Config, config.SameCalculations → config.Checked) ∧
    ∀ (l : Layout) (c : Catalog) (config : Config), c.DistinctIds → l.Places c config →
      config.SameCalculations ∧ l.toConfig c = config.validate.map fun _ => config :=
  ⟨fun _ h => h.checked, fun _ _ _ hc h => ⟨h.sameCalculations hc, h.toConfig_eq⟩⟩

def circleLayout : Layout := ⟨[], none, [⟨"A", none⟩], [], none⟩

def circleConfig : Config := ⟨[], none, [Catalog.secondA], [], Catalog.circleCatalog.fields⟩

/-- A circle of formulas is accepted, and a field that is missing from it is named. -/
theorem circle_checked :
    Catalog.circleCatalog.DistinctIds ∧ circleLayout.Places Catalog.circleCatalog circleConfig ∧
    circleConfig.SameCalculations ∧
    circleLayout.toConfig Catalog.circleCatalog =
      circleConfig.validate.map (fun _ => circleConfig) ∧
    circleConfig.Checked ∧ circleConfig.validate = .ok () ∧
    { circleConfig with references := [] }.SameCalculations ∧
    { circleConfig with references := [] }.Checked ∧
    { circleConfig with references := [] }.validate = .error (.unknownField "b" .formula) := by
  obtain ⟨hchecked, hlayouts⟩ := checked_of_sameCalculations
  have hids : Catalog.circleCatalog.DistinctIds := by
    rw [Catalog.DistinctIds]
    decide
  have hplaces : circleLayout.Places Catalog.circleCatalog circleConfig :=
    ⟨rfl, rfl, rfl, rfl, rfl⟩
  obtain ⟨hsame, hconfig⟩ := hlayouts _ _ _ hids hplaces
  have hsame' : { circleConfig with references := [] }.SameCalculations := by
    intro f hf g hg _
    rw [List.mem_singleton.1 hf, List.mem_singleton.1 hg]
  exact ⟨hids, hplaces, hsame, hconfig, hchecked _ hsame, by cbv, hsame', hchecked _ hsame',
    by cbv⟩

end Session

end Crosstab
