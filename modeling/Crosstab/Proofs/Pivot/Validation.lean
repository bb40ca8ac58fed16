import Crosstab.Proofs.Evaluation.Closure
import Crosstab.Proofs.Pivot.Faults

/-!
# What validation looks up

`follow` goes through the formulas of the calculated measures and of the fields they lead to, one
formula for each id. It succeeds if every id that it comes upon can be looked up. Where a measure
and the field under its id in the index have the same formula, it comes upon everything that
evaluation can ask for, so no cell has an unknown field; where they differ, one of the two formulas
is never looked at.
-/

namespace Crosstab.Pivot.Config

def Resolves (index : FieldIndex) (f : Field) : Prop :=
  ∀ id ∈ f.dependencies, (index.get? id).isSome

theorem calculatedAmong_eq_ok_iff {index : FieldIndex} {ids : List FieldId} {fs : List Field} :
    calculatedAmong index ids = .ok fs ↔
      (∀ id ∈ ids, (index.get? id).isSome) ∧
        fs = (ids.filterMap index.get?).filter (·.isCalculated) := by
  induction ids generalizing fs with
  | nil =>
    rw [calculatedAmong, Except.ok.injEq, eq_comm]
    exact (and_iff_right (List.forall_mem_nil _)).symm
  | cons id ids ih =>
    rw [calculatedAmong]
    cases hid : index.get? id with
    | none => simp [hid]
    | some f =>
      have hcons : ((id :: ids).filterMap index.get?).filter (·.isCalculated) =
          if f.isCalculated then f :: (ids.filterMap index.get?).filter (·.isCalculated)
          else (ids.filterMap index.get?).filter (·.isCalculated) := by
        rw [List.filterMap_cons_some hid, List.filter_cons]
      rw [hcons]
      constructor
      · intro h
        obtain ⟨gs, hgs, h⟩ := bind_eq_ok.1 h
        obtain ⟨hsome, rfl⟩ := ih.1 hgs
        exact ⟨List.forall_mem_cons.2 ⟨by rw [hid]; rfl, hsome⟩, (Except.ok.inj h).symm⟩
      · rintro ⟨hsome, rfl⟩
        exact bind_eq_ok.2 ⟨_, ih.2 ⟨(List.forall_mem_cons.1 hsome).2, rfl⟩, rfl⟩

/-- The fields that `follow` looks at: pending ones, and calculated ones that their formulas read,
as long as their ids are unvisited. -/
inductive Visits (index : FieldIndex) (unvisited : List FieldId) (pending : List Field) :
    Field → Prop
  | start {f : Field} (hf : f ∈ pending) (hid : f.id ∈ unvisited) :
    Visits index unvisited pending f
  | next {f g : Field} {id : FieldId} (h : Visits index unvisited pending f)
    (hid : id ∈ f.dependencies) (hg : index.get? id = some g) (hcalc : g.isCalculated = true)
    (hun : g.id ∈ unvisited) : Visits index unvisited pending g

theorem mem_without {ids : List FieldId} {id id' : FieldId} :
    id' ∈ without ids id ↔ id' ∈ ids ∧ id' ≠ id := by
  simp [without]

section
variable {index : FieldIndex} {unvisited : List FieldId} {f : Field} {fs found : List Field}

theorem Visits.of_not_mem (hf : f.id ∉ unvisited) {g : Field} :
    Visits index unvisited (f :: fs) g ↔ Visits index unvisited fs g := by
  constructor
  · intro h
    induction h with
    | start hmem hid =>
      rcases List.mem_cons.1 hmem with rfl | hmem
      · exact absurd hid hf
      · exact .start hmem hid
    | next _ hid hg hcalc hun ih => exact .next ih hid hg hcalc hun
  · intro h
    induction h with
    | start hmem hid => exact .start (List.mem_cons_of_mem f hmem) hid
    | next _ hid hg hcalc hun ih => exact .next ih hid hg hcalc hun

variable (hfound : ∀ g, g ∈ found ↔
  g.isCalculated = true ∧ ∃ id ∈ f.dependencies, index.get? id = some g)
include hfound

theorem Visits.of_without (hf : f.id ∈ unvisited) {g : Field}
    (h : Visits index (without unvisited f.id) (found.reverse ++ fs) g) :
    Visits index unvisited (f :: fs) g := by
  have hstart : Visits index unvisited (f :: fs) f := .start List.mem_cons_self hf
  induction h with
  | start hmem hid =>
    have hun := (mem_without.1 hid).1
    rcases List.mem_append.1 hmem with hmem | hmem
    · obtain ⟨hcalc, id, hdep, hg⟩ := (hfound _).1 (List.mem_reverse.1 hmem)
      exact .next hstart hdep hg hcalc hun
    · exact .start (List.mem_cons_of_mem f hmem) hun
  | next _ hid hg hcalc hun ih => exact .next ih hid hg hcalc (mem_without.1 hun).1

/-- What is visited besides a field is visited without its id, too, if fields with its id read
what it reads. -/
theorem Visits.without {g : Field} (h : Visits index unvisited (f :: fs) g)
    (hsame : ∀ g, Visits index unvisited (f :: fs) g → g.id = f.id →
      g.dependencies = f.dependencies) :
    g.id = f.id ∨ Visits index (Config.without unvisited f.id) (found.reverse ++ fs) g := by
  induction h with
  | @start g hmem hid =>
    by_cases hg : g.id = f.id
    · exact .inl hg
    · rcases List.mem_cons.1 hmem with rfl | hmem
      · exact absurd rfl hg
      · exact .inr (.start (List.mem_append_right _ hmem) (mem_without.2 ⟨hid, hg⟩))
  | @next f' g id hf' hdep hget hcalc hun ih =>
    by_cases hg : g.id = f.id
    · exact .inl hg
    · have hun' := mem_without.2 ⟨hun, hg⟩
      rcases ih with hf | hf
      · have hmem : g ∈ found := (hfound g).2 ⟨hcalc, id, hsame f' hf' hf ▸ hdep, hget⟩
        exact .inr (.start (List.mem_append_left _ (List.mem_reverse.2 hmem)) hun')
      · exact .inr (.next hf hdep hget hcalc hun')

end

/-- Fields of one kind, to which all calculated fields of the index belong, and of which those with
one id read the same. -/
structure Uniform (index : FieldIndex) (kind : Field → Prop) : Prop where
  indexed {id : FieldId} {f : Field} : index.get? id = some f → f.isCalculated = true → kind f
  same {f g : Field} : kind f → kind g → f.id = g.id → f.dependencies = g.dependencies

theorem Visits.kind {index : FieldIndex} {kind : Field → Prop} (hkind : Uniform index kind)
    {unvisited : List FieldId} {pending : List Field} (hp : ∀ f ∈ pending, kind f) {g : Field}
    (h : Visits index unvisited pending g) : kind g := by
  cases h with
  | start hmem _ => exact hp g hmem
  | next _ _ hg hcalc _ => exact hkind.indexed hg hcalc

theorem not_visits_nil {index : FieldIndex} {unvisited : List FieldId} {g : Field} :
    ¬ Visits index unvisited [] g := by
  intro h
  induction h with
  | start hmem _ => cases hmem
  | next _ _ _ _ _ ih => exact ih

/-- `follow` succeeds if all formulas it looks at read only fields of the index. -/
theorem follow_eq_ok_iff {index : FieldIndex} {kind : Field → Prop} (hkind : Uniform index kind)
    {unvisited : List FieldId} {pending : List Field} (hp : ∀ f ∈ pending, kind f) :
    follow index unvisited pending = .ok () ↔
      ∀ g, Visits index unvisited pending g → Resolves index g := by
  fun_induction follow index unvisited pending with
  | case1 => exact iff_of_true rfl fun g h => absurd h not_visits_nil
  | case2 unvisited f fs hf ih =>
    obtain ⟨hkf, hkfs⟩ := List.forall_mem_cons.1 hp
    have hmem {g : Field} : g ∈ (f.dependencies.filterMap index.get?).filter (·.isCalculated) ↔
        g.isCalculated = true ∧ ∃ id ∈ f.dependencies, index.get? id = some g := by
      simp [and_comm]
    have hrest : ∀ g ∈ ((f.dependencies.filterMap index.get?).filter (·.isCalculated)).reverse ++ fs,
        kind g := by
      intro g hg
      rcases List.mem_append.1 hg with hg | hg
      · obtain ⟨hcalc, id, -, hid⟩ := hmem.1 (List.mem_reverse.1 hg)
        exact hkind.indexed hid hcalc
      · exact hkfs g hg
    constructor
    · intro h g hg
      obtain ⟨found, hamong, hfollow⟩ := bind_eq_ok.1 h
      obtain ⟨hresolves, rfl⟩ := calculatedAmong_eq_ok_iff.1 hamong
      have hsame (g : Field) (hg : Visits index unvisited (f :: fs) g) (hid : g.id = f.id) :
          g.dependencies = f.dependencies :=
        hkind.same (hg.kind hkind hp) hkf hid
      rcases Visits.without (fun _ => hmem) hg hsame with hid | hg'
      · rw [Resolves, hsame g hg hid]
        exact hresolves
      · exact (ih _ hrest).1 hfollow g hg'
    · intro h
      have hresolves := h f (.start List.mem_cons_self hf)
      refine bind_eq_ok.2 ⟨_, calculatedAmong_eq_ok_iff.2 ⟨hresolves, rfl⟩, ?_⟩
      exact (ih _ hrest).2 fun g hg => h g (Visits.of_without (fun _ => hmem) hf hg)
  | case3 unvisited f fs hf ih =>
    rw [ih (List.forall_mem_cons.1 hp).2]
    exact forall_congr' fun g => imp_congr_left (Visits.of_not_mem hf).symm

/-! ### What is looked at is what formulas lead to -/

section
variable {index : FieldIndex} {pending : List Field}

theorem exists_leads_of_visits {unvisited : List FieldId} {g : Field}
    (h : Visits index unvisited pending g) :
    ∃ m ∈ pending, ∀ id ∈ g.dependencies, index.Leads m id := by
  induction h with
  | @start f hmem _ => exact ⟨f, hmem, fun id hid => .read hid⟩
  | next _ hid hg _ _ ih =>
    obtain ⟨m, hm, hleads⟩ := ih
    exact ⟨m, hm, fun id' hid' => .through (hleads _ hid) hg hid'⟩

variable (hresolves : ∀ g, Visits index index.ids pending g → Resolves index g)
include hresolves

theorem isSome_and_visits {f : Field} (hf : Visits index index.ids pending f) {id : FieldId}
    (hid : id ∈ f.dependencies) :
    (index.get? id).isSome ∧
      ∀ g, index.get? id = some g → g.isCalculated = true → Visits index index.ids pending g := by
  refine ⟨hresolves f hf id hid, fun g hg hcalc => .next hf hid hg hcalc ?_⟩
  rw [FieldIndex.id_of_get? hg]
  exact FieldIndex.mem_ids_of_get? hg

theorem isSome_of_leads {m : Field} (hm : m ∈ pending) (hid : m.id ∈ index.ids) {id : FieldId}
    (h : index.Leads m id) : (index.get? id).isSome := by
  -- a field that is led to is looked at itself, so the induction carries both
  have hboth : (index.get? id).isSome ∧
      ∀ g, index.get? id = some g → g.isCalculated = true → Visits index index.ids pending g := by
    induction h with
    | read hread => exact isSome_and_visits hresolves (.start hm hid) hread
    | through _ hg hread ih =>
      have hcalc := Field.isCalculated_of_mem_dependencies hread
      exact isSome_and_visits hresolves (ih.2 _ hg hcalc) hread
  exact hboth.1

end

variable (c : Config)

def LooksUp : Prop :=
  ∀ m ∈ c.measures, m.isCalculated = true → ∀ id, c.fieldIndex.Leads m id →
    (c.fieldIndex.get? id).isSome

/-- A calculated measure and a calculated field under its id in the index read the same. -/
def MeasuresIndexed : Prop :=
  ∀ m ∈ c.measures, m.isCalculated = true → ∀ f, c.fieldIndex.get? m.id = some f →
    f.isCalculated = true → f.dependencies = m.dependencies

def SameCalculations : Prop :=
  ∀ f ∈ c.fieldIndex.added, ∀ g ∈ c.fieldIndex.added, f.id = g.id → f.calculation = g.calculation

variable {c}

theorem SameCalculations.measuresIndexed (h : c.SameCalculations) : c.MeasuresIndexed := by
  intro m hm _ f hf _
  have hcalc := h f (FieldIndex.mem_of_get? hf) m (List.mem_append_left _ hm)
    (FieldIndex.id_of_get? hf)
  rw [Field.dependencies, Field.dependencies, hcalc]

theorem MeasuresIndexed.uniform (h : c.MeasuresIndexed) (hids : (c.measures.map (·.id)).Nodup) :
    Uniform c.fieldIndex fun f => f.isCalculated = true ∧
      (f ∈ c.measures ∨ c.fieldIndex.get? f.id = some f) := by
  constructor
  case indexed =>
    intro id f hf hcalc
    exact ⟨hcalc, .inr (FieldIndex.id_of_get? hf ▸ hf)⟩
  case same =>
    rintro f g ⟨hf, hfm | hfi⟩ ⟨hg, hgm | hgi⟩ hid
    · rw [List.inj_on_of_nodup_map hids hfm hgm hid]
    · exact (h f hfm hf g (hid ▸ hgi) hg).symm
    · exact h g hgm hg f (hid ▸ hfi) hf
    · rw [hid, hgi] at hfi
      rw [Option.some.inj hfi]

theorem id_mem_ids {m : Field} (hm : m ∈ c.measures) : m.id ∈ c.fieldIndex.ids := by
  rw [FieldIndex.ids, List.mem_eraseDups]
  exact List.mem_map_of_mem (List.mem_append_left _ hm)

theorem validate_eq_ok_iff (h : c.MeasuresIndexed) :
    c.validate = .ok () ↔ checkMeasures [] c.measures = .ok () ∧ c.LooksUp := by
  have hpending {m : Field} : m ∈ (c.measures.filter (·.isCalculated)).reverse ↔
      m ∈ c.measures ∧ m.isCalculated = true := by
    rw [List.mem_reverse, List.mem_filter]
  have hsteps : c.validate = .ok () ↔ checkMeasures [] c.measures = .ok () ∧
      follow c.fieldIndex c.fieldIndex.ids (c.measures.filter (·.isCalculated)).reverse =
        .ok () := by
    rw [validate, bind_eq_ok]
    constructor
    · rintro ⟨_, hcheck, hfollow⟩
      exact ⟨hcheck, hfollow⟩
    · rintro ⟨hcheck, hfollow⟩
      exact ⟨(), hcheck, hfollow⟩
  rw [hsteps]
  apply and_congr_right
  intro hcheck
  have hkind := h.uniform (checkMeasures_eq_ok_iff.1 hcheck).1
  rw [follow_eq_ok_iff hkind fun m hm => ⟨(hpending.1 hm).2, .inl (hpending.1 hm).1⟩]
  constructor
  · intro hresolves m hm hcalc id hleads
    exact isSome_of_leads hresolves (hpending.2 ⟨hm, hcalc⟩) (id_mem_ids hm) hleads
  · intro hlooks g hg id hid
    obtain ⟨m, hm, hleads⟩ := exists_leads_of_visits hg
    exact hlooks m (hpending.1 hm).1 (hpending.1 hm).2 id (hleads id hid)

/-- Measures with distinct ids and without formulas are all that is needed. -/
theorem validate_of_base (hids : (c.measures.map (·.id)).Nodup)
    (hbase : ∀ m ∈ c.measures, m.isCalculated = false) : c.validate = .ok () := by
  have hnot {m : Field} (hm : m ∈ c.measures) : m.isCalculated ≠ true := by simp [hbase m hm]
  have hindexed : c.MeasuresIndexed := fun m hm hcalc => absurd hcalc (hnot hm)
  refine (validate_eq_ok_iff hindexed).2 ⟨?_, fun m hm hcalc => absurd hcalc (hnot hm)⟩
  refine checkMeasures_eq_ok_iff.2 ⟨hids, fun m _ => List.not_mem_nil, ?_⟩
  exact fun m hm hcalc => absurd hcalc (hnot hm)

end Crosstab.Pivot.Config

namespace Crosstab.Pivot

open Evaluation (Known)

theorem Config.known_outcomeOver {c : Config} (h : c.LooksUp) {m : Field} (hm : m ∈ c.measures)
    (es : List Entry) : Evaluation.Raises Known (c.outcomeOver m es) := by
  rw [outcomeOver]
  by_cases hcalc : m.isCalculated = true
  · rw [if_pos hcalc]
    exact Evaluation.known_calculate hcalc (h m hm hcalc) _ 0
  · rw [if_neg hcalc]
    exact .ok _

/-- A cell of an accepted configuration misses no field, as long as a calculated measure and the
field under its id read the same: whatever its formula leads to can be looked up. -/
theorem tabulate_known (records : List Record) (c : Config) (hc : c.validate = .ok ())
    (hm : c.MeasuresIndexed) :
    c.LooksUp ∧ ∃ t, tabulate records c = .ok t ∧
      ∀ fault ∈ t.faults, ∀ id, fault.error ≠ .unknownField id := by
  have hlooks := ((Config.validate_eq_ok_iff hm).1 hc).2
  refine ⟨hlooks, c.compute records, by rw [tabulate, hc]; rfl, ?_⟩
  intro fault hfault
  rw [c.faults_compute] at hfault
  obtain ⟨⟨cell, m⟩, hp, hfault⟩ := List.mem_filterMap.1 hfault
  obtain ⟨cell', -, hp⟩ := List.mem_flatMap.1 hp
  obtain ⟨m', hm', hp⟩ := List.mem_map.1 hp
  obtain ⟨rfl, rfl⟩ := Prod.mk.inj hp
  exact Config.known_outcomeOver hlooks hm' _ _ (reports_of_fault? hfault).error

theorem ledger_measuresIndexed : ledgerConfig.MeasuresIndexed := by
  intro m hm hcalc f hf _
  have hshare : ledgerConfig.fieldIndex.get? "share" = some ⟨"share", "Share", .number, some .sum,
      some ⟨"[Amount] / [Rate]", .binary .divide (.field "amount") (.field "rate")⟩⟩ := by cbv
  rcases List.mem_pair.1 hm with rfl | rfl
  · cases hcalc
  · rw [hshare] at hf
    rw [← Option.some.inj hf]

theorem ledger_known :
    (ledgerConfig.validate = .ok () ∧ ledgerConfig.MeasuresIndexed) ∧ ledgerConfig.LooksUp ∧
      ∃ t, tabulate ledger ledgerConfig = .ok t ∧
        ∀ fault ∈ t.faults, ∀ id, fault.error ≠ .unknownField id :=
  ⟨⟨by cbv, ledger_measuresIndexed⟩,
    tabulate_known ledger ledgerConfig (by cbv) ledger_measuresIndexed⟩

def spreadConfig : Config where
  rows := [⟨"x", "Spread", .number, some .sum, some ⟨"[gone]", .field "gone"⟩⟩]
  column := none
  measures := [⟨"y", "Twice", .number, some .sum, some ⟨"[x]", .field "x"⟩⟩,
    ⟨"x", "Spread", .number, some .sum, some ⟨"TRUE", .boolean true⟩⟩]
  filters := []
  references := []

/-- The formula of the measure is followed in place of the one in the index, which goes unchecked;
in the other order of the measures it is the one in the index that is followed. -/
theorem spread_unknown :
    spreadConfig.validate = .ok () ∧
      (∃ t, tabulate [∅] spreadConfig = .ok t ∧
        ∃ fault ∈ t.faults, fault.error = .unknownField "gone") ∧
      { spreadConfig with measures := spreadConfig.measures.reverse }.validate =
        .error (.unknownField "gone" .formula) := by
  have hvalid : spreadConfig.validate = .ok () := by cbv
  refine ⟨hvalid, ⟨spreadConfig.compute [∅], by rw [tabulate, hvalid]; rfl, ?_⟩, by cbv⟩
  have hfaults : (spreadConfig.compute [∅]).faults =
      [⟨[""], none, "y", .unknownField "gone"⟩, ⟨[], none, "y", .unknownField "gone"⟩] := rfl
  rw [hfaults]
  exact ⟨_, List.mem_cons_self, rfl⟩

end Crosstab.Pivot
