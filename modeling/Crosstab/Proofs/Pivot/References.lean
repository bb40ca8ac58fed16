import Crosstab.Proofs.Pivot.Validation

/-!
# Other fields to refer to

A configuration may be given other references. As long as they leave the index as it is wherever the
formulas of its measures lead, it is accepted as before and makes the same table of the same records.
-/

namespace Crosstab.Pivot.Config

def placed (c : Config) : List Field :=
  c.measures ++ (c.rows ++ (c.column.toList ++ c.filters.map (·.field)))

theorem added_fieldIndex (c : Config) : c.fieldIndex.added = c.placed ++ c.references := by
  simp only [fieldIndex, placed, List.append_assoc]

/-- References come last in the index, so they alone count if they have all the ids. -/
theorem get?_fieldIndex {c : Config} (h : ∀ f ∈ c.placed, ∃ g ∈ c.references, g.id = f.id)
    (id : FieldId) : c.fieldIndex.get? id = (FieldIndex.mk c.references).get? id := by
  rw [FieldIndex.get?, FieldIndex.get?, added_fieldIndex, List.reverse_append, List.find?_append]
  cases hreferences : c.references.reverse.find? (·.id = id) with
  | some g => rw [Option.some_or]
  | none =>
    rw [Option.none_or]
    apply List.find?_eq_none.2
    intro f hf
    obtain ⟨g, hg, hgf⟩ := h f (List.mem_reverse.1 hf)
    rw [← hgf]
    exact List.find?_eq_none.1 hreferences g (List.mem_reverse.2 hg)

/-- The same index wherever the formulas of the measures lead. -/
def AgreesOn (c : Config) (index : FieldIndex) : Prop :=
  ∀ m ∈ c.measures, ∀ id, c.fieldIndex.Leads m id → index.get? id = c.fieldIndex.get? id

variable {c : Config} {fs : List Field}

theorem outcome_congr {index : FieldIndex} (h : c.AgreesOn index) {m : Field}
    (hm : m ∈ c.measures) (records : List Record) :
    outcome index m records = outcome c.fieldIndex m records := by
  rw [outcome, outcome]
  by_cases hcalc : m.isCalculated = true
  · rw [if_pos hcalc, if_pos hcalc, Evaluation.calculate_congr (h m hm)]
  · rw [if_neg hcalc, if_neg hcalc]

theorem outcomes_congr {index : FieldIndex} (h : c.AgreesOn index) (es : List Entry) :
    c.outcomes index es = c.outcomes c.fieldIndex es := by
  apply List.map_congr_left
  intro m hm
  rw [outcome_congr h hm]

theorem crossTab_congr {index : FieldIndex} (h : c.AgreesOn index) (path : Path)
    (es : List Entry) : c.crossTab index path es = c.crossTab c.fieldIndex path es := by
  simp only [crossTab, outcomes_congr h]

variable (h : c.AgreesOn { c with references := fs }.fieldIndex)
include h

theorem outcomes_references (es : List Entry) :
    { c with references := fs }.outcomes { c with references := fs }.fieldIndex es =
      c.outcomes c.fieldIndex es :=
  outcomes_congr h es

theorem crossTab_references (path : Path) (es : List Entry) :
    { c with references := fs }.crossTab { c with references := fs }.fieldIndex path es =
      c.crossTab c.fieldIndex path es :=
  crossTab_congr h path es

theorem rowsBy_references (rows : List Field) (depth : Nat) (above : Path) (es : List Entry) :
    { c with references := fs }.rowsBy { c with references := fs }.fieldIndex rows depth above es =
      c.rowsBy c.fieldIndex rows depth above es := by
  induction rows generalizing depth above es with
  | nil => rfl
  | cons f rows ih => simp only [rowsBy, outcomes_references h, crossTab_references h, ih]

theorem compute_references (records : List Record) :
    { c with references := fs }.compute records = c.compute records := by
  simp only [compute, outcomes_references h, crossTab_references h, rowsBy_references h]
  rfl

theorem validate_references (hm : c.MeasuresIndexed)
    (hm' : { c with references := fs }.MeasuresIndexed) (hc : c.validate = .ok ()) :
    { c with references := fs }.validate = .ok () := by
  obtain ⟨hcheck, hlooks⟩ := (validate_eq_ok_iff hm).1 hc
  refine (validate_eq_ok_iff hm').2 ⟨hcheck, ?_⟩
  intro m hmem hcalc id hid
  have hold := (FieldIndex.Leads.congr (h m hmem)).1 hid
  rw [h m hmem id hold]
  exact hlooks m hmem hcalc id hold

end Crosstab.Pivot.Config
