import Crosstab.Proofs.Field.Names
import Crosstab.Proofs.Formula.Brackets
import Crosstab.Proofs.Session.Commands

/-!
# Names of calculated fields

A calculated field that is added can be used in formulas by the name of the request. In brackets that
works for all names but those with a closing bracket, which are accepted nonetheless.
-/

namespace Crosstab.Session

open Formula (bracketed)

variable {s t : Session} {id : FieldId} {name formula : String} {a : Answer}

theorem addCalculated_of_act (h : (Command.addCalculated id name formula).act s = (.ok a, t)) :
    ∃ f, a = .field f ∧ s.addCalculated id name formula = .ok (f, t) := by
  rw [act_eq, Command.outcome] at h
  cases hadd : s.addCalculated id name formula with
  | error e =>
    rw [hadd] at h
    cases h
  | ok p =>
    rw [hadd] at h
    obtain ⟨ha, rfl⟩ := Prod.mk.inj h
    exact ⟨p.1, (Except.ok.inj ha).symm, rfl⟩

theorem resolve_of_addCalculated {f : Field} (h : s.addCalculated id name formula = .ok (f, t)) :
    t.catalog.resolve (Text.trim name) = some id := by
  obtain ⟨rfl, hdisplay, c, hreg, rfl⟩ := addCalculated_eq_ok h
  rw [← hdisplay]
  exact Catalog.resolve_of_register hreg

theorem validateFormula_bracketed
    (h : Formula.parse s.catalog.resolve (bracketed name) = .ok (.field id)) :
    s.validateFormula (bracketed name) = .valid [id] := by
  rw [validateFormula, Formula.trim_bracketed, h]
  exact congrArg Validation.valid (List.mergeSort_singleton id)

/-- After a calculated field is added, its name in brackets is a reference to it if and only if there
is no closing bracket in the name, and then the name in brackets is a valid formula. -/
theorem bracketed_of_added (h : (Command.addCalculated id name formula).act s = (.ok a, t)) :
    ∃ f, a = .field f ∧ f.id = id ∧ f.displayName = Text.trim name ∧
      (Formula.parse t.catalog.resolve (bracketed name) = .ok (.field f.id) ↔
        ']' ∉ name.toList) ∧
      (']' ∉ name.toList → t.validateFormula (bracketed name) = .valid [f.id]) := by
  obtain ⟨f, rfl, hadd⟩ := addCalculated_of_act h
  obtain ⟨rfl, hdisplay, -⟩ := addCalculated_eq_ok hadd
  have hname := resolve_of_addCalculated hadd
  refine ⟨f, rfl, rfl, hdisplay, Formula.parse_bracketed_iff hname, fun hclose => ?_⟩
  exact validateFormula_bracketed (Formula.parse_bracketed hclose hname)

def truthSession (displayName : String) : Session :=
  { new with catalog := Catalog.withTruth displayName }

theorem act_truth {displayName : String} (hname : Text.trim name = displayName)
    (hne : displayName ≠ "") (hfresh : ∀ g ∈ Catalog.financial.fields, g.displayName ≠ displayName) :
    (Command.addCalculated "calc_1" name "TRUE").act new =
      (.ok (.field (Catalog.truth displayName)), truthSession displayName) :=
  act_addCalculated_of_create hname hne (by cbv) (Catalog.create_truth hfresh)

theorem bracketed_of_added_grossProfit :
    (Command.addCalculated "calc_1" " Lucro [bruto " "TRUE").act new =
      (.ok (.field (Catalog.truth "Lucro [bruto")), truthSession "Lucro [bruto") ∧
    ∃ f, Answer.field (Catalog.truth "Lucro [bruto") = .field f ∧ f.id = "calc_1" ∧
      f.displayName = Text.trim " Lucro [bruto " ∧
      (Formula.parse (truthSession "Lucro [bruto").catalog.resolve
          (bracketed " Lucro [bruto ") = .ok (.field f.id) ↔ ']' ∉ " Lucro [bruto ".toList) ∧
      (']' ∉ " Lucro [bruto ".toList →
        (truthSession "Lucro [bruto").validateFormula (bracketed " Lucro [bruto ") =
          .valid [f.id]) := by
  have hact : (Command.addCalculated "calc_1" " Lucro [bruto " "TRUE").act new =
      (.ok (.field (Catalog.truth "Lucro [bruto")), truthSession "Lucro [bruto") :=
    act_truth (by cbv) (by decide) (by decide)
  exact ⟨hact, bracketed_of_added hact⟩

/-- A margin in per cent is accepted, but in brackets its name is cut short. -/
theorem percent_not_bracketed :
    (Command.addCalculated "calc_1" "Margem [%]" "TRUE").act new =
      (.ok (.field (Catalog.truth "Margem [%]")), truthSession "Margem [%]") ∧
    Formula.parse (truthSession "Margem [%]").catalog.resolve (bracketed "Margem [%]") ≠
      .ok (.field "calc_1") ∧
    (truthSession "Margem [%]").validateFormula (bracketed "Margem [%]") =
      .invalid (.unknownField "Margem [%") := by
  refine ⟨act_truth (by cbv) (by decide) (by decide), ?_, ?_⟩
  · exact Formula.parse_bracketed_ne (by decide)
  · cbv

end Crosstab.Session
