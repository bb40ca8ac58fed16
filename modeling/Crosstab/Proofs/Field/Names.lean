import Crosstab.Proofs.Field.Changes
import Crosstab.Proofs.Formula.Names
import Mathlib

/-!
# Names of fields in formulas

The dependencies of a calculated field are the ids that the names in its formula had when it was
made. A field that comes in takes no name but its own display name, which may have been the id of
another field until then: formulas that have this name in them mean something else afterwards, and
all others mean what they meant.
-/

namespace Crosstab

open Formula (namesIn)

/-! ### Dependencies -/

theorem Formula.Expr.ascending_dependencies (e : Formula.Expr) :
    e.dependencies.Pairwise (· < ·) := by
  have hle : e.dependencies.Pairwise fun a b => decide (a ≤ b) = true := by
    apply List.pairwise_mergeSort
    · intro a b c hab hbc
      exact decide_eq_true ((of_decide_eq_true hab).trans (of_decide_eq_true hbc))
    · intro a b
      simpa using le_total a b
  have hne : e.dependencies.Nodup :=
    (List.mergeSort_perm _ _).nodup_iff.2 (nodup_eraseDups e.reads)
  refine (hle.and hne).imp ?_
  intro a b hab
  exact lt_of_le_of_ne (of_decide_eq_true hab.1) hab.2

/-- The ids of the names in a formula, each once and in ascending order. -/
structure IdsOfNames (resolve : String → Option FieldId) (formula : String)
    (ids : List FieldId) : Prop where
  ascending : ids.Pairwise (· < ·)
  mem_iff {id : FieldId} : id ∈ ids ↔ ∃ name ∈ namesIn formula, resolve name = some id

variable {resolve : String → Option FieldId} {formula : String}

theorem idsOfNames_of_parse {e : Formula.Expr} (h : Formula.parse resolve formula = .ok e) :
    IdsOfNames resolve formula e.dependencies :=
  ⟨e.ascending_dependencies, Formula.mem_dependencies_of_parse h⟩

theorem idsOfNames_of_compile {c : Calculation}
    (h : Calculation.compile resolve formula = .ok c) :
    IdsOfNames resolve formula c.dependencies := by
  obtain ⟨e, he, rfl⟩ := map_eq_ok.1 h
  exact idsOfNames_of_parse he

theorem idsOfNames_of_calculated {id : FieldId} {displayName : String} {f : Field}
    (h : Field.calculated id displayName resolve formula = .ok f) :
    IdsOfNames resolve formula f.dependencies := by
  rw [Field.calculated] at h
  split at h
  · next c hc =>
    obtain rfl := Except.ok.inj h
    exact idsOfNames_of_compile hc
  · cases h

/-- A formula that can be read depends on the ids of the names in it, and on no others; the same
goes for a calculation and for a calculated field that is made from it. -/
theorem idsOfNames_dependencies (resolve : String → Option FieldId) (formula : String) :
    (∀ e, Formula.parse resolve formula = .ok e → IdsOfNames resolve formula e.dependencies) ∧
    (∀ c, Calculation.compile resolve formula = .ok c →
      IdsOfNames resolve formula c.dependencies) ∧
    ∀ id displayName f, Field.calculated id displayName resolve formula = .ok f →
      IdsOfNames resolve formula f.dependencies :=
  ⟨fun _ => idsOfNames_of_parse, fun _ => idsOfNames_of_compile,
    fun _ _ _ => idsOfNames_of_calculated⟩

def balanceFormula : String :=
  "IF([valorConta], sum(\"Valor da Conta\"), -[aPagarReceber] ^ [valorConta])"

def balanceTree : Formula.Expr :=
  .conditional (.field "valorConta") (.summary .sum "valorConta")
    (.negate (.binary .power (.field "aPagarReceber") (.field "valorConta")))

theorem parse_balance : Formula.parse Catalog.financial.resolve balanceFormula = .ok balanceTree := by
  cbv

theorem idsOfNames_balance :
    Formula.parse Catalog.financial.resolve balanceFormula = .ok balanceTree ∧
    IdsOfNames Catalog.financial.resolve balanceFormula balanceTree.dependencies ∧
    Calculation.compile Catalog.financial.resolve balanceFormula =
      .ok ⟨balanceFormula, balanceTree⟩ ∧
    IdsOfNames Catalog.financial.resolve balanceFormula
      (Calculation.mk balanceFormula balanceTree).dependencies ∧
    ∃ f, Field.calculated "calc_1" "Saldo" Catalog.financial.resolve balanceFormula = .ok f ∧
      IdsOfNames Catalog.financial.resolve balanceFormula f.dependencies := by
  have hcompile : Calculation.compile Catalog.financial.resolve balanceFormula =
      .ok ⟨balanceFormula, balanceTree⟩ := by
    rw [Calculation.compile, parse_balance]
    rfl
  have hfield : Field.calculated "calc_1" "Saldo" Catalog.financial.resolve balanceFormula =
      .ok ⟨"calc_1", "Saldo", .number, some .sum, some ⟨balanceFormula, balanceTree⟩⟩ := by
    rw [Field.calculated, hcompile]
  obtain ⟨hexpr, hcalculation, hcalculated⟩ :=
    idsOfNames_dependencies Catalog.financial.resolve balanceFormula
  exact ⟨parse_balance, hexpr _ parse_balance, hcompile, hcalculation _ hcompile, _, hfield,
    hcalculated _ _ _ hfield⟩

/-! ### One more field -/

namespace Catalog

variable {c c' : Catalog} {f : Field} {name : String} {id : FieldId}

theorem mem_of_find? (h : c.find? name = some f) :
    f ∈ c.fields ∧ (f.displayName = name ∨ f.id = name) := by
  rcases Option.or_eq_some_iff.1 h with hdisplay | ⟨-, hid⟩
  · exact ⟨List.mem_of_find?_eq_some hdisplay, .inl (by simpa using List.find?_some hdisplay)⟩
  · exact ⟨List.mem_of_find?_eq_some hid, .inr (by simpa using List.find?_some hid)⟩

theorem isSome_get?_of_resolve (h : c.resolve name = some id) : (c.get? id).isSome := by
  obtain ⟨f, hf, rfl⟩ := Option.map_eq_some_iff.1 h
  exact List.find?_isSome.2 ⟨f, (mem_of_find? hf).1, by simp⟩

theorem resolve_of_register (h : c.register f = .ok c') :
    c'.resolve f.displayName = some f.id := by
  obtain ⟨⟨-, -, -, hfresh⟩, -⟩ := register_eq_ok_iff.1 h
  have hold : c.fields.find? (·.displayName = f.displayName) = none :=
    List.find?_eq_none.2 fun g hg => by simpa using hfresh g hg
  have hnew : c'.fields.find? (·.displayName = f.displayName) = some f := by
    rw [fields_of_register h, List.find?_append, hold, Option.none_or,
      List.find?_cons_of_pos (by simp)]
  rw [resolve, find?, hnew, Option.some_or, Option.map_some]

/-- A field that comes in stands behind all others, so it takes no other name away from them. -/
theorem resolve_of_register_of_ne (h : c.register f = .ok c') (hne : name ≠ f.displayName)
    (hname : c.resolve name = some id) : c'.resolve name = some id := by
  have hdisplay : c'.fields.find? (·.displayName = name) =
      c.fields.find? (·.displayName = name) := by
    rw [fields_of_register h, List.find?_append, List.find?_cons_of_neg (by simpa using hne.symm),
      List.find?_nil, Option.or_none]
  obtain ⟨g, hg, rfl⟩ := Option.map_eq_some_iff.1 hname
  have hfind : c'.find? name = some g := by
    rw [find?, hdisplay]
    rcases Option.or_eq_some_iff.1 hg with hold | ⟨hnone, hid⟩
    · rw [hold, Option.some_or]
    · have hget : c.fields.find? (·.id = name) = some g := hid
      rw [hnone, Option.none_or, get?, fields_of_register h, List.find?_append, hget,
        Option.some_or]
  rw [resolve, hfind, Option.map_some]

theorem exists_id_of_resolve (h : c.resolve name = some id)
    (hname : ∀ g ∈ c.fields, g.displayName ≠ name) : ∃ g ∈ c.fields, g.id = name := by
  obtain ⟨g, hg, -⟩ := Option.map_eq_some_iff.1 h
  obtain ⟨hmem, hgname⟩ := mem_of_find? hg
  exact ⟨g, hmem, hgname.resolve_left (hname g hmem)⟩

theorem exists_parse_of_register (h : c.register f = .ok c') {formula : String} {e : Formula.Expr}
    (he : Formula.parse c.resolve formula = .ok e) :
    ∃ e', Formula.parse c'.resolve formula = .ok e' ∧
      (e' = e ↔ f.displayName ∉ namesIn formula) := by
  have hold : ∀ name ∈ namesIn formula, ∃ id, c.resolve name = some id := fun name hname =>
    Option.isSome_iff_exists.1 (Formula.isSome_of_mem_namesIn he hname)
  have hsome : ∀ name ∈ namesIn formula, (c'.resolve name).isSome := by
    intro name hname
    by_cases hnew : name = f.displayName
    · rw [hnew, resolve_of_register h, Option.isSome_some]
    · obtain ⟨id, hid⟩ := hold name hname
      rw [resolve_of_register_of_ne h hnew hid, Option.isSome_some]
  obtain ⟨e', he', hsame⟩ := Formula.exists_parse he hsome
  refine ⟨e', he', ?_, ?_⟩
  · -- the same tree would refer to the new field before there was one
    rintro rfl hname
    have hreads := (Formula.map_reads_of_parse he').trans (Formula.map_reads_of_parse he).symm
    have hnew : c.resolve f.displayName = some f.id :=
      (List.map_inj_left.1 hreads _ hname).symm.trans (resolve_of_register h)
    obtain ⟨⟨-, -, hid, -⟩, -⟩ := register_eq_ok_iff.1 h
    simpa [hid] using isSome_get?_of_resolve hnew
  · intro hname
    apply hsame
    intro name hmem
    obtain ⟨id, hid⟩ := hold name hmem
    have hne : name ≠ f.displayName := fun hnew => hname (hnew ▸ hmem)
    rw [resolve_of_register_of_ne h hne hid, hid]

/-- After a field is created, every formula that could be read can still be read. It means the same
if and only if the display name of the new field is not a name in it, and a name in it that is taken
in this way was the id of another field. -/
theorem parse_of_created {displayName text : String} {a : Change.Answer}
    (h : (Change.create id displayName text).act c = (.ok a, c')) {formula : String}
    {e : Formula.Expr} (he : Formula.parse c.resolve formula = .ok e) :
    ∃ e', Formula.parse c'.resolve formula = .ok e' ∧
      (e' = e ↔ displayName ∉ namesIn formula) ∧
      (displayName ∈ namesIn formula → ∃ g ∈ c.fields, g.id = displayName) := by
  cases Change.effect_of_act h with
  | created hf hreg =>
    obtain ⟨-, rfl⟩ := calculated_eq_ok hf
    obtain ⟨⟨-, -, -, hfresh⟩, -⟩ := register_eq_ok_iff.1 hreg
    obtain ⟨e', he', hsame⟩ := exists_parse_of_register hreg he
    refine ⟨e', he', hsame, fun hname => ?_⟩
    obtain ⟨id, hid⟩ := Option.isSome_iff_exists.1 (Formula.isSome_of_mem_namesIn he hname)
    exact exists_id_of_resolve hid hfresh

def truth (displayName : String) : Field :=
  ⟨"calc_1", displayName, .number, some .sum, some ⟨"TRUE", .boolean true⟩⟩

def withTruth (displayName : String) : Catalog :=
  { financial with calculated := [truth displayName] }

theorem create_truth {displayName : String}
    (h : ∀ g ∈ financial.fields, g.displayName ≠ displayName) :
    financial.create "calc_1" displayName "TRUE" =
      .ok (truth displayName, withTruth displayName) := by
  have hparse : Formula.parse financial.resolve "TRUE" = .ok (.boolean true) := by cbv
  have hfield : Field.calculated "calc_1" displayName financial.resolve "TRUE" =
      .ok (truth displayName) := by
    rw [Field.calculated, Calculation.compile, hparse]
    rfl
  have hsep : hasSeparator "calc_1".toList = false := rfl
  have hreg : financial.register (truth displayName) = .ok (withTruth displayName) :=
    register_eq_ok_iff.2 ⟨⟨rfl, hsep, rfl, h⟩, rfl⟩
  rw [create_of_calculated hfield, hreg]
  rfl

theorem act_namesake :
    (Change.create "calc_1" "valorConta" "TRUE").act financial =
      (.ok (.field (truth "valorConta")), withTruth "valorConta") := by
  rw [Change.act_create, create_truth (by decide)]

/-- The id of the amount means the amount no longer once a field has it for a display name. -/
theorem namesake_takes_name :
    Formula.parse financial.resolve "[valorConta]" = .ok (.field "valorConta") ∧
    (Change.create "calc_1" "valorConta" "TRUE").act financial =
      (.ok (.field (truth "valorConta")), withTruth "valorConta") ∧
    Formula.parse (withTruth "valorConta").resolve "[valorConta]" = .ok (.field "calc_1") ∧
    Formula.parse (withTruth "valorConta").resolve "[valorConta]" ≠ .ok (.field "valorConta") := by
  have hold : Formula.parse financial.resolve "[valorConta]" = .ok (.field "valorConta") := by cbv
  have hnew : Formula.parse (withTruth "valorConta").resolve "[valorConta]" = .ok (.field "calc_1") := by
    cbv
  refine ⟨hold, act_namesake, hnew, ?_⟩
  rw [hnew]
  intro h
  have hid : "calc_1" = "valorConta" := Formula.Expr.field.inj (Except.ok.inj h)
  exact absurd hid (by decide)

theorem parse_of_created_namesake :
    (Change.create "calc_1" "valorConta" "TRUE").act financial =
      (.ok (.field (truth "valorConta")), withTruth "valorConta") ∧
    Formula.parse financial.resolve balanceFormula = .ok balanceTree ∧
    ∃ e', Formula.parse (withTruth "valorConta").resolve balanceFormula = .ok e' ∧
      (e' = balanceTree ↔ "valorConta" ∉ namesIn balanceFormula) ∧
      ("valorConta" ∈ namesIn balanceFormula →
        ∃ g ∈ financial.fields, g.id = "valorConta") :=
  ⟨act_namesake, parse_balance, parse_of_created act_namesake parse_balance⟩

end Catalog

end Crosstab
