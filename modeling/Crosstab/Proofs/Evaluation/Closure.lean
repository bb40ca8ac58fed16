import Crosstab.Evaluation.Scopes
import Crosstab.Proofs.Evaluation.Reads
import Crosstab.Proofs.Except

/-!
# Formulas that lead to formulas

A calculated field reads fields, some of which are calculated again, and so on through the index.
What it can come to in this way settles its result: two indexes that agree there give the same
results over records that hold the same for the base fields there, and if all of it can be looked
up, no result is an unknown field.
-/

namespace Crosstab

namespace FieldIndex

/-- The formula of a field leads to an id: it reads it, or it leads to a field that reads it. -/
inductive Leads (i : FieldIndex) (f : Field) : FieldId → Prop
  | read {id : FieldId} (hid : id ∈ f.dependencies) : Leads i f id
  | through {id id' : FieldId} {g : Field} (h : Leads i f id) (hg : i.get? id = some g)
      (hid : id' ∈ g.dependencies) : Leads i f id'

/-- Ids among which all formulas under them stay. -/
def Closed (i : FieldIndex) (p : FieldId → Prop) : Prop :=
  ∀ id g, p id → i.get? id = some g → ∀ id' ∈ g.dependencies, p id'

theorem closed_leads (i : FieldIndex) (f : Field) : i.Closed (i.Leads f) :=
  fun _ _ h hg _ hid => .through h hg hid

/-- Indexes that agree on what one of them leads to lead to the same. -/
theorem Leads.congr {i i' : FieldIndex} {f : Field}
    (h : ∀ id, i.Leads f id → i'.get? id = i.get? id) {id : FieldId} :
    i'.Leads f id ↔ i.Leads f id := by
  constructor
  · intro hid
    induction hid with
    | read hid => exact .read hid
    | through _ hg hid ih => exact .through ih (h _ ih ▸ hg) hid
  · intro hid
    induction hid with
    | read hid => exact .read hid
    | through hlead hg hid ih => exact .through ih ((h _ hlead).trans hg) hid

/-- The first of the formulas on the way. -/
theorem Leads.first {i : FieldIndex} {f : Field} {id : FieldId} (h : i.Leads f id) :
    id ∈ f.dependencies ∨ ∃ g, i.get? g.id = some g ∧ g.id ∈ f.dependencies ∧ i.Leads g id := by
  induction h with
  | read hid => exact .inl hid
  | @through id id' g _ hg hid ih =>
    rcases ih with hread | ⟨g', hg', hread, hlead⟩
    · obtain rfl := id_of_get? hg
      exact .inr ⟨g, hg, hread, .read hid⟩
    · exact .inr ⟨g', hg', hread, .through hlead hg hid⟩

theorem Leads.of_dependencies {i : FieldIndex} {f g : Field} (h : f.dependencies = g.dependencies)
    {id : FieldId} (hid : i.Leads f id) : i.Leads g id := by
  induction hid with
  | read hid => exact .read (h ▸ hid)
  | through _ hg hid ih => exact .through ih hg hid

end FieldIndex

theorem Field.mem_dependencies {f : Field} {c : Calculation} (h : f.calculation = some c)
    {id : FieldId} : id ∈ f.dependencies ↔ id ∈ c.expr.reads := by
  simp [Field.dependencies, h, Calculation.dependencies, Formula.Expr.mem_dependencies]

theorem Field.isCalculated_of_mem_dependencies {f : Field} {id : FieldId}
    (h : id ∈ f.dependencies) : f.isCalculated = true := by
  cases hf : f.calculation with
  | none => simp [Field.dependencies, hf] at h
  | some c => simp [Field.isCalculated, hf]

theorem Field.isCalculated_of_leads {f : Field} {i : FieldIndex} {id : FieldId}
    (h : i.Leads f id) : f.isCalculated = true := by
  induction h with
  | read hid => exact Field.isCalculated_of_mem_dependencies hid
  | through _ _ _ ih => exact ih

namespace Evaluation

/-! ### Stored values -/

theorem storedNumber_congr {r r' : Record} {f : Field} (h : r.get? f.id = r'.get? f.id) :
    storedNumber r f = storedNumber r' f := by
  rw [storedNumber, storedNumber, h]

theorem storedValue_congr {r r' : Record} {f : Field} (h : r.get? f.id = r'.get? f.id) :
    storedValue r f = storedValue r' f := by
  rw [storedValue, storedValue, h, storedNumber_congr h]

section
variable {group group' : List Record} {f : Field}
  (h : List.Forall₂ (fun r r' => r.get? f.id = r'.get? f.id) group group')
include h

theorem aggregate_congr (a : Aggregation) : aggregate f a group = aggregate f a group' := by
  have hfold (acc : Accumulator) : group.foldl (fun acc r => acc.addRecord f r) acc =
      group'.foldl (fun acc r => acc.addRecord f r) acc := by
    induction h generalizing acc with
    | nil => rfl
    | @cons r r' rs rs' hr _ ih =>
      have hadd : acc.addRecord f r = acc.addRecord f r' := by
        rw [Accumulator.addRecord, Accumulator.addRecord, hr]
      rw [List.foldl_cons, List.foldl_cons, hadd, ih]
  rw [aggregate, aggregate, hfold]

theorem requireNumeric_congr : requireNumeric group f = requireNumeric group' f := by
  have hvalues : group.filterMap (·.get? f.id) = group'.filterMap (·.get? f.id) := by
    induction h with
    | nil => rfl
    | cons hr _ ih => rw [List.filterMap_cons, List.filterMap_cons, hr, ih]
  rw [requireNumeric, requireNumeric, hvalues]

theorem aggregateStored_congr (a : Aggregation) :
    aggregateStored group f a = aggregateStored group' f a := by
  rw [aggregateStored, aggregateStored, h.length_eq, aggregate_congr h, requireNumeric_congr h]

end

section
variable {P : EvalError → Prop} (hvalue : ∀ id v, P (.notNumeric id v))
include hvalue

theorem raises_storedNumber (r : Record) (f : Field) : Raises P (storedNumber r f) := by
  rw [storedNumber]
  split
  · exact .ok _
  · split
    · exact .ok _
    · exact .error (hvalue _ _)

theorem raises_storedValue (r : Record) (f : Field) : Raises P (storedValue r f) := by
  rw [storedValue]
  split
  · exact .ok _
  · exact (raises_storedNumber hvalue r f).map _

theorem raises_aggregateStored (group : List Record) (f : Field) (a : Aggregation) :
    Raises P (aggregateStored group f a) := by
  have hnumeric : Raises P (requireNumeric group f) := by
    rw [requireNumeric]
    split
    · exact .error (hvalue _ _)
    · exact .ok _
  exact .ite (.ok _) (.ite (.ok _) (hnumeric.bind fun _ => .ok _))

end

/-! ### Fields over related records -/

theorem require_eq_ok_iff {i : FieldIndex} {id : FieldId} {f : Field} :
    require i id = .ok f ↔ i.get? id = some f := by
  cases hf : i.get? id <;> simp [require, hf]

section
variable {P : EvalError → Prop}
  {R : ∀ {α : Type}, Except EvalError α → Except EvalError α → Prop} (hR : Stepwise P R)
include hR

theorem related_accumulate {result result' : Record → Except EvalError Float}
    {group group' : List Record}
    (h : List.Forall₂ (fun r r' => R (result r) (result' r')) group group') (acc : Accumulator) :
    R (accumulate result acc group) (accumulate result' acc group') := by
  induction h generalizing acc with
  | nil => exact hR.ok acc
  | cons hr _ ih => exact hR.bind hr fun x => ih _

section
variable (hvalue : ∀ id v, P (.notNumeric id v)) {i i' : FieldIndex} {id : FieldId}
  (hget : i.get? id = i'.get? id) (hid : Raises P (require i id))
include hget

omit hR in
theorem require_congr : require i id = require i' id := by rw [require, require, hget]

include hvalue hid

/-- Over two records that hold the same for a field, what is read for it is related. -/
theorem related_ofRecord {r r' : Record} {result result' : Field → Except EvalError Float}
    (hstored : ∀ f, i.get? id = some f → f.isCalculated = false → r.get? id = r'.get? id)
    (h : ∀ f, i.get? id = some f → f.isCalculated = true → R (result f) (result' f)) :
    AgreeUpTo R (ofRecord i r result) (ofRecord i' r' result') id := by
  constructor
  case field =>
    simp only [ofRecord, ← require_congr hget]
    refine hR.bind_of_ok hid fun f hf => ?_
    have hf' := require_eq_ok_iff.1 hf
    by_cases hcalc : f.isCalculated = true
    · simp only [if_pos hcalc]
      exact hR.bind (h f hf' hcalc) fun x => hR.ok _
    · obtain rfl := FieldIndex.id_of_get? hf'
      rw [if_neg hcalc, if_neg hcalc,
        ← storedValue_congr (hstored f hf' (eq_false_of_ne_true hcalc))]
      exact hR.self (raises_storedValue hvalue r f)
  case summary =>
    intro m
    simp only [ofRecord, ← require_congr hget]
    refine hR.bind_of_ok hid fun f hf => Stepwise.ite (hR.ok _) ?_
    have hf' := require_eq_ok_iff.1 hf
    by_cases hcalc : f.isCalculated = true
    · simp only [if_pos hcalc]
      exact h f hf' hcalc
    · obtain rfl := FieldIndex.id_of_get? hf'
      rw [if_neg hcalc, if_neg hcalc,
        ← storedNumber_congr (hstored f hf' (eq_false_of_ne_true hcalc))]
      exact hR.bind (hR.self (raises_storedNumber hvalue r f)) fun x => hR.ok _

/-- Over two groups whose records hold the same for a field, what is read for it is related. -/
theorem related_ofGroup {group group' : List Record}
    {overGroup overGroup' : Field → Except EvalError Float}
    {overRecord overRecord' : Field → Record → Except EvalError Float}
    (hstored : ∀ f, i.get? id = some f → f.isCalculated = false →
      List.Forall₂ (fun r r' => r.get? id = r'.get? id) group group')
    (hgroup : ∀ f, i.get? id = some f → f.isCalculated = true → R (overGroup f) (overGroup' f))
    (hrecord : ∀ f, i.get? id = some f → f.isCalculated = true →
      List.Forall₂ (fun r r' => R (overRecord f r) (overRecord' f r')) group group') :
    AgreeUpTo R (ofGroup i group overGroup overRecord) (ofGroup i' group' overGroup' overRecord')
      id := by
  constructor
  case field =>
    simp only [ofGroup, ← require_congr hget]
    refine hR.bind_of_ok hid fun f hf => ?_
    have hf' := require_eq_ok_iff.1 hf
    by_cases hcalc : f.isCalculated = true
    · simp only [if_pos hcalc]
      exact hR.bind (hgroup f hf' hcalc) fun x => hR.ok _
    · obtain rfl := FieldIndex.id_of_get? hf'
      rw [if_neg hcalc, if_neg hcalc,
        ← aggregateStored_congr (hstored f hf' (eq_false_of_ne_true hcalc))]
      exact hR.bind (hR.self (raises_aggregateStored hvalue group f _)) fun x => hR.ok _
  case summary =>
    intro m
    simp only [ofGroup, ← require_congr hget]
    refine hR.bind_of_ok hid fun f hf => ?_
    have hf' := require_eq_ok_iff.1 hf
    by_cases hcalc : f.isCalculated = true
    · have hresults := hrecord f hf' hcalc
      simp only [if_pos hcalc, aggregateCalculated, ← hresults.length_eq]
      refine Stepwise.ite (hR.ok _) ?_
      exact hR.bind (related_accumulate hR hresults _) fun acc => hR.ok _
    · obtain rfl := FieldIndex.id_of_get? hf'
      rw [if_neg hcalc, if_neg hcalc,
        ← aggregateStored_congr (hstored f hf' (eq_false_of_ne_true hcalc))]
      exact hR.self (raises_aggregateStored hvalue group f _)

end

/-! ### Formulas of fields -/

section
variable {f : Field} (hbase : f.calculation = none → P (.unknownField f.id))
  (hcalls : ∀ c, f.calculation = some c → CallsRaise P c.expr)
include hbase hcalls

theorem related_openField {s s' : Scope} (h : ∀ id ∈ f.dependencies, AgreeUpTo R s s' id) :
    R (openField (some fun e => e.evaluate s) f) (openField (some fun e => e.evaluate s') f) := by
  cases hf : f.calculation with
  | none =>
    simp only [openField, hf]
    exact hR.error (hbase hf)
  | some c =>
    simp only [openField, hf]
    refine hR.map (related_evaluate_of_calls hR (hcalls c hf) fun id hid => ?_) _
    exact h id ((Field.mem_dependencies hf).2 hid)

theorem related_within {scopes scopes' : Nat → Scope} {room : Nat}
    (hlimit : room = 0 → P (.recursionLimit f.id))
    (h : ∀ n, room = n + 1 → ∀ id ∈ f.dependencies, AgreeUpTo R (scopes n) (scopes' n) id) :
    R (openField (within scopes room) f) (openField (within scopes' room) f) := by
  cases room with
  | zero =>
    cases hf : f.calculation with
    | none =>
      simp only [within, openField, hf]
      exact hR.error (hbase hf)
    | some c =>
      simp only [within, openField, hf]
      exact hR.error (hlimit rfl)
  | succ n => exact related_openField hR hbase hcalls (h n rfl)

end

end

theorem openField_congr {scopes scopes' : Nat → Scope} {room : Nat} {f : Field}
    (h : ∀ n < room, ∀ id ∈ f.dependencies, AgreeUpTo Eq (scopes n) (scopes' n) id) :
    openField (within scopes room) f = openField (within scopes' room) f := by
  refine related_within stepwise_eq (fun _ => trivial) (fun c _ => callsRaise_true c.expr)
    (fun _ => trivial) fun n hn => ?_
  exact h n (hn ▸ Nat.lt_succ_self n)

/-! ### Indexes and records that agree -/

section
variable {i i' : FieldIndex} {p : FieldId → Prop} (hclosed : i.Closed p)
  (h : ∀ id, p id → i.get? id = i'.get? id)
include hclosed h

theorem agree_recordScope {r r' : Record}
    (hr : ∀ id f, p id → i.get? id = some f → f.isCalculated = false → r.get? id = r'.get? id)
    (room : Nat) {id : FieldId} (hid : p id) :
    AgreeUpTo Eq (recordScope i r room) (recordScope i' r' room) id := by
  induction room using Nat.strongRecOn generalizing id with
  | ind room ih =>
    rw [recordScope_eq, recordScope_eq]
    apply related_ofRecord stepwise_eq (fun _ _ => trivial) (h id hid) (fun _ _ => trivial)
      fun f => hr id f hid
    intro f hf _
    exact openField_congr fun n hn id' hid' => ih n hn (hclosed id f hid hf id' hid')

theorem agree_groupScope {group group' : List Record}
    (hgroup : List.Forall₂ (fun r r' => ∀ id f, p id → i.get? id = some f →
      f.isCalculated = false → r.get? id = r'.get? id) group group')
    (room : Nat) {id : FieldId} (hid : p id) :
    AgreeUpTo Eq (groupScope i group room) (groupScope i' group' room) id := by
  induction room using Nat.strongRecOn generalizing id with
  | ind room ih =>
    rw [groupScope_eq, groupScope_eq]
    apply related_ofGroup stepwise_eq (fun _ _ => trivial) (h id hid) (fun _ _ => trivial)
    · exact fun f hf hbase => hgroup.imp fun r r' hr => hr id f hid hf hbase
    · intro f hf _
      exact openField_congr fun n hn id' hid' => ih n hn (hclosed id f hid hf id' hid')
    · intro f hf _
      refine hgroup.imp fun r r' hr => openField_congr fun n hn id' hid' => ?_
      exact agree_recordScope hclosed h hr n (hclosed id f hid hf id' hid')

end

/-- A calculated field has the same result over a group in two indexes that agree on what its
formula leads to. -/
theorem calculate_congr {i i' : FieldIndex} {f : Field}
    (h : ∀ id, i.Leads f id → i'.get? id = i.get? id) (group : List Record) (depth : Nat) :
    calculate (groupScope i group) depth f = calculate (groupScope i' group) depth f :=
  openField_congr fun n _ _ hid =>
    agree_groupScope (i.closed_leads f) (fun id hid => (h id hid).symm)
      (List.forall₂_same.2 fun _ _ _ _ _ _ _ => rfl) n (.read hid)

/-! ### Errors of fields -/

section
variable {P : EvalError → Prop} (hown : ∀ cause, OfOperation cause → P cause)
include hown

section
variable (hvalue : ∀ id v, P (.notNumeric id v)) {i : FieldIndex} {id : FieldId}
  (hid : Raises P (require i id))
include hvalue hid

theorem raises_ofRecord (r : Record) {result : Field → Except EvalError Float}
    (h : ∀ f, i.get? id = some f → f.isCalculated = true → Raises P (result f)) :
    FieldRaises P (ofRecord i r result) id :=
  fieldRaises_iff.2 <| related_ofRecord (stepwise_raises hown) hvalue rfl hid (fun _ _ _ => rfl) h

theorem raises_ofGroup {group : List Record} {overGroup : Field → Except EvalError Float}
    {overRecord : Field → Record → Except EvalError Float}
    (hgroup : ∀ f, i.get? id = some f → f.isCalculated = true → Raises P (overGroup f))
    (hrecord : ∀ f, i.get? id = some f → f.isCalculated = true →
      ∀ r ∈ group, Raises P (overRecord f r)) :
    FieldRaises P (ofGroup i group overGroup overRecord) id := by
  refine fieldRaises_iff.2 (related_ofGroup (stepwise_raises hown) hvalue rfl hid ?_ hgroup ?_)
  · exact fun f _ _ => List.forall₂_same.2 fun r _ => rfl
  · exact fun f hf hcalc => List.forall₂_same.2 (hrecord f hf hcalc)

end

theorem raises_openField {scopes : Nat → Scope} {room : Nat} {f : Field}
    (hf : f.isCalculated = true) (hcalls : ∀ c, f.calculation = some c → CallsRaise P c.expr)
    (hlimit : room = 0 → P (.recursionLimit f.id))
    (h : ∀ n, room = n + 1 → ∀ id ∈ f.dependencies, FieldRaises P (scopes n) id) :
    Raises P (openField (within scopes room) f) := by
  have hbase : f.calculation = none → P (.unknownField f.id) := by
    intro hnone
    rw [Field.isCalculated, hnone] at hf
    cases hf
  exact related_within (stepwise_raises hown) hbase hcalls hlimit fun n hn id hid =>
    fieldRaises_iff.1 (h n hn id hid)

end

/-! ### Fields that can be looked up -/

def Known (cause : EvalError) : Prop := ∀ id, cause ≠ .unknownField id

theorem known_of_operation (cause : EvalError) (h : OfOperation cause) : Known cause := by
  rintro id rfl
  exact h

theorem known_notNumeric (id : FieldId) (v : String) : Known (.notNumeric id v) := nofun

theorem known_calls (e : Formula.Expr) : CallsRaise Known e := .of_forall (fun _ _ => nofun) e

theorem known_openField {scopes : Nat → Scope} {room : Nat} {f : Field}
    (hf : f.isCalculated = true)
    (h : ∀ n < room, ∀ id ∈ f.dependencies, FieldRaises Known (scopes n) id) :
    Raises Known (openField (within scopes room) f) := by
  apply raises_openField known_of_operation hf (fun c _ => known_calls c.expr) (fun _ => nofun)
  rintro n rfl
  exact h n (Nat.lt_succ_self n)

theorem known_require {i : FieldIndex} {id : FieldId} (hid : (i.get? id).isSome) :
    Raises Known (require i id) := by
  obtain ⟨f, hf⟩ := Option.isSome_iff_exists.1 hid
  rw [require_eq_ok_iff.2 hf]
  exact .ok f

section
variable {i : FieldIndex} {p : FieldId → Prop} (hclosed : i.Closed p)
  (hsome : ∀ id, p id → (i.get? id).isSome)
include hclosed hsome

theorem known_recordScope (r : Record) (room : Nat) {id : FieldId} (hid : p id) :
    FieldRaises Known (recordScope i r room) id := by
  induction room using Nat.strongRecOn generalizing id with
  | ind room ih =>
    rw [recordScope_eq]
    apply raises_ofRecord known_of_operation known_notNumeric (known_require (hsome id hid))
    intro f hf hcalc
    exact known_openField hcalc fun n hn id' hid' => ih n hn (hclosed id f hid hf id' hid')

theorem known_groupScope (group : List Record) (room : Nat) {id : FieldId} (hid : p id) :
    FieldRaises Known (groupScope i group room) id := by
  induction room using Nat.strongRecOn generalizing id with
  | ind room ih =>
    rw [groupScope_eq]
    apply raises_ofGroup known_of_operation known_notNumeric (known_require (hsome id hid))
    · intro f hf hcalc
      exact known_openField hcalc fun n hn id' hid' => ih n hn (hclosed id f hid hf id' hid')
    · intro f hf hcalc r _
      exact known_openField hcalc fun n hn id' hid' =>
        known_recordScope hclosed hsome r n (hclosed id f hid hf id' hid')

end

/-- No unknown field comes out of a formula all of whose fields can be looked up. -/
theorem known_calculate {i : FieldIndex} {f : Field} (hf : f.isCalculated = true)
    (h : ∀ id, i.Leads f id → (i.get? id).isSome) (group : List Record) (depth : Nat) :
    Raises Known (calculate (groupScope i group) depth f) :=
  known_openField hf fun n _ _ hid =>
    known_groupScope (i.closed_leads f) h group n (.read hid)

end Evaluation

end Crosstab
