import Mathlib
import Crosstab.Proofs.Evaluation.Closure

/-!
# How deep formulas lead

`Computes` says how the result of a calculated field comes from the results of those that its
formula reads, without counting room: a derivation is a tree of formulas that were opened. Every
field has exactly one result, in circles too, since each formula on the way down is one deeper and
none is opened at a depth of more than 16. From a smaller depth the limit is reached only along a
chain of calculated fields that leads that far.
-/

namespace Crosstab

def FieldIndex.Opens (i : FieldIndex) (f g : Field) : Prop :=
  g.isCalculated = true ∧ ∃ id ∈ f.dependencies, i.get? id = some g

namespace Evaluation

inductive Source where
  | record (r : Record)
  | group (group : List Record)

namespace Source

def scopes (i : FieldIndex) : Source → (room : Nat) → Scope
  | record r => recordScope i r
  | group rs => groupScope i rs

def scope (i : FieldIndex) (result : Source → Field → Except EvalError Float) : Source → Scope
  | record r => ofRecord i r (result (record r))
  | group rs => ofGroup i rs (result (group rs)) fun f r => result (record r) f

def calculate (i : FieldIndex) (s : Source) (depth : Nat) (f : Field) : Except EvalError Float :=
  Evaluation.calculate (s.scopes i) depth f

/-- A formula over the first source reads fields over the second one: over the same source, or over
a record of its group. -/
inductive Reaches : Source → Source → Prop
  | self (s : Source) : Reaches s s
  | member {r : Record} {rs : List Record} (hr : r ∈ rs) : Reaches (group rs) (record r)

variable {i : FieldIndex} {s : Source}

theorem scopes_eq (i : FieldIndex) (s : Source) (room : Nat) :
    s.scopes i room = s.scope i fun s' => openField (within (s'.scopes i) room) := by
  cases s with
  | record r => exact recordScope_eq i r room
  | group rs => exact groupScope_eq i rs room

section
variable {P : EvalError → Prop} (hvalue : ∀ id v, P (.notNumeric id v)) {id : FieldId}
  (hid : Raises P (require i id))
include hvalue hid

theorem related_scope {R : ∀ {α : Type}, Except EvalError α → Except EvalError α → Prop}
    (hR : Stepwise P R) {result result' : Source → Field → Except EvalError Float}
    (h : ∀ s', s.Reaches s' → ∀ f, i.get? id = some f → f.isCalculated = true →
      R (result s' f) (result' s' f)) :
    AgreeUpTo R (s.scope i result) (s.scope i result') id := by
  cases s with
  | record r => exact related_ofRecord hR hvalue rfl hid (fun _ _ _ => rfl) (h _ (.self _))
  | group rs =>
    have hsame (f : Field) (_ : i.get? id = some f) (_ : f.isCalculated = false) :
        List.Forall₂ (fun r r' : Record => r.get? id = r'.get? id) rs rs :=
      List.forall₂_same.2 fun _ _ => rfl
    refine related_ofGroup hR hvalue rfl hid hsame (h _ (.self _)) fun f hf hcalc => ?_
    exact List.forall₂_same.2 fun r hr => h _ (.member hr) f hf hcalc

theorem raises_scope (hown : ∀ cause, OfOperation cause → P cause)
    {result : Source → Field → Except EvalError Float}
    (h : ∀ s', s.Reaches s' → ∀ f, i.get? id = some f → f.isCalculated = true →
      Raises P (result s' f)) :
    FieldRaises P (s.scope i result) id :=
  fieldRaises_iff.2 (related_scope hvalue hid (stepwise_raises hown) h)

end

/-! ### One formula -/

theorem calculate_base {f : Field} (hf : f.calculation = none) (depth : Nat) :
    s.calculate i depth f = .error (.unknownField f.id) := by
  simp only [calculate, Evaluation.calculate, openField, hf]

theorem calculate_limit {f : Field} {c : Calculation} (hf : f.calculation = some c) {depth : Nat}
    (h : maxDepth < depth) : s.calculate i depth f = .error (.recursionLimit f.id) := by
  have hroom : maxDepth + 1 - depth = 0 := by omega
  simp only [calculate, Evaluation.calculate, hroom, within, openField, hf]

theorem calculate_opened {f : Field} {c : Calculation} (hf : f.calculation = some c) {depth : Nat}
    (h : depth ≤ maxDepth) : s.calculate i depth f =
      (c.expr.evaluate (s.scope i fun s' => s'.calculate i (depth + 1))).map Scalar.toNumber := by
  have hroom : maxDepth + 1 - depth = (maxDepth + 1 - (depth + 1)) + 1 := by omega
  rw [calculate, Evaluation.calculate, hroom]
  simp only [within, openField, hf]
  rw [scopes_eq]
  rfl

end Source

/-! ### Derivations -/

/-- The result of a field over a source, at a depth, as it comes from the results of the calculated
fields that its formula reads. -/
inductive Computes (i : FieldIndex) : Source → Nat → Field → Except EvalError Float → Prop
  | base {s : Source} {depth : Nat} {f : Field} (hf : f.calculation = none) :
    Computes i s depth f (.error (.unknownField f.id))
  | limit {s : Source} {depth : Nat} {f : Field} {c : Calculation} (hf : f.calculation = some c)
    (h : maxDepth < depth) : Computes i s depth f (.error (.recursionLimit f.id))
  | opened {s : Source} {depth : Nat} {f : Field} {c : Calculation} (hf : f.calculation = some c)
    (h : depth ≤ maxDepth) (result : Source → Field → Except EvalError Float)
    (hread : ∀ s' g, s.Reaches s' → i.Opens f g → Computes i s' (depth + 1) g (result s' g)) :
    Computes i s depth f ((c.expr.evaluate (s.scope i result)).map Scalar.toNumber)

variable {i : FieldIndex}

theorem opens_of_read {f g : Field} {c : Calculation} (hf : f.calculation = some c) {id : FieldId}
    (hid : id ∈ c.expr.reads) (hg : i.get? id = some g) (hcalc : g.isCalculated = true) :
    i.Opens f g :=
  ⟨hcalc, id, (Field.mem_dependencies hf).2 hid, hg⟩

theorem computes_calculate (i : FieldIndex) (s : Source) (depth : Nat) (f : Field) :
    Computes i s depth f (s.calculate i depth f) := by
  -- the room that is left shrinks with every formula
  induction hroom : maxDepth + 1 - depth generalizing s depth f with
  | zero =>
    cases hf : f.calculation with
    | none => exact Source.calculate_base hf depth ▸ .base hf
    | some c =>
      have hlimit : maxDepth < depth := by omega
      exact Source.calculate_limit hf hlimit ▸ .limit hf hlimit
  | succ room ih =>
    cases hf : f.calculation with
    | none => exact Source.calculate_base hf depth ▸ .base hf
    | some c =>
      have hdepth : depth ≤ maxDepth := by omega
      rw [Source.calculate_opened hf hdepth]
      exact .opened hf hdepth _ fun s' g _ _ => ih s' (depth + 1) g (by omega)

theorem eq_calculate_of_computes {s : Source} {depth : Nat} {f : Field}
    {x : Except EvalError Float} (h : Computes i s depth f x) : x = s.calculate i depth f := by
  induction h with
  | base hf => exact (Source.calculate_base hf _).symm
  | limit hf h => exact (Source.calculate_limit hf h).symm
  | opened hf h result _ ih =>
    rw [Source.calculate_opened hf h]
    congr 1
    refine related_evaluate stepwise_eq fun id hid => ?_
    exact Source.related_scope (fun _ _ => trivial) (fun _ _ => trivial) stepwise_eq
      fun s' hs' g hg hcalc => ih s' g hs' (opens_of_read hf hid hg hcalc)

/-! ### Chains -/

/-- A chain of calculated fields that leads from a field through `length` others to one with
an id. -/
def ChainTo (i : FieldIndex) (f : Field) (length : Nat) (id : FieldId) : Prop :=
  ∃ fs : List Field, (f :: fs).IsChain i.Opens ∧ fs.length = length ∧
    ((f :: fs).getLast (List.cons_ne_nil f fs)).id = id

theorem ChainTo.cons {f g : Field} {n : Nat} {id : FieldId} (h : i.Opens f g)
    (hchain : ChainTo i g n id) : ChainTo i f (n + 1) id := by
  obtain ⟨fs, hfs, rfl, hlast⟩ := hchain
  exact ⟨g :: fs, .cons_cons h hfs, rfl, hlast⟩

/-- Where there is no room for one more formula, a chain has used it up. -/
def Exhausts (i : FieldIndex) (room : Nat) (f : Field) (cause : EvalError) : Prop :=
  ∀ id, cause = .recursionLimit id → ChainTo i f room id

theorem exhausts_of_operation (room : Nat) (f : Field) (cause : EvalError)
    (h : OfOperation cause) : Exhausts i room f cause := by
  rintro id rfl
  exact absurd h not_false

theorem exhausts_calls (room : Nat) (f : Field) (e : Formula.Expr) :
    CallsRaise (Exhausts i room f) e :=
  .of_forall (fun _ _ => nofun) e

theorem exhausts_openField (s : Source) (room : Nat) {f : Field} (hf : f.isCalculated = true) :
    Raises (Exhausts i room f) (openField (within (s.scopes i) room) f) := by
  induction room generalizing s f with
  | zero =>
    refine raises_openField (exhausts_of_operation 0 f) hf (fun c _ => exhausts_calls 0 f c.expr)
      (fun _ id hid => ?_) fun n hn => ?_
    · cases hid
      exact ⟨[], .singleton f, rfl, rfl⟩
    · exact absurd hn (Nat.succ_ne_zero n).symm
  | succ room ih =>
    refine raises_openField (exhausts_of_operation (room + 1) f) hf
      (fun c _ => exhausts_calls (room + 1) f c.expr)
      (fun hroom => absurd hroom (Nat.succ_ne_zero room)) fun n hn id hid => ?_
    obtain rfl : room = n := Nat.succ.inj hn
    have hvalue (id : FieldId) (v : String) : Exhausts i (room + 1) f (.notNumeric id v) := by
      intro id' hid'
      cases hid'
    have hrequire : Raises (Exhausts i (room + 1) f) (require i id) := by
      rw [require]
      split
      · exact .ok _
      · refine .error fun id' hid' => ?_
        cases hid'
    rw [Source.scopes_eq]
    refine Source.raises_scope hvalue hrequire (exhausts_of_operation _ f)
      fun s' _ g hg hcalc cause hcause id' hid' => ?_
    exact (ih s' hcalc cause hcause id' hid').cons ⟨hcalc, id, hid, hg⟩

/-- Every field has exactly one result over a record or a group, at every depth. The limit is
reached only from a depth of more than 16 or along a chain of calculated fields that leads from the
given depth to depth 17, so never from depth 0 if no chain from the field has more than 17 of
them. -/
theorem calculate_within_depth (i : FieldIndex) (s : Source) (f : Field) :
    (∀ depth x, Computes i s depth f x ↔ x = s.calculate i depth f) ∧
    (∀ depth id, s.calculate i depth f = .error (.recursionLimit id) →
      16 < depth ∨ ∃ k, depth + k = 17 ∧ ChainTo i f k id) ∧
    ((∀ fs, (f :: fs).IsChain i.Opens → (f :: fs).length ≤ 17) →
      ∀ id, s.calculate i 0 f ≠ .error (.recursionLimit id)) := by
  have hlimit (depth : Nat) (id : FieldId)
      (h : s.calculate i depth f = .error (.recursionLimit id)) :
      16 < depth ∨ ∃ k, depth + k = 17 ∧ ChainTo i f k id := by
    have hf : f.isCalculated = true := by
      cases hf : f.calculation with
      | none =>
        rw [Source.calculate_base hf] at h
        cases h
      | some c => rw [Field.isCalculated, hf]; rfl
    have hchain := exhausts_openField s (maxDepth + 1 - depth) hf _ h id rfl
    by_cases hdepth : 16 < depth
    · exact .inl hdepth
    · refine .inr ⟨_, ?_, hchain⟩
      rw [maxDepth]
      omega
  refine ⟨fun depth x => ⟨eq_calculate_of_computes, ?_⟩, hlimit, fun hshort id h => ?_⟩
  · rintro rfl
    exact computes_calculate i s depth f
  · rcases hlimit 0 id h with hdepth | ⟨k, hk, fs, hfs, rfl, -⟩
    · exact absurd hdepth (by omega)
    · have hlength := hshort fs hfs
      rw [List.length_cons] at hlength
      omega

section Sample

def circular : Field :=
  ⟨"x", "X", .number, some .sum, some ⟨"[X] + 1", .binary .add (.field "x") (.number 1.0)⟩⟩

theorem circular_within_depth :
    Source.calculate ⟨[circular]⟩ (.record .empty) 0 circular = .error (.recursionLimit "x") ∧
      ∃ k, 0 + k = 17 ∧ ChainTo ⟨[circular]⟩ circular k "x" := by
  have hlimit : Source.calculate ⟨[circular]⟩ (.record .empty) 0 circular =
      .error (.recursionLimit "x") := by rfl
  have hchain := (calculate_within_depth ⟨[circular]⟩ (.record .empty) circular).2.1 0 "x" hlimit
  exact ⟨hlimit, hchain.resolve_left (by decide)⟩

end Sample

end Evaluation

end Crosstab
