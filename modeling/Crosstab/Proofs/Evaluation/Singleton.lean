import Crosstab.Proofs.Binary64.Rounding
import Crosstab.Proofs.Binary64.Zeros
import Crosstab.Proofs.Evaluation.Closure
import Crosstab.Proofs.Evaluation.Matching

/-!
# Groups of one record

Over a group of one record a base field is aggregated and over the record it is read, by different
rules for values that are missing or no numbers. As long as the aggregation of a field keeps a
single value and no value is a truth value, every formula has the same result over both, or the same
error, but perhaps for the sign of a zero, which formulas do not see.
-/

namespace Crosstab.Evaluation

open Binary64 (Alike)

/-! ### The sign of zero -/

theorem matches_finite (operator : String) {x y : Float}
    (h : Alike x y ∨ x.isFinite = false ∧ y.isFinite = false) :
    Matches (Scalar.Related Alike) (finite operator x) (finite operator y) := by
  rcases h with h | ⟨hx, hy⟩
  · rw [finite, finite, h.isFinite_eq]
    exact .ite (.ok (.number h)) (.error _)
  · rw [finite, finite, hx, hy]
    exact .error _

theorem matches_arithmetic (op : Formula.Operator) {x x' y y' : Float} (hx : Alike x x')
    (hy : Alike y y') : Matches (Scalar.Related Alike) (arithmetic op x y) (arithmetic op x' y') := by
  have htest {p q : Prop} [Decidable p] [Decidable q] (h : p ↔ q) :
      Matches (Scalar.Related Alike) (.ok (.boolean (decide p))) (.ok (.boolean (decide q))) := by
    rw [decide_eq_decide.2 h]
    exact .ok (.boolean _)
  cases op with
  | less => exact htest (hx.lt_iff hy)
  | greater => exact htest (hy.lt_iff hx)
  | lessEqual => exact htest (hx.le_iff hy)
  | greaterEqual => exact htest (hy.le_iff hx)
  | add => exact matches_finite _ (.inl (hx.add hy))
  | subtract => exact matches_finite _ (.inl (hx.sub hy))
  | multiply => exact matches_finite _ (.inl (hx.mul hy))
  | divide =>
    simp only [arithmetic, hy.beq_eq (.refl 0.0)]
    split_ifs with hzero
    · exact .error _
    · obtain rfl : y = y' := hy.resolve_right fun h => hzero h.2
      exact matches_finite _ (.inl (hx.div hzero))
  | modulo =>
    simp only [arithmetic, hy.beq_eq (.refl 0.0)]
    exact .ite (.error _) (matches_finite _ (.inl (hx.remainder hy)))
  | _ => exact matches_finite _ (hx.power hy)

theorem congruence_alike : Congruence Alike where
  zero := .refl 0.0
  beq hx hy := hx.beq_eq hy
  arithmetic := matches_arithmetic
  neg hx := hx.neg
  abs hx := hx.abs
  round hx := hx.roundHalfAway
  lesser hx hy := hx.lesser hy
  greater hx hy := hx.greater hy

theorem alike_toNumber {v w : Scalar} (h : v.Related Alike w) : Alike v.toNumber w.toNumber := by
  cases h with
  | number h => exact h
  | boolean b => exact .refl _

/-! ### One value -/

def KeepsValue (a : Aggregation) : Prop := a ∈ [Aggregation.sum, .avg, .min, .max]

instance (a : Aggregation) : Decidable (KeepsValue a) := List.instDecidableMemOfLawfulBEq _ _

theorem KeepsValue.ne_count {a : Aggregation} (ha : KeepsValue a) : a ≠ .count := by
  rintro rfl
  simp [KeepsValue] at ha

theorem KeepsValue.ne_distinctCount {a : Aggregation} (ha : KeepsValue a) :
    a ≠ .distinctCount := by
  rintro rfl
  simp [KeepsValue] at ha

theorem alike_result_push {a : Aggregation} (ha : KeepsValue a) (key : String) (x : Float) :
    Alike x ((((Accumulator.start a).addKey key).push x).result a) := by
  have hone : Float.ofNat 1 = 1.0 := by decide
  cases a with
  | sum => exact .zero_add x
  | avg =>
    have havg : (((Accumulator.start .avg).addKey key).push x).result .avg =
        (0.0 + x) / Float.ofNat 1 := rfl
    rw [havg, hone, Binary64.float_div_one]
    exact .zero_add x
  | min | max => exact .refl x
  | count => exact absurd rfl ha.ne_count
  | distinctCount => exact absurd rfl ha.ne_distinctCount

section
variable {i : FieldIndex} {r : Record}

/-- What a record holds for a base field, and what its aggregate over the record alone is. -/
theorem matches_stored (f : Field) {a : Aggregation} (ha : KeepsValue a) :
    Matches (fun v y => Alike (v.getD 0.0) y) (storedNumber r f) (aggregateStored [r] f a) := by
  have haggregate : aggregate f a [r] = (((Accumulator.start a).addKey
      (Accumulator.distinctKey f.type (r.get? f.id))).push
        (Value.numberOrZero (r.get? f.id))).result a := rfl
  rw [storedNumber, aggregateStored, if_neg ha.ne_count, if_neg ha.ne_distinctCount, haggregate]
  cases hget : r.get? f.id with
  | none =>
    have hnumeric : requireNumeric [r] f = .ok () := by simp [requireNumeric, hget]
    rw [hnumeric]
    exact .ok (alike_result_push ha _ 0.0)
  | some v =>
    cases hv : v.asNumber? with
    | none =>
      have hnumeric : requireNumeric [r] f = .error (.notNumeric f.id v.display) := by
        simp [requireNumeric, hget, hv]
      rw [hnumeric]
      simp only [hv]
      exact .error _
    | some x =>
      have hnumeric : requireNumeric [r] f = .ok () := by simp [requireNumeric, hget, hv]
      have hnumber : Value.numberOrZero (some v) = x := by simp [Value.numberOrZero, hv]
      rw [hnumeric, hnumber]
      simp only [hv]
      exact .ok (alike_result_push ha _ x)

theorem storedValue_eq (hr : ∀ id b, r.get? id ≠ some (.boolean b)) (f : Field) :
    storedValue r f = storedNumber r f >>= fun v => .ok (v.map .number) := by
  rw [storedValue]
  split
  · exact absurd ‹_› (hr _ _)
  · cases storedNumber r f <;> rfl

/-- The results of a calculated field over the record, and their aggregate over it alone. -/
theorem matches_aggregateCalculated (result : Record → Except EvalError Float) {a : Aggregation}
    (ha : KeepsValue a) : Matches Alike (result r) (aggregateCalculated [r] result a) := by
  rw [aggregateCalculated, if_neg ha.ne_count]
  cases hresult : result r with
  | error cause =>
    simp only [accumulate, hresult]
    exact .error cause
  | ok x =>
    simp only [accumulate, hresult]
    exact .ok (alike_result_push ha _ x)

theorem keepsValue_ofSummary {m : Formula.Summary} (hm : m ≠ .count) :
    KeepsValue (.ofSummary m) := by
  cases m with
  | count => exact absurd rfl hm
  | _ => simp [KeepsValue, Aggregation.ofSummary]

variable (hbase : ∀ id f, i.get? id = some f → f.isCalculated = false → KeepsValue f.aggregation)
  (hr : ∀ id b, r.get? id ≠ some (.boolean b))
include hbase hr

/-- A field matches if the calculated fields do. -/
theorem scopesMatch_of_calculated {overRecord overGroup : Field → Except EvalError Float}
    {overRecords : Field → Record → Except EvalError Float} {id : FieldId}
    (hgroup : ∀ f, Matches Alike (overRecord f) (overGroup f))
    (hrecords : ∀ f, overRecords f r = overRecord f) :
    ScopesMatch Alike (ofRecord i r overRecord) (ofGroup i [r] overGroup overRecords) id := by
  have hrequire :
      Matches (fun f g => f = g ∧ i.get? id = some f) (require i id) (require i id) := by
    cases hf : i.get? id with
    | none =>
      simp only [require, hf]
      exact .error _
    | some f =>
      simp only [require, hf]
      exact .ok ⟨rfl, rfl⟩
  constructor
  case field =>
    refine hrequire.bind ?_
    rintro f _ ⟨rfl, hf⟩
    by_cases hcalc : f.isCalculated = true
    · rw [if_pos hcalc, if_pos hcalc]
      exact (hgroup f).bind fun x y hxy => .ok (.number hxy)
    · rw [if_neg hcalc, if_neg hcalc, storedValue_eq hr]
      have hkeeps := hbase id f hf (by simpa using hcalc)
      refine (matches_stored f hkeeps).bind fun v y hvy => .ok ?_
      cases v with
      | none => exact .number hvy
      | some x => exact .number hvy
  case summary =>
    intro m
    refine hrequire.bind ?_
    rintro f _ ⟨rfl, hf⟩
    have hone : (1.0 : Float) = Float.ofNat 1 := by decide
    by_cases hm : m = .count
    · rw [if_pos hm, hm]
      simp only [aggregateCalculated, aggregateStored, Aggregation.ofSummary, if_pos, ite_self]
      exact .ok (.inl hone)
    · rw [if_neg hm]
      have hkeeps := keepsValue_ofSummary hm
      by_cases hcalc : f.isCalculated = true
      · rw [if_pos hcalc, if_pos hcalc, ← hrecords]
        exact matches_aggregateCalculated _ hkeeps
      · rw [if_neg hcalc, if_neg hcalc]
        exact (matches_stored f hkeeps).bind_left fun v y hvy => .ok hvy

/-- Formulas over the record and over the group of it alone match on every field, with the same room
left below them. -/
theorem scopesMatch_singleton (room : Nat) (id : FieldId) :
    ScopesMatch Alike (recordScope i r room) (groupScope i [r] room) id := by
  induction room generalizing id with
  | zero =>
    exact scopesMatch_of_calculated hbase hr (fun f => .refl .refl _) fun f => rfl
  | succ room ih =>
    refine scopesMatch_of_calculated hbase hr (fun f => ?_) fun f => rfl
    cases hf : f.calculation with
    | none =>
      simp only [openField, hf]
      exact .error _
    | some c =>
      simp only [openField, hf]
      exact (matches_evaluate congruence_alike (fun x _ => .refl x) fun id _ => ih id).map
        fun v w hvw => alike_toNumber hvw

end

/-- A formula at any depth has the same result over a record as over the group of it alone, but
perhaps for the sign of a zero, or the same error. -/
theorem evaluateAt_singleton (i : FieldIndex) (r : Record)
    (hbase : ∀ id f, i.get? id = some f → f.isCalculated = false → KeepsValue f.aggregation)
    (hr : ∀ id b, r.get? id ≠ some (.boolean b)) (depth : Nat) (e : Formula.Expr) :
    Matches (Scalar.Related Alike) (evaluateAt (recordScope i r) depth e)
      (evaluateAt (groupScope i [r]) depth e) :=
  matches_evaluate congruence_alike (fun x _ => .refl x) fun id _ =>
    scopesMatch_singleton hbase hr _ id

def billIndex : FieldIndex := ⟨[
  .base "billed" "Billed" .number none,
  .base "paid" "Paid" .number (some .max),
  ⟨"open", "Open", .number, some .sum, some ⟨"[Billed] - sum(\"Paid\")",
    .binary .subtract (.field "billed") (.summary .sum "paid")⟩⟩]⟩

def bill : Record := .ofList [("billed", .number 5.0), ("paid", .text "-0")]

theorem bill_singleton :
    ((∀ id f, billIndex.get? id = some f → f.isCalculated = false → KeepsValue f.aggregation) ∧
      ∀ id b, bill.get? id ≠ some (.boolean b)) ∧
    Matches (Scalar.Related Alike)
      (evaluateAt (recordScope billIndex bill) 3
        (.binary .divide (.field "open") (.summary .avg "paid")))
      (evaluateAt (groupScope billIndex [bill]) 3
        (.binary .divide (.field "open") (.summary .avg "paid"))) := by
  have hbase : ∀ id f, billIndex.get? id = some f → f.isCalculated = false →
      KeepsValue f.aggregation := by
    intro id f hf hcalc
    have hmem : f ∈ billIndex.added := List.mem_reverse.1 (List.mem_of_find?_eq_some hf)
    simp only [billIndex, List.mem_cons, List.not_mem_nil, or_false] at hmem
    rcases hmem with rfl | rfl | rfl
    · decide
    · decide
    · cases hcalc
  have hr : ∀ id b, bill.get? id ≠ some (.boolean b) := by
    intro id b h
    have hmem := (Labelled.get?_ofList (by decide) id _).1 h
    simp at hmem
  exact ⟨⟨hbase, hr⟩, evaluateAt_singleton billIndex bill hbase hr 3 _⟩

end Crosstab.Evaluation
