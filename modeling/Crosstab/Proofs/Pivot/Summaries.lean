import Crosstab.Pivot.Compute
import Crosstab.Proofs.Aggregation
import Crosstab.Proofs.Evaluation.Singleton

/-!
# Summaries in formulas and measures

A measure on a base field takes every value that is no number as 0. A formula that takes the same
aggregate of the field is refused if a record holds such a value, and the error names the first one.
Otherwise, and where only records or keys are counted, the formula shows what the measure shows.
-/

namespace Crosstab.Evaluation

def HoldsNonNumber (f : Field) (r : Record) : Prop :=
  ∃ v, r.get? f.id = some v ∧ v.asNumber? = none

/-- Of the values that some records hold for a field, the first one that stands for no number. -/
def FirstNonNumber (f : Field) (group : List Record) (v : Value) : Prop :=
  ∃ before r after, group = before ++ r :: after ∧ r.get? f.id = some v ∧ v.asNumber? = none ∧
    ∀ r' ∈ before, ¬ HoldsNonNumber f r'

/-- A result follows the measure that aggregates a base field in some way. Where numbers are called
for, it is an error exactly if some record holds something else, and the error names the first such
value. Otherwise it is the value of the measure. -/
structure FollowsMeasure (f : Field) (a : Aggregation) (group : List Record)
    (result : Except EvalError Scalar) : Prop where
  refused : KeepsValue a →
    ((∃ v, FirstNonNumber f group v ∧ result = .error (.notNumeric f.id v.display)) ↔
      ∃ r ∈ group, HoldsNonNumber f r)
  value : (KeepsValue a → ∀ r ∈ group, ¬ HoldsNonNumber f r) →
    result = .ok (.number (aggregate f a group))

section
variable {index : FieldIndex} {f : Field} {group : List Record} {a : Aggregation}

theorem any_asNumber?_isNone_iff {r : Record} :
    (r.get? f.id).any (·.asNumber?.isNone) = true ↔ HoldsNonNumber f r := by
  simp only [HoldsNonNumber, Option.any_eq_true, Option.isNone_iff_eq_none]

theorem find?_nonNumber_eq_some_iff {v : Value} :
    (group.filterMap (·.get? f.id)).find? (·.asNumber?.isNone) = some v ↔
      FirstNonNumber f group v := by
  rw [List.find?_filterMap, Option.bind_eq_some_iff]
  constructor
  · rintro ⟨r, hr, hget⟩
    obtain ⟨hnone, before, after, hgroup, hbefore⟩ := List.find?_eq_some_iff_append.1 hr
    refine ⟨before, r, after, hgroup, hget, by simpa [hget] using hnone, fun r' hr' hholds => ?_⟩
    have hnot := hbefore r' hr'
    rw [any_asNumber?_isNone_iff.2 hholds] at hnot
    cases hnot
  · rintro ⟨before, r, after, hgroup, hget, hnone, hbefore⟩
    refine ⟨r, List.find?_eq_some_iff_append.2 ⟨by simp [hget, hnone], before, after, hgroup, ?_⟩,
      hget⟩
    intro r' hr'
    rw [Bool.not_eq_true', ← Bool.not_eq_true, any_asNumber?_isNone_iff]
    exact hbefore r' hr'

theorem find?_nonNumber_eq_none_iff :
    (group.filterMap (·.get? f.id)).find? (·.asNumber?.isNone) = none ↔
      ∀ r ∈ group, ¬ HoldsNonNumber f r := by
  simp only [List.find?_eq_none, List.mem_filterMap, Option.isNone_iff_eq_none]
  constructor
  · rintro hnone r hr ⟨v, hget, hv⟩
    exact hnone v ⟨r, hr, hget⟩ hv
  · rintro hnone v ⟨r, hr, hget⟩ hv
    exact hnone r hr ⟨v, hget, hv⟩

theorem FirstNonNumber.exists_mem {v : Value} (h : FirstNonNumber f group v) :
    ∃ r ∈ group, HoldsNonNumber f r := by
  obtain ⟨before, r, after, rfl, hget, hnone, -⟩ := h
  exact ⟨r, by simp, v, hget, hnone⟩

theorem keepsValue_iff : KeepsValue a ↔ a ≠ .count ∧ a ≠ .distinctCount := by
  cases a <;> decide

/-- The aggregate that a formula takes of a base field. -/
theorem followsMeasure_aggregateStored (f : Field) (a : Aggregation) (group : List Record) :
    FollowsMeasure f a group ((aggregateStored group f a).map .number) := by
  by_cases ha : KeepsValue a
  · have hstored : aggregateStored group f a =
        (requireNumeric group f).map fun _ => aggregate f a group := by
      rw [aggregateStored, if_neg ha.ne_count, if_neg ha.ne_distinctCount]
      cases requireNumeric group f <;> rfl
    rw [hstored, requireNumeric]
    split
    · rename_i v hv
      have hfirst := find?_nonNumber_eq_some_iff.1 hv
      obtain ⟨r, hr, hholds⟩ := hfirst.exists_mem
      exact ⟨fun _ => ⟨fun _ => ⟨r, hr, hholds⟩, fun _ => ⟨v, hfirst, rfl⟩⟩,
        fun hnone => absurd hholds (hnone ha r hr)⟩
    · rename_i hnone
      rw [find?_nonNumber_eq_none_iff] at hnone
      refine ⟨fun _ => ⟨?_, ?_⟩, fun _ => rfl⟩
      · rintro ⟨v, hfirst, -⟩
        exact hfirst.exists_mem
      · rintro ⟨r, hr, hholds⟩
        exact absurd hholds (hnone r hr)
  · refine ⟨fun hkeeps => absurd hkeeps ha, fun _ => ?_⟩
    rw [aggregateStored]
    by_cases hcount : a = .count
    · rw [if_pos hcount, hcount, aggregate_count]
      rfl
    · have hdistinct : a = .distinctCount := by
        by_contra hne
        exact ha (keepsValue_iff.2 ⟨hcount, hne⟩)
      rw [if_neg hcount, if_pos hdistinct]
      rfl

section
variable (hf : index.get? f.id = some f) (hbase : f.isCalculated = false) (depth : Nat)
include hf hbase

theorem evaluateAt_summary (s : Formula.Summary) :
    evaluateAt (groupScope index group) depth (.summary s f.id) =
      (aggregateStored group f (.ofSummary s)).map .number := by
  have hscope : (groupScope index group (maxDepth - depth)).summary s f.id =
      aggregateStored group f (.ofSummary s) := by
    rw [groupScope_eq]
    simp only [ofGroup, require_eq_ok_iff.2 hf]
    exact if_neg (Bool.eq_false_iff.1 hbase)
  rw [evaluateAt, Formula.Expr.evaluate, hscope]
  cases aggregateStored group f (.ofSummary s) <;> rfl

theorem evaluateAt_field :
    evaluateAt (groupScope index group) depth (.field f.id) =
      (aggregateStored group f f.aggregation).map .number := by
  have hscope : (groupScope index group (maxDepth - depth)).field f.id =
      aggregateStored group f f.aggregation >>= fun x => .ok (some (.number x)) := by
    rw [groupScope_eq]
    simp only [ofGroup, require_eq_ok_iff.2 hf]
    exact if_neg (Bool.eq_false_iff.1 hbase)
  rw [evaluateAt, Formula.Expr.evaluate, hscope]
  cases aggregateStored group f f.aggregation <;> rfl

end

/-- Over a group a summary of a base field follows the measure that aggregates the field in the same
way, and the field itself follows its measure, which is a sum if the field says nothing else. To
count is never refused and gives the size of the group. -/
theorem evaluateAt_stored {id : FieldId} (hf : index.get? id = some f)
    (hbase : f.isCalculated = false) (depth : Nat) :
    (∀ s, FollowsMeasure f (.ofSummary s) group
        (evaluateAt (groupScope index group) depth (.summary s id))) ∧
      FollowsMeasure f (f.defaultAggregation.getD .sum) group
        (evaluateAt (groupScope index group) depth (.field id)) ∧
      evaluateAt (groupScope index group) depth (.summary .count id) =
        .ok (.number (Float.ofNat group.length)) ∧
      ∀ a, Pivot.Config.outcome index (f.withAggregation a) group = .ok (aggregate f a group) := by
  obtain rfl := FieldIndex.id_of_get? hf
  refine ⟨fun s => ?_, ?_, ?_, fun a => ?_⟩
  · rw [evaluateAt_summary hf hbase]
    exact followsMeasure_aggregateStored f (.ofSummary s) group
  · rw [evaluateAt_field hf hbase]
    exact followsMeasure_aggregateStored f f.aggregation group
  · rw [evaluateAt_summary hf hbase]
    rfl
  · exact if_neg (Bool.eq_false_iff.1 hbase)

end

section Sample

def fee : Field := .base "fee" "Fee" .number (some .avg)

def charging (v : Value) : Record := .set .empty "fee" v

/-- The records without a fee count for the average; a truth value refuses it. -/
theorem evaluateAt_fee :
    (FieldIndex.get? ⟨[fee]⟩ "fee" = some fee ∧ fee.isCalculated = false) ∧
      evaluateAt (groupScope ⟨[fee]⟩ [.empty, charging (.text " 7 ")]) 0 (.field "fee") =
        .ok (.number 3.5) ∧
      ∃ v, FirstNonNumber fee [charging (.boolean true), charging (.text "none")] v ∧
        evaluateAt (groupScope ⟨[fee]⟩ [charging (.boolean true), charging (.text "none")]) 0
          (.summary .max "fee") = .error (.notNumeric "fee" v.display) := by
  have hf : FieldIndex.get? ⟨[fee]⟩ "fee" = some fee := rfl
  have hbase : fee.isCalculated = false := rfl
  have hnumbers : ∀ r ∈ [.empty, charging (.text " 7 ")], ¬ HoldsNonNumber fee r :=
    find?_nonNumber_eq_none_iff.1 (by decide +kernel)
  have haverage : aggregate fee .avg [.empty, charging (.text " 7 ")] = 3.5 := by
    decide +kernel
  refine ⟨⟨hf, hbase⟩, ?_, ?_⟩
  · rw [← haverage]
    exact (evaluateAt_stored hf hbase 0).2.1.value fun _ => hnumbers
  · exact (((evaluateAt_stored hf hbase 0).1 .max).refused (by decide)).2
      ⟨_, List.mem_cons_self, .boolean true, rfl, rfl⟩

end Sample

end Crosstab.Evaluation
