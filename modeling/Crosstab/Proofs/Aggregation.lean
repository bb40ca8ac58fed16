import Crosstab.Aggregation
import Crosstab.Proofs.Binary64.Extremes
import Crosstab.Proofs.Lookup
import Mathlib.Data.List.Perm.Basic

/-!
# Aggregation

Records add their numbers to the sum of an accumulator, one after the other, and one each to its
count. Where keys are counted, the accumulator holds the keys of the records, each once. The minimum
of some records for a field is the least of the numbers that they hold for it, and the maximum the
greatest, in whatever order the records come.
-/

namespace Crosstab

/-! ### What an accumulator has taken in -/

namespace Accumulator

theorem sum_foldl (f : Field) (rs : List Record) (acc : Accumulator) :
    (rs.foldl (fun acc r => acc.addRecord f r) acc).sum =
      (rs.map fun r => Value.numberOrZero (r.get? f.id)).foldl (· + ·) acc.sum := by
  induction rs generalizing acc with
  | nil => rfl
  | cons r rs ih => exact ih _

theorem count_foldl (f : Field) (rs : List Record) (acc : Accumulator) :
    (rs.foldl (fun acc r => acc.addRecord f r) acc).count = acc.count + rs.length := by
  induction rs generalizing acc with
  | nil => rfl
  | cons r rs ih =>
    have hstep : (acc.addRecord f r).count = acc.count + 1 := rfl
    rw [List.foldl_cons, ih, hstep, List.length_cons]
    omega

/-- An accumulator holds the keys of a list, each once. -/
def Keeps (acc : Accumulator) (keys : List String) : Prop :=
  ∃ held, acc.keys? = some held ∧ held.Nodup ∧ ∀ key, key ∈ held ↔ key ∈ keys

theorem keeps_start : (start .distinctCount).Keeps [] :=
  ⟨[], rfl, List.nodup_nil, fun _ => Iff.rfl⟩

theorem Keeps.addRecord {acc : Accumulator} {keys : List String} (h : acc.Keeps keys) (f : Field)
    (r : Record) :
    (acc.addRecord f r).Keeps (keys ++ [distinctKey f.type (r.get? f.id)]) := by
  obtain ⟨held, hheld, hnodup, hmem⟩ := h
  generalize hnew : distinctKey f.type (r.get? f.id) = new
  have hstep : (acc.addRecord f r).keys? = some (if new ∈ held then held else new :: held) := by
    rw [← hnew]
    exact congrArg (Option.map _) hheld
  refine ⟨_, hstep, ?_, fun key => ?_⟩
  · split_ifs with hold
    · exact hnodup
    · exact List.nodup_cons.2 ⟨hold, hnodup⟩
  · rw [List.mem_append, List.mem_singleton, ← hmem]
    split_ifs with hold
    · exact ⟨.inl, Or.rec id fun heq => heq ▸ hold⟩
    · rw [List.mem_cons, or_comm]

theorem Keeps.foldl {acc : Accumulator} {keys : List String} (h : acc.Keeps keys) (f : Field)
    (rs : List Record) :
    (rs.foldl (fun acc r => acc.addRecord f r) acc).Keeps
      (keys ++ rs.map fun r => distinctKey f.type (r.get? f.id)) := by
  induction rs generalizing acc keys with
  | nil => rwa [List.map_nil, List.append_nil]
  | cons r rs ih =>
    have hrest := ih (h.addRecord f r)
    rwa [List.append_assoc] at hrest

theorem Keeps.length_eq {acc : Accumulator} {keys : List String} (h : acc.Keeps keys) :
    (acc.keys?.getD []).length = keys.eraseDups.length := by
  obtain ⟨held, hheld, hnodup, hmem⟩ := h
  have hperm : held.Perm keys.eraseDups :=
    (List.perm_ext_iff_of_nodup hnodup (nodup_eraseDups keys)).2 fun key => by
      rw [hmem, List.mem_eraseDups]
  rw [hheld, Option.getD_some, hperm.length_eq]

end Accumulator

theorem aggregate_count (f : Field) (rs : List Record) :
    aggregate f .count rs = Float.ofNat rs.length := by
  have hstart : (Accumulator.start .count).count = 0 := rfl
  rw [aggregate, Accumulator.result, Accumulator.count_foldl, hstart, Nat.zero_add]

theorem aggregate_distinctCount (f : Field) (rs : List Record) :
    aggregate f .distinctCount rs =
      Float.ofNat
        (rs.map fun r => Accumulator.distinctKey f.type (r.get? f.id)).eraseDups.length := by
  have hkeys := (Accumulator.keeps_start.foldl f rs).length_eq
  rw [aggregate, Accumulator.result, hkeys, List.nil_append]

/-! ### Minimum and maximum -/

open Binary64 (Extreme Greatest Least OrdersNumbers SameNumber firstOf)

/-- The number that a record holds where it may hold a value: a number as it is, text by the number
that it spells, and 0 for all else. -/
def heldNumber : Option Value → Float
  | some (.number x) => x
  | some (.text s) => (Decimal.number? (Text.trim s)).getD 0.0
  | some (.boolean _) | some (.date _) | none => 0.0

def numbersHeld (f : Field) (rs : List Record) : List Float :=
  rs.map fun r => heldNumber (r.get? f.id)

theorem numberOrZero_eq_heldNumber (v : Option Value) : Value.numberOrZero v = heldNumber v := by
  cases v with
  | none => rfl
  | some v =>
    cases v with
    | number x => rfl
    | text s => rw [Value.numberOrZero, Option.bind_some, Value.asNumber?, heldNumber]
    | boolean b => rfl
    | date d => rfl

theorem Accumulator.addRecord_eq (acc : Accumulator) (f : Field) (r : Record) :
    acc.addRecord f r =
      (acc.addKey (distinctKey f.type (r.get? f.id))).push (heldNumber (r.get? f.id)) := by
  rw [← numberOrZero_eq_heldNumber]
  rfl

/-- An aggregation keeps one of the numbers that are taken in: the first one, until another comes
before it in an order. -/
structure KeepsFirst (a : Aggregation) (strictly : Float → Float → Prop) [DecidableRel strictly]
    (kept : Accumulator → Option Float) : Prop where
  start : kept (.start a) = none
  addRecord (acc : Accumulator) (f : Field) (r : Record) :
    kept (acc.addRecord f r) = some (match kept acc with
      | some m => firstOf strictly m (heldNumber (r.get? f.id))
      | none => heldNumber (r.get? f.id))
  result (acc : Accumulator) : acc.result a = (kept acc).getD 0.0

theorem keepsFirst_min : KeepsFirst .min (fun x y => x < y) Accumulator.min? :=
  ⟨rfl, fun _ _ _ => by rw [Accumulator.addRecord_eq, ← Binary64.lesser_eq]; rfl, fun _ => rfl⟩

theorem keepsFirst_max : KeepsFirst .max (fun x y => y < x) Accumulator.max? :=
  ⟨rfl, fun _ _ _ => by rw [Accumulator.addRecord_eq, ← Binary64.greater_eq]; rfl, fun _ => rfl⟩

namespace KeepsFirst
variable {a : Aggregation} {before strictly : Float → Float → Prop} [DecidableRel strictly]
  {kept : Accumulator → Option Float} (h : KeepsFirst a strictly kept)
include h

theorem foldl (f : Field) (rs : List Record) {acc : Accumulator} {m : Float}
    (hm : kept acc = some m) :
    kept (rs.foldl (fun acc r => acc.addRecord f r) acc) =
      some ((numbersHeld f rs).foldl (firstOf strictly) m) := by
  induction rs generalizing acc m with
  | nil => exact hm
  | cons r rs ih =>
    apply ih
    rw [h.addRecord, hm]

theorem aggregate_nil (f : Field) : aggregate f a [] = 0.0 := by
  rw [aggregate, List.foldl_nil, h.result, h.start, Option.getD_none]

theorem aggregate_cons (f : Field) (r : Record) (rs : List Record) :
    aggregate f a (r :: rs) =
      (numbersHeld f rs).foldl (firstOf strictly) (heldNumber (r.get? f.id)) := by
  have hfirst : kept ((Accumulator.start a).addRecord f r) =
      some (heldNumber (r.get? f.id)) := by
    rw [h.addRecord, h.start]
  rw [aggregate, List.foldl_cons, h.result, h.foldl f rs hfirst, Option.getD_some]

variable (horder : OrdersNumbers before strictly)
include horder

theorem extreme (f : Field) (r : Record) (rs : List Record) :
    Extreme before (numbersHeld f (r :: rs)) (aggregate f a (r :: rs)) := by
  rw [h.aggregate_cons]
  exact Binary64.extreme_foldl horder _ _

theorem sameNumber_of_perm (f : Field) {rs rs' : List Record} (hperm : rs.Perm rs') :
    SameNumber (aggregate f a rs) (aggregate f a rs') := by
  match rs, rs', hperm with
  | [], rs', hperm =>
    rw [List.nil_perm.1 hperm, h.aggregate_nil]
    exact .inl (by decide)
  | _ :: _, [], hperm => exact absurd hperm.length_eq (Nat.succ_ne_zero _)
  | r :: rs, r' :: rs', hperm =>
    exact (h.extreme horder f r rs).sameNumber horder (h.extreme horder f r' rs') (hperm.map _)

end KeepsFirst

/-- The minimum and the maximum over some records are extreme among the numbers that the records
hold, and do not depend on the order of the records. Over no records both are 0. -/
theorem aggregate_extremes (f : Field) :
    (∀ r rs, Least (numbersHeld f (r :: rs)) (aggregate f .min (r :: rs)) ∧
      Greatest (numbersHeld f (r :: rs)) (aggregate f .max (r :: rs))) ∧
    (∀ rs rs' : List Record, rs.Perm rs' →
      SameNumber (aggregate f .min rs) (aggregate f .min rs') ∧
        SameNumber (aggregate f .max rs) (aggregate f .max rs')) ∧
    aggregate f .min [] = 0.0 ∧ aggregate f .max [] = 0.0 := by
  have hle := Binary64.ordersNumbers_le
  have hge := Binary64.ordersNumbers_ge
  refine ⟨fun r rs => ⟨keepsFirst_min.extreme hle f r rs, keepsFirst_max.extreme hge f r rs⟩, ?_,
    keepsFirst_min.aggregate_nil f, keepsFirst_max.aggregate_nil f⟩
  intro rs rs' hperm
  exact ⟨keepsFirst_min.sameNumber_of_perm hle f hperm,
    keepsFirst_max.sameNumber_of_perm hge f hperm⟩

/-- Readings of which the first is no number, the third spells none and the last is missing. -/
def readings : List Record :=
  [.ofList [("amount", .text "nan")], .ofList [("amount", .text " -2.5")],
    .ofList [("amount", .text "-3 kg")], .empty]

def amount : Field := .base "amount" "Amount" .number none

theorem readings_extremes :
    numbersHeld amount readings = [0.0 / 0.0, -2.5, 0.0, 0.0] ∧
      aggregate amount .min readings = -2.5 ∧ aggregate amount .max readings = 0.0 ∧
      Least (numbersHeld amount readings) (aggregate amount .min readings) ∧
      Greatest (numbersHeld amount readings) (aggregate amount .max readings) ∧
      readings.Perm readings.reverse ∧
      SameNumber (aggregate amount .min readings) (aggregate amount .min readings.reverse) ∧
      SameNumber (aggregate amount .max readings) (aggregate amount .max readings.reverse) :=
  have hperm := (List.reverse_perm readings).symm
  have ⟨hextreme, hsame, _⟩ := aggregate_extremes amount
  ⟨by decide +kernel, by decide +kernel, by decide +kernel, (hextreme _ _).1, (hextreme _ _).2,
    hperm, (hsame _ _ hperm).1, (hsame _ _ hperm).2⟩

end Crosstab
