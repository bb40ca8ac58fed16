import Crosstab.Proofs.Evaluation.Depth

/-!
# What a calculated field depends on

The formula of a calculated field leads to base fields, perhaps through other calculated ones. It
reads nothing else of a record or of a group: records that hold the same for these base fields give
it the same result, and so do indexes that have the same under the ids on the way.
-/

namespace Crosstab

/-- A base field with an id is one that the formula of a field leads to. -/
def FieldIndex.RestsOn (i : FieldIndex) (f : Field) (id : FieldId) : Prop :=
  i.Leads f id ∧ ∃ g, i.get? id = some g ∧ g.isCalculated = false

namespace Evaluation

def Coincide (p : FieldId → Prop) (r r' : Record) : Prop := ∀ id, p id → r.get? id = r'.get? id

/-- Two records coincide under some ids, or two groups of the same length record by record. -/
inductive Source.Coincide (p : FieldId → Prop) : Source → Source → Prop
  | record {r r' : Record} (h : Evaluation.Coincide p r r') :
    Source.Coincide p (.record r) (.record r')
  | group {rs rs' : List Record} (h : List.Forall₂ (Evaluation.Coincide p) rs rs') :
    Source.Coincide p (.group rs) (.group rs')

theorem agree_of_coincide {i i' : FieldIndex} {f : Field}
    (hindex : ∀ id, i.Leads f id → i'.get? id = i.get? id) {s s' : Source}
    (hs : s.Coincide (i.RestsOn f) s') (room : Nat) {id : FieldId} (hid : i.Leads f id) :
    AgreeUpTo Eq (s.scopes i room) (s'.scopes i' room) id := by
  have hclosed : i.Closed (i.Leads f) := i.closed_leads f
  have hget : ∀ id, i.Leads f id → i.get? id = i'.get? id := fun id hid => (hindex id hid).symm
  have hbase {r r' : Record} (h : Coincide (i.RestsOn f) r r') (id : FieldId) (g : Field)
      (hid : i.Leads f id) (hg : i.get? id = some g) (hcalc : g.isCalculated = false) :
      r.get? id = r'.get? id :=
    h id ⟨hid, g, hg, hcalc⟩
  cases hs with
  | record h => exact agree_recordScope hclosed hget (hbase h) room hid
  | group h => exact agree_groupScope hclosed hget (h.imp fun _ _ => hbase) room hid

/-- A calculated field has the same result in two indexes that have the same field, or none, under
every id that its formula leads to, over two records or two groups that hold the same for the base
fields among these. What an index has under other ids does not matter, nor what a record holds for
other fields. -/
theorem calculate_dependence {i i' : FieldIndex} {f : Field}
    (hindex : ∀ id, i.Leads f id → i'.get? id = i.get? id) {s s' : Source}
    (hs : s.Coincide (i.RestsOn f) s') (depth : Nat) :
    s.calculate i depth f = s'.calculate i' depth f :=
  openField_congr fun n _ _ hid => agree_of_coincide hindex hs n (.read hid)

section Sample

def price : Field := ⟨"p", "P", .number, some .sum, none⟩

def note : Field := ⟨"n", "N", .number, some .sum, none⟩

def charged : Field :=
  ⟨"c", "C", .number, some .sum, some ⟨"[P] + 1", .binary .add (.field "p") (.number 1.0)⟩⟩

def doubled : Field :=
  ⟨"d", "D", .number, some .sum, some ⟨"[C] * 2", .binary .multiply (.field "c") (.number 2.0)⟩⟩

def shop : FieldIndex := ⟨[price, note, charged, doubled]⟩

theorem leads_doubled {id : FieldId} (h : shop.Leads doubled id) : id = "c" ∨ id = "p" := by
  induction h with
  | read hid =>
    have hread := (Field.mem_dependencies (f := doubled) rfl).1 hid
    exact .inl (List.mem_singleton.1 hread)
  | through _ hg hid ih =>
    rcases ih with rfl | rfl
    · obtain rfl := Option.some.inj hg
      have hread := (Field.mem_dependencies (f := charged) rfl).1 hid
      exact .inr (List.mem_singleton.1 hread)
    · obtain rfl := Option.some.inj hg
      cases hid

/-- A payment with a note has the same result where nobody knows of notes. -/
theorem doubled_dependence :
    Source.calculate shop
        (.group [.set (.set .empty "n" (.text "late")) "p" (.number 3.0)]) 0 doubled = .ok 8.0 ∧
      Source.calculate ⟨[charged, price]⟩ (.group [.set .empty "p" (.number 3.0)]) 0 doubled =
        .ok 8.0 := by
  have hindex : ∀ id, shop.Leads doubled id →
      FieldIndex.get? ⟨[charged, price]⟩ id = shop.get? id := by
    intro id hid
    rcases leads_doubled hid with rfl | rfl <;> rfl
  have hgroups : Source.Coincide (shop.RestsOn doubled)
      (.group [.set (.set .empty "n" (.text "late")) "p" (.number 3.0)])
      (.group [.set .empty "p" (.number 3.0)]) := by
    refine .group (.cons (fun id hid => ?_) .nil)
    rcases leads_doubled hid.1 with rfl | rfl <;> rfl
  have hvalue : Source.calculate ⟨[charged, price]⟩ (.group [.set .empty "p" (.number 3.0)]) 0
      doubled = .ok 8.0 := by decide +kernel
  exact ⟨(calculate_dependence hindex hgroups 0).trans hvalue, hvalue⟩

end Sample

end Evaluation

end Crosstab
