import Crosstab.Proofs.Pivot.RowTree
import Crosstab.Proofs.Record.Views

/-!
# Filters and groups

Groups go by keys and filters by what values are read as. Values with one key are read alike, if
numbers can be read back from their texts. So a filter on a field that makes groups keeps or drops
whole groups, apart from the records without a value.
-/

namespace Crosstab.Pivot
variable {type : SemanticType} {v w : Value}

theorem compare?_congr (hv : v.ReadsBack) (hw : w.ReadsBack)
    (h : Value.key? type (some v) = Value.key? type (some w)) (t : Value) :
    compare? type (some v) t = compare? type (some w) t := by
  by_cases hdate : type = .date
  · subst hdate
    simp only [compare?, if_true, Value.asDate?_congr hv hw h]
  · simp only [compare?, if_neg hdate, Value.asNumber?_congr hv hw hdate h, h]

/-- A condition looks at a value only through its key and through how it compares. -/
theorem Condition.holds_congr {v w : Option Value} (hkey : Value.key? type v = Value.key? type w)
    (hcompare : ∀ t, compare? type v t = compare? type w t) (c : Condition) :
    c.holds type v = c.holds type w := by
  cases c <;> simp only [holds, hkey, hcompare]

theorem Filter.accepts_congr (φ : Filter) (hv : v.ReadsBack) (hw : w.ReadsBack)
    (h : Value.key? φ.field.type (some v) = Value.key? φ.field.type (some w)) :
    φ.accepts (some v) = φ.accepts (some w) :=
  Condition.holds_congr h (compare?_congr hv hw h) φ.condition

def Config.filteredBy (c : Config) (φ : Filter) : Config := { c with filters := c.filters ++ [φ] }

namespace Config
variable {c : Config} {φ : Filter} (hφ : φ.field ∈ c.rows ++ c.column.toList)
include hφ

theorem mem_dateFields_filteredBy {f : Field} :
    f ∈ (c.filteredBy φ).dateFields ↔ f ∈ c.dateFields := by
  have hfield : f = φ.field → f ∈ c.rows ++ c.column.toList := by
    rintro rfl
    exact hφ
  simp only [dateFields, filteredBy, List.map_append, List.map_singleton, List.mem_filter,
    List.mem_append, List.mem_singleton] at hfield ⊢
  tauto

/-- A filter on a field that makes groups leaves no more records out than those it rejects. -/
theorem mem_passed_filteredBy {es : List Entry} {e : Entry} :
    e ∈ (c.filteredBy φ).passed es ↔ e ∈ c.passed es ∧ φ.admits e.record = true := by
  have hvalid := isSome_invalidDate?_congr (fun f => mem_dateFields_filteredBy hφ) e
  have hpasses : (c.filteredBy φ).passes e = (c.passes e && φ.admits e.record) := by
    rw [passes, passes, ← Option.not_isSome, ← Option.not_isSome, hvalid, filteredBy]
    simp [Bool.and_assoc]
  simp only [passed, List.mem_filter, hpasses, Bool.and_eq_true, and_assoc]

end Config

theorem mem_group_iff {c : Config} {all es : List Entry} {f : Field}
    (hf : f ∈ c.rows ++ c.column.toList) (hes : es ⊆ c.passed all) {key : String}
    {group : List Entry} (hgroup : (key, group) ∈ groupBy f es) {e : Entry} :
    e ∈ group ↔ e ∈ es ∧ canonicalKey? f e = some key := by
  have hkeyed : Keyed [f] es := by
    intro g hg e he
    obtain rfl := List.mem_singleton.1 hg
    have hpasses := (List.mem_filter.1 (hes he)).2
    exact c.isSome_key_of_passes hpasses
      (List.append_assoc .. ▸ List.mem_append_left (c.filters.map (·.field)) hf)
  rw [groupBy_eq hkeyed] at hgroup
  obtain ⟨k, -, hk⟩ := List.mem_map.1 hgroup
  obtain ⟨rfl, rfl⟩ := Prod.mk.inj hk
  simp [withKey]

/-- A filter accepts both or neither of two values with one key. So among the records that take
part, those of one group that hold a value for the field all stay or all go if the filter is
added. -/
theorem accepts_of_same_key (φ : Filter) :
    (∀ v w : Value, v.ReadsBack → w.ReadsBack →
      Value.key? φ.field.type (some v) = Value.key? φ.field.type (some w) →
      φ.accepts (some v) = φ.accepts (some w)) ∧
    ∀ (c : Config) (all : List Entry), φ.field ∈ c.rows ++ c.column.toList →
      (∀ e ∈ all, ∀ v, e.record.get? φ.field.id = some v → v.ReadsBack) →
      ∀ es ⊆ c.passed all, ∀ key group, (key, group) ∈ groupBy φ.field es →
        let held := group.filter fun e => (e.record.get? φ.field.id).isSome
        held ⊆ (c.filteredBy φ).passed all ∨ held.Disjoint ((c.filteredBy φ).passed all) := by
  refine ⟨fun v w hv hw => φ.accepts_congr hv hw, ?_⟩
  intro c all hφ hreads es hes key group hgroup held
  have hheld {e : Entry} (he : e ∈ held) : e ∈ c.passed all ∧ ∃ v : Value,
      e.record.get? φ.field.id = some v ∧ v.ReadsBack ∧
        Value.key? φ.field.type (some v) = some key := by
    obtain ⟨hmem, hsome⟩ := List.mem_filter.1 he
    obtain ⟨v, hv⟩ := Option.isSome_iff_exists.1 hsome
    obtain ⟨he, hkey⟩ := (mem_group_iff hφ hes hgroup).1 hmem
    rw [canonicalKey?, hv] at hkey
    exact ⟨hes he, v, hv, hreads e (List.mem_filter.1 (hes he)).1 v hv, hkey⟩
  have halike {e e' : Entry} (he : e ∈ held) (he' : e' ∈ held) :
      φ.admits e.record = φ.admits e'.record := by
    obtain ⟨-, v, hv, hreads, hkey⟩ := hheld he
    obtain ⟨-, v', hv', hreads', hkey'⟩ := hheld he'
    rw [Filter.admits, Filter.admits, hv, hv']
    exact φ.accepts_congr hreads hreads' (hkey.trans hkey'.symm)
  by_cases hsome : ∃ e ∈ held, φ.admits e.record = true
  · obtain ⟨e, he, hadmits⟩ := hsome
    left
    intro e' he'
    rw [Config.mem_passed_filteredBy hφ]
    exact ⟨(hheld he').1, halike he he' ▸ hadmits⟩
  · right
    intro e he hpassed
    exact hsome ⟨e, he, ((Config.mem_passed_filteredBy hφ).1 hpassed).2⟩

section Sample

def code : Field := .base "codigo" "Código" .string none

def codes : List Entry :=
  [⟨0, .set .empty "codigo" (.number 7.0)⟩, ⟨1, .set .empty "codigo" (.text "7")⟩, ⟨2, .empty⟩]

def byCode : Config := ⟨[code], none, [], [], []⟩

def codeAbove (x : Float) : Filter := ⟨code, .greaterThan (.number x)⟩

theorem readsBack_codes {e : Entry} (he : e ∈ codes) {v : Value}
    (hv : e.record.get? code.id = some v) : v.ReadsBack := by
  have hvalue : v = .number 7.0 ∨ v = .text "7" := by
    obtain rfl | rfl | rfl : e = _ ∨ e = _ ∨ e = _ := by simpa [codes] using he
    · exact .inl (Option.some.inj hv.symm)
    · exact .inr (Option.some.inj hv.symm)
    · cases hv
  obtain rfl | rfl := hvalue
  · intro x hx
    obtain rfl := Value.number.inj hx
    decide +kernel
  · exact nofun

/-- Both ways of writing the code 7 go together. -/
theorem codes_together :
    (codeAbove 5.0).accepts (some (.number 7.0)) = (codeAbove 5.0).accepts (some (.text "7")) ∧
      let group := withKey code "7" (byCode.passed codes)
      let held := group.filter fun e => (e.record.get? code.id).isSome
      ("7", group) ∈ groupBy code (byCode.passed codes) ∧
        (held ⊆ (byCode.filteredBy (codeAbove 5.0)).passed codes ∨
          held.Disjoint ((byCode.filteredBy (codeAbove 5.0)).passed codes)) := by
  obtain ⟨hpair, hgroups⟩ := accepts_of_same_key (codeAbove 5.0)
  have hgroup : ("7", withKey code "7" (byCode.passed codes)) ∈
      groupBy code (byCode.passed codes) := by
    rw [groupBy_eq (byCode.keyed_rows codes)]
    exact List.mem_map.2 ⟨"7", by decide +kernel, rfl⟩
  have hnumber : Value.ReadsBack (.number 7.0) := readsBack_codes List.mem_cons_self rfl
  exact ⟨hpair _ _ hnumber nofun (by decide +kernel), hgroup,
    hgroups byCode codes List.mem_cons_self (fun e he v hv => readsBack_codes he hv) _
      (List.Subset.refl _) _ _ hgroup⟩

end Sample

end Crosstab.Pivot
