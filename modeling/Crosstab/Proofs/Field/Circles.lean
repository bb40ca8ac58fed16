import Crosstab.Proofs.Evaluation.Closure
import Crosstab.Proofs.Field.Names

/-!
# Formulas that lead back

A formula refers to fields that are there when it is read, so it never refers to its own field, and a
field refers to a younger one only if the id of that one was taken out in the meantime and then
given again. In every circle of formulas the oldest field refers to a younger one. So circles come
from ids that are given again, and from nothing else.
-/

namespace Crosstab.Catalog

open Change (Effect)

variable {base : List Field} {c c' : Catalog} {log : Log} {change : Change}
  {a : Except ConfigError Change.Answer} {f g h : Field} {id : FieldId}

/-! ### Entries of a list, one after the other -/

section
variable {α : Type}

theorem pair_sublist_concat {x y z : α} {l : List α} (h : [x, y].Sublist (l ++ [z])) :
    [x, y].Sublist l ∨ x ∈ l ∧ y = z := by
  induction l with
  | nil => exact absurd h.length_le (by simp)
  | cons w l ih =>
    cases h with
    | cons _ h =>
      rcases ih h with hl | ⟨hx, rfl⟩
      · exact .inl (hl.cons w)
      · exact .inr ⟨List.mem_cons_of_mem w hx, rfl⟩
    | cons_cons _ h =>
      rcases List.mem_append.1 (List.singleton_sublist.1 h) with hy | hy
      · exact .inl ((List.singleton_sublist.2 hy).cons_cons x)
      · exact .inr ⟨List.mem_cons_self, List.mem_singleton.1 hy⟩

theorem exists_first {p : α → Prop} {l : List α} {x : α} (hx : x ∈ l) (hpx : p x) :
    ∃ before y after, l = before ++ y :: after ∧ p y ∧ ∀ z ∈ before, ¬p z := by
  classical
  have hsome : (l.find? (p ·)).isSome := List.find?_isSome.2 ⟨x, hx, by simpa⟩
  obtain ⟨y, hy⟩ := Option.isSome_iff_exists.1 hsome
  obtain ⟨hpy, before, after, rfl, hbefore⟩ := List.find?_eq_some_iff_append.1 hy
  exact ⟨before, y, after, rfl, by simpa using hpy, fun z hz => by simpa using hbefore z hz⟩

end

/-! ### What a log explains -/

/-- After a field had been added, an id was taken out. -/
def LostSince (log : Log) (g : Field) (id : FieldId) : Prop :=
  ∃ born out, [born, out].Sublist log ∧ added? born = some g ∧ tookOut id out = true

/-- After a field had been added, an id was taken out, and then another field was added with it. -/
def ReplacedSince (log : Log) (g h : Field) : Prop :=
  ∃ born out back, [born, out, back].Sublist log ∧ added? born = some g ∧
    tookOut h.id out = true ∧ added? back = some h

theorem LostSince.mono {log' : Log} (hg : LostSince log g id) (hlog : log.Sublist log') :
    LostSince log' g id := by
  obtain ⟨born, out, hsub, hborn, hout⟩ := hg
  exact ⟨born, out, hsub.trans hlog, hborn, hout⟩

theorem ReplacedSince.mono {log' : Log} (hgh : ReplacedSince log g h)
    (hlog : log.Sublist log') : ReplacedSince log' g h := by
  obtain ⟨born, out, back, hsub, hborn, hout, hback⟩ := hgh
  exact ⟨born, out, back, hsub.trans hlog, hborn, hout, hback⟩

variable {entry : Change × Except ConfigError Change.Answer}

theorem lostSince_concat (hg : ∃ born ∈ log, added? born = some g)
    (hentry : tookOut id entry = true) : LostSince (log ++ [entry]) g id := by
  obtain ⟨born, hborn, hg⟩ := hg
  have hsub := (List.singleton_sublist.2 hborn).append (List.Sublist.refl [entry])
  exact ⟨born, entry, hsub, hg, hentry⟩

theorem LostSince.replaced (hlost : LostSince log g h.id) (hentry : added? entry = some h) :
    ReplacedSince (log ++ [entry]) g h := by
  obtain ⟨born, out, hsub, hborn, hout⟩ := hlost
  exact ⟨born, out, entry, hsub.append (List.Sublist.refl [entry]), hborn, hout, hentry⟩

/-- The calculated fields of a catalog and what they refer to, as far as the log of its changes
explains them. -/
structure Explains (log : Log) (c : Catalog) : Prop where
  base {f : Field} (hf : f ∈ c.base) : f.isCalculated = false
  ids : (c.calculated.map (·.id)).Nodup
  added {f : Field} (hf : f ∈ c.calculated) : ∃ born ∈ log, added? born = some f
  other {f : Field} (hf : f ∈ c.calculated) : f.id ∉ f.dependencies
  lost {f : Field} (hf : f ∈ c.calculated) {id : FieldId} (hid : id ∈ f.dependencies)
    (hnone : c.get? id = none) : LostSince log f id
  younger {f g : Field} (hfg : [f, g].Sublist c.calculated) (hg : g.id ∈ f.dependencies) :
    ReplacedSince log f g

theorem get?_eq_none_iff : c.get? id = none ↔ ∀ f ∈ c.fields, f.id ≠ id := by
  rw [get?, List.find?_eq_none]
  simp only [decide_eq_true_eq]

theorem mem_fields : f ∈ c.fields ↔ f ∈ c.base ∨ f ∈ c.calculated := List.mem_append

namespace Explains

theorem logged (hc : Explains log c) (entry : Change × Except ConfigError Change.Answer) :
    Explains (log ++ [entry]) c := by
  have hlog : log.Sublist (log ++ [entry]) := List.sublist_append_left _ _
  refine ⟨hc.base, hc.ids, ?_, hc.other, ?_, ?_⟩
  · intro f hf
    obtain ⟨born, hborn, hadded⟩ := hc.added hf
    exact ⟨born, hlog.subset hborn, hadded⟩
  · exact fun hf _ hid hnone => (hc.lost hf hid hnone).mono hlog
  · exact fun hfg hg => (hc.younger hfg hg).mono hlog

/-- A field comes in last, and what it refers to is there. -/
theorem registered (hc : Explains log c) (hreg : c.register f = .ok c')
    (hentry : added? entry = some f) (hdeps : ∀ id ∈ f.dependencies, (c.get? id).isSome) :
    Explains (log ++ [entry]) c' := by
  obtain ⟨⟨-, -, hnone, -⟩, rfl⟩ := register_eq_ok_iff.1 hreg
  have hold := hc.logged entry
  have hfresh := get?_eq_none_iff.1 hnone
  refine ⟨hc.base, ?_, ?_, ?_, ?_, ?_⟩
  · rw [List.map_append]
    refine List.nodup_append.2 ⟨hc.ids, List.nodup_singleton _, ?_⟩
    rintro id hid id' hid' rfl
    obtain ⟨g, hg, hgid⟩ := List.mem_map.1 hid
    exact hfresh g (mem_fields.2 (.inr hg)) (hgid.trans (List.mem_singleton.1 hid'))
  · intro g hg
    rcases List.mem_append.1 hg with hg | hg
    · exact hold.added hg
    · exact ⟨entry, by simp, by rw [hentry, List.mem_singleton.1 hg]⟩
  · intro g hg
    rcases List.mem_append.1 hg with hg | hg
    · exact hc.other hg
    · obtain rfl := List.mem_singleton.1 hg
      intro hself
      have hsome := hdeps _ hself
      rw [hnone] at hsome
      cases hsome
  · intro g hg id hid hnone'
    have hgone : c.get? id = none := by
      rw [get?_eq_none_iff, fields_of_register hreg] at hnone'
      exact get?_eq_none_iff.2 fun k hk => hnone' k (List.mem_append_left _ hk)
    rcases List.mem_append.1 hg with hg | hg
    · exact hold.lost hg hid hgone
    · obtain rfl := List.mem_singleton.1 hg
      have hsome := hdeps id hid
      rw [hgone] at hsome
      cases hsome
  · intro g k hgk hk
    rcases pair_sublist_concat hgk with hgk | ⟨hg, rfl⟩
    · exact hold.younger hgk hk
    · exact (hc.lost hg hk hnone).replaced hentry

/-- The fields that refer to the field that goes out have lost it since they came in. -/
theorem removed (hc : Explains log c) (hrem : c.remove id = .ok (f, c'))
    (hentry : tookOut id entry = true) : Explains (log ++ [entry]) c' := by
  obtain ⟨-, rfl⟩ := remove_eq_ok_iff.1 hrem
  have hold := hc.logged entry
  have hsub : (c.calculated.eraseP (·.id = id)).Sublist c.calculated := List.eraseP_sublist
  refine ⟨hc.base, hc.ids.sublist (hsub.map _), fun hg => hold.added (hsub.subset hg),
    fun hg => hc.other (hsub.subset hg), ?_, fun hgk => hold.younger (hgk.trans hsub)⟩
  intro g hg id' hid' hnone
  by_cases hid : id' = id
  · exact lostSince_concat (hc.added (hsub.subset hg)) (hid ▸ hentry)
  · refine hold.lost (hsub.subset hg) hid' (get?_eq_none_iff.2 fun k hk hkid => ?_)
    have hk' : k ∈ c.base ∨ k ∈ c.calculated.eraseP (·.id = id) := by
      refine (mem_fields.1 hk).imp_right fun hk => (List.mem_eraseP_of_neg ?_).2 hk
      simpa [hkid] using hid
    exact get?_eq_none_iff.1 hnone k (mem_fields.2 hk') hkid

theorem effect (hc : Explains log c) (heffect : Effect c change a c')
    (hchange : ∀ f, change ≠ .register f) : Explains (log ++ [(change, a)]) c' := by
  cases heffect with
  | refused => exact hc.logged _
  | registered => exact absurd rfl (hchange _)
  | created hf hreg =>
    refine hc.registered hreg rfl fun id hid => ?_
    obtain ⟨name, -, hname⟩ := (idsOfNames_of_calculated hf).mem_iff.1 hid
    exact isSome_get?_of_resolve hname
  | removed hrem => exact hc.removed hrem (by simp [tookOut])

theorem run (hc : Explains log c) {changes : List Change}
    (hchanges : ∀ f, Change.register f ∉ changes) :
    Explains (log ++ (c.run changes).1) (c.run changes).2 := by
  induction changes generalizing c log with
  | nil => rwa [Catalog.run, List.append_nil]
  | cons change changes ih =>
    have hstep := hc.effect (Change.effect_act change c) fun f hf =>
      hchanges f (hf ▸ List.mem_cons_self)
    have hrest := ih hstep fun f hf => hchanges f (List.mem_cons_of_mem change hf)
    rwa [List.append_assoc] at hrest

theorem start (hbase : ∀ f ∈ base, f.isCalculated = false) : Explains [] (ofBase base) :=
  ⟨fun hf => hbase _ hf, List.nodup_nil, nofun, nofun, nofun, nofun⟩

/-! ### Circles -/

theorem index_get? (hc : Explains log c) (hf : f ∈ c.calculated) :
    c.index.get? f.id = some f := by
  have hids : (c.calculated.reverse.map (·.id)).Nodup := by
    rw [List.map_reverse]
    exact List.nodup_reverse.2 hc.ids
  have hfind : c.calculated.reverse.find? (·.id = f.id) = some f :=
    (find?_key_eq_some_iff hids).2 ⟨List.mem_reverse.2 hf, rfl⟩
  rw [index, FieldIndex.get?, fields, List.reverse_append, List.find?_append, hfind,
    Option.some_or]

theorem mem_calculated (hc : Explains log c) (hf : c.index.get? f.id = some f)
    (hcalc : f.isCalculated = true) : f ∈ c.calculated := by
  have hmem : f ∈ c.fields := FieldIndex.mem_of_get? hf
  refine (mem_fields.1 hmem).resolve_left fun hbase => ?_
  rw [hc.base hbase] at hcalc
  cases hcalc

/-- On the way back to its start a circle goes from its oldest field to a younger one. -/
theorem exists_replaced (hc : Explains log c) (hf : f ∈ c.calculated)
    (hlead : c.index.Leads f f.id) :
    ∃ g h, [g, h].Sublist c.calculated ∧ c.index.Leads f g.id ∧ h.id ∈ g.dependencies ∧
      c.index.Leads h f.id ∧ ReplacedSince log g h := by
  obtain ⟨before, g, after, hcalculated, ⟨hfg, hgf⟩, hbefore⟩ :=
    exists_first (p := fun g => c.index.Leads f g.id ∧ c.index.Leads g f.id) hf ⟨hlead, hlead⟩
  have hg : g ∈ c.calculated := hcalculated ▸ by simp
  obtain ⟨h, hh, hgh, hfh, hhf⟩ : ∃ h ∈ c.calculated, h.id ∈ g.dependencies ∧
      c.index.Leads f h.id ∧ c.index.Leads h f.id := by
    rcases hgf.first with hread | ⟨h, hh, hread, hhf⟩
    · exact ⟨f, hf, hread, hlead, hlead⟩
    · exact ⟨h, hc.mem_calculated hh (Field.isCalculated_of_leads hhf), hread,
        .through hfg (hc.index_get? hg) hread, hhf⟩
  have hafter : h ∈ after := by
    rw [hcalculated] at hh
    rcases List.mem_append.1 hh with hh | hh
    · exact absurd ⟨hfh, hhf⟩ (hbefore h hh)
    · refine (List.mem_cons.1 hh).resolve_left ?_
      rintro rfl
      exact hc.other hg hgh
  have hsub : [g, h].Sublist c.calculated := by
    rw [hcalculated]
    exact ((List.singleton_sublist.2 hafter).cons_cons g).trans (List.sublist_append_right _ _)
  exact ⟨g, h, hsub, hfg, hgh, hhf, hc.younger hsub hgh⟩

end Explains

/-- However fields are created and removed, none of them refers to itself. If one leads back to
itself, there is a field on the way that refers to a younger one, whose id was taken out after the
older one had come in and was then given to the younger one. -/
theorem circle_of_run (hbase : ∀ f ∈ base, f.isCalculated = false) {changes : List Change}
    (hchanges : ∀ f, Change.register f ∉ changes)
    (hrun : (ofBase base).run changes = (log, c)) (hf : f ∈ c.calculated) :
    f.id ∉ f.dependencies ∧
      (c.index.Leads f f.id →
        ∃ g h, [g, h].Sublist c.calculated ∧ c.index.Leads f g.id ∧ h.id ∈ g.dependencies ∧
          c.index.Leads h f.id ∧ ReplacedSince log g h) := by
  have hc := (Explains.start hbase).run hchanges
  rw [hrun, List.nil_append] at hc
  exact ⟨hc.other hf, hc.exists_replaced hf⟩

/-- A field, a second one that refers to it, and in place of the first one a third one with its id,
which refers to the second. -/
def circle : List Change :=
  [.create "a" "A" "TRUE", .create "b" "B" "[A]", .remove "a", .create "a" "A" "[B]"]

def summed (id displayName formula : String) (e : Formula.Expr) : Field :=
  ⟨id, displayName, .number, some .sum, some ⟨formula, e⟩⟩

def firstA : Field := summed "a" "A" "TRUE" (.boolean true)

def onlyB : Field := summed "b" "B" "[A]" (.field "a")

def secondA : Field := summed "a" "A" "[B]" (.field "b")

def circleLog : Log :=
  [(.create "a" "A" "TRUE", .ok (.field firstA)), (.create "b" "B" "[A]", .ok (.field onlyB)),
    (.remove "a", .ok (.field firstA)), (.create "a" "A" "[B]", .ok (.field secondA))]

def circleCatalog : Catalog := ⟨[], [onlyB, secondA]⟩

theorem run_circle : (ofBase []).run circle = (circleLog, circleCatalog) := by cbv

/-- All four changes succeed, and the last field leads back to itself. -/
theorem circle_leads_back :
    (ofBase []).run circle = (circleLog, circleCatalog) ∧
      ∃ f ∈ circleCatalog.calculated, circleCatalog.index.Leads f f.id := by
  have hread : "b" ∈ secondA.dependencies := by
    rw [Field.mem_dependencies rfl]
    exact List.mem_singleton_self "b"
  have hback : "a" ∈ onlyB.dependencies := by
    rw [Field.mem_dependencies rfl]
    exact List.mem_singleton_self "a"
  exact ⟨run_circle, secondA, by simp [circleCatalog], .through (.read hread) rfl hback⟩

theorem circle_of_run_circle :
    (∀ f ∈ ([] : List Field), f.isCalculated = false) ∧ (∀ f, Change.register f ∉ circle) ∧
    (ofBase []).run circle = (circleLog, circleCatalog) ∧
    secondA ∈ circleCatalog.calculated ∧ secondA.id ∉ secondA.dependencies ∧
      (circleCatalog.index.Leads secondA secondA.id →
        ∃ g h, [g, h].Sublist circleCatalog.calculated ∧
          circleCatalog.index.Leads secondA g.id ∧ h.id ∈ g.dependencies ∧
          circleCatalog.index.Leads h secondA.id ∧ ReplacedSince circleLog g h) := by
  have hbase : ∀ f ∈ ([] : List Field), f.isCalculated = false := nofun
  have hchanges : ∀ f, Change.register f ∉ circle := by simp [circle]
  have hf : secondA ∈ circleCatalog.calculated := by simp [circleCatalog]
  exact ⟨hbase, hchanges, run_circle, hf, circle_of_run hbase hchanges run_circle hf⟩

end Crosstab.Catalog
