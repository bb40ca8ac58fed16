import Crosstab.Field.Catalog
import Crosstab.Proofs.Except
import Crosstab.Proofs.Lookup
import Mathlib.Data.List.Basic
import Mathlib.Data.List.Infix

/-!
# Changes of a catalog

What a field needs to be registered or taken out, and what the catalog is afterwards. A field that
comes in stands behind all others, so it takes no name away from them; a field that goes out gives
back its own names only.
-/

namespace Crosstab.Catalog
variable {c c' : Catalog} {f : Field} {id : FieldId}

theorem hasSeparator_eq_true_iff {cs : List Char} :
    hasSeparator cs = true ↔ [':', ':'] <:+: cs := by
  fun_induction hasSeparator cs with
  | case1 cs => exact iff_of_true rfl (List.prefix_append [':', ':'] cs).isInfix
  | case2 d cs hne ih =>
    rw [ih, List.infix_cons_iff]
    refine (or_iff_right ?_).symm
    rintro ⟨rest, hrest⟩
    obtain ⟨hd, hcs⟩ := List.cons.inj hrest
    exact hne rest hd.symm hcs.symm
  | case3 => exact iff_of_false Bool.false_ne_true (by simp)

theorem register_eq_ok_iff :
    c.register f = .ok c' ↔
      (f.isCalculated = true ∧ hasSeparator f.id.toList = false ∧ c.get? f.id = none ∧
        ∀ g ∈ c.fields, g.displayName ≠ f.displayName) ∧
      c' = { c with calculated := c.calculated ++ [f] } := by
  rw [register]
  split_ifs with hcalc hsep hid hname
  · simp [hcalc]
  · simp [hsep]
  · simp [Option.isSome_iff_ne_none.1 hid]
  · obtain ⟨g, hg, hgf⟩ := List.any_eq_true.1 hname
    refine iff_of_false nofun ?_
    rintro ⟨⟨-, -, -, hfresh⟩, -⟩
    exact hfresh g hg (by simpa using hgf)
  · have hfresh : ∀ g ∈ c.fields, g.displayName ≠ f.displayName := by simpa using hname
    rw [Except.ok.injEq, eq_comm]
    refine (and_iff_right ⟨by simpa using hcalc, by simpa using hsep, ?_, hfresh⟩).symm
    simpa using hid

theorem fields_of_register (h : c.register f = .ok c') : c'.fields = c.fields ++ [f] := by
  obtain ⟨-, rfl⟩ := register_eq_ok_iff.1 h
  exact (List.append_assoc _ _ _).symm

theorem get?_of_register (h : c.register f = .ok c') : c'.get? f.id = some f := by
  obtain ⟨⟨-, -, hid, -⟩, -⟩ := register_eq_ok_iff.1 h
  have hold : c.fields.find? (·.id = f.id) = none := hid
  rw [get?, fields_of_register h, List.find?_append, hold, Option.none_or,
    List.find?_cons_of_pos (by simp)]

theorem calculated_eq_ok {resolve : String → Option FieldId} {name formula : String}
    (h : Field.calculated id name resolve formula = .ok f) :
    f.id = id ∧ f.displayName = name := by
  rw [Field.calculated] at h
  split at h
  · obtain rfl := Except.ok.inj h
    exact ⟨rfl, rfl⟩
  · cases h

theorem create_of_calculated {name formula : String}
    (h : Field.calculated id name c.resolve formula = .ok f) :
    c.create id name formula = (c.register f).map fun c' => (f, c') := by
  have hcreate : c.create id name formula = c.register f >>= fun c' => .ok (f, c') := by
    rw [create, h]
    rfl
  rw [hcreate]
  cases c.register f <;> rfl

theorem create_eq_ok {name formula : String} (h : c.create id name formula = .ok (f, c')) :
    f.id = id ∧ f.displayName = name ∧ c.register f = .ok c' := by
  obtain ⟨g, hg, h⟩ := bind_eq_ok.1 h
  obtain ⟨d, hd, h⟩ := bind_eq_ok.1 h
  obtain ⟨rfl, rfl⟩ := Prod.mk.inj (Except.ok.inj h)
  obtain ⟨hid, hname⟩ := calculated_eq_ok hg
  exact ⟨hid, hname, hd⟩

theorem remove_eq_ok_iff :
    c.remove id = .ok (f, c') ↔
      c.calculated.find? (·.id = id) = some f ∧
        c' = { c with calculated := c.calculated.eraseP (·.id = id) } := by
  rw [remove]
  cases hfind : c.calculated.find? (·.id = id) with
  | some g => simp [eq_comm]
  | none =>
    refine iff_of_false ?_ nofun
    split_ifs <;> exact nofun

/-! ### Ids -/

def DistinctIds (c : Catalog) : Prop := (c.fields.map (·.id)).Nodup

def index (c : Catalog) : FieldIndex := ⟨c.fields⟩

theorem distinctIds_financial : financial.DistinctIds := by
  rw [DistinctIds]
  decide

theorem DistinctIds.register (hc : c.DistinctIds) (h : c.register f = .ok c') :
    c'.DistinctIds := by
  obtain ⟨⟨-, -, hid, -⟩, -⟩ := register_eq_ok_iff.1 h
  have hnew : f.id ∉ c.fields.map (·.id) := by
    intro hmem
    obtain ⟨g, hg, hgf⟩ := List.mem_map.1 hmem
    exact List.find?_eq_none.1 hid g hg (by simpa using hgf)
  rw [DistinctIds, fields_of_register h, List.map_append]
  refine List.nodup_append.2 ⟨hc, List.nodup_singleton _, ?_⟩
  rintro i hi j hj rfl
  exact hnew ((List.mem_singleton.1 hj : i = f.id) ▸ hi)

theorem fields_of_remove (hc : c.DistinctIds) (h : c.remove id = .ok (f, c')) :
    c'.fields = c.fields.filter (·.id ≠ id) := by
  obtain ⟨hfind, rfl⟩ := remove_eq_ok_iff.1 h
  have hf : f ∈ c.calculated := List.mem_of_find?_eq_some hfind
  have hid : f.id = id := by simpa using List.find?_some hfind
  have hboth : (c.base.map (·.id) ++ c.calculated.map (·.id)).Nodup := List.map_append ▸ hc
  obtain ⟨-, hcalculated, hdisjoint⟩ := List.nodup_append.1 hboth
  have hbase : c.base.filter (·.id ≠ id) = c.base := by
    apply List.filter_eq_self.2
    intro g hg
    have hne := hdisjoint g.id (List.mem_map_of_mem hg) f.id (List.mem_map_of_mem hf)
    simpa [hid] using hne
  rw [fields, fields, List.filter_append, hbase, eraseP_key_eq_filter hcalculated]

theorem DistinctIds.remove (hc : c.DistinctIds) (h : c.remove id = .ok (f, c')) :
    c'.DistinctIds := by
  rw [DistinctIds, fields_of_remove hc h]
  exact hc.sublist (List.filter_sublist.map _)

theorem index_get?_eq_some_iff (hc : c.DistinctIds) :
    c.index.get? id = some f ↔ f ∈ c.fields ∧ f.id = id := by
  have hreverse : (c.fields.reverse.map (·.id)).Nodup := by
    rw [List.map_reverse]
    exact List.nodup_reverse.2 hc
  rw [index, FieldIndex.get?, find?_key_eq_some_iff hreverse, List.mem_reverse]

/-- Without the field of one id, everything under other ids stays. -/
theorem index_get?_of_ne (h : c'.fields = c.fields.filter (·.id ≠ id)) {id' : FieldId}
    (hid : id' ≠ id) : c'.index.get? id' = c.index.get? id' := by
  have hfilter : (c.fields.filter (·.id ≠ id)).filter (·.id = id') =
      c.fields.filter (·.id = id') := by
    rw [List.filter_filter]
    apply List.filter_congr
    intro g _
    by_cases hg : g.id = id' <;> simp [hg, hid]
  rw [index, index, FieldIndex.get?, FieldIndex.get?, ← List.getLast?_filter,
    ← List.getLast?_filter, h, hfilter]

theorem filter_of_register (h : c.register f = .ok c') :
    c.fields = c'.fields.filter (·.id ≠ f.id) := by
  obtain ⟨⟨-, -, hid, -⟩, -⟩ := register_eq_ok_iff.1 h
  have hold : c.fields.filter (·.id ≠ f.id) = c.fields := by
    apply List.filter_eq_self.2
    intro g hg
    simpa using List.find?_eq_none.1 hid g hg
  rw [fields_of_register h, List.filter_append, hold, List.filter_cons_of_neg (by simp),
    List.filter_nil, List.append_nil]

/-! ### Names -/

/-- A name means a field to a layout: the field with that id or, for want of one, the first with that
display name. -/
def Means (c : Catalog) (name : String) (f : Field) : Prop :=
  (c.get? name).or (c.find? name) = some f

theorem means_iff {name : String} :
    c.Means name f ↔ c.get? name = some f ∨
      c.get? name = none ∧ c.fields.find? (·.displayName = name) = some f := by
  rw [Means, find?]
  cases c.get? name <;> simp

theorem Means.mem {name : String} (h : c.Means name f) : f ∈ c.fields := by
  rcases means_iff.1 h with hid | ⟨-, hname⟩
  · exact List.mem_of_find?_eq_some hid
  · exact List.mem_of_find?_eq_some hname

/-- A name that is not the id of a new field means what it meant, since the new field stands last. -/
theorem Means.register {name : String} {g : Field} (h : c.Means name g)
    (hreg : c.register f = .ok c') (hname : name ≠ f.id) : c'.Means name g := by
  have hget : c'.get? name = c.get? name := by
    rw [get?, get?, fields_of_register hreg, List.find?_append,
      List.find?_cons_of_neg (by simpa using hname.symm), List.find?_nil, Option.or_none]
  apply means_iff.2
  rw [hget]
  rcases means_iff.1 h with hid | ⟨hnone, hdisplay⟩
  · exact .inl hid
  · refine .inr ⟨hnone, ?_⟩
    rw [fields_of_register hreg, List.find?_append, hdisplay, Option.some_or]

/-- A name means what it meant if the field that it means stays. -/
theorem Means.remove {name : String} {g : Field} (h : c.Means name g) (hc : c.DistinctIds)
    (hrem : c.remove id = .ok (f, c')) (hg : g.id ≠ id) : c'.Means name g := by
  apply means_iff.2
  rw [get?, fields_of_remove hc hrem]
  rcases means_iff.1 h with hid | ⟨hnone, hdisplay⟩
  · exact .inl (find?_filter_of_find? hid (by simpa using hg))
  · refine .inr ⟨?_, find?_filter_of_find? hdisplay (by simpa using hg)⟩
    apply List.find?_eq_none.2
    intro g' hg'
    exact List.find?_eq_none.1 hnone g' (List.mem_filter.1 hg').1

end Crosstab.Catalog
