import Crosstab.Proofs.Field.Catalog

/-!
# Runs of changes

A change succeeds as a whole or leaves the catalog as it was; the look-up that follows the
registration of a created field cannot fail. So the names of a catalog stay distinct however it is
changed, every look-up by id finds the same field, and the calculated fields are those of the log
that were never removed afterwards, in the order in which they were registered.
-/

namespace Crosstab.Catalog

variable {base : List Field} {c c' : Catalog} {f : Field} {id : FieldId}

/-! ### One change -/

namespace Change

section
variable {α β : Type}

theorem get_bind (next : Catalog → Action β) (c : Catalog) :
    (get >>= next : Action β) c = next c c := rfl

theorem of_bind (x : Except ConfigError α) (next : α → Action β) (c : Catalog) :
    (Action.of x >>= next) c = match x with
      | .ok a => next a c
      | .error e => (.error e, c) := by
  cases x <;> rfl

theorem registering_bind (f : Field) (next : Unit → Action β) (c : Catalog) :
    (registering f >>= next) c = match c.register f with
      | .ok c' => next () c'
      | .error e => (.error e, c) := by
  rw [registering, bind_assoc, get_bind, bind_assoc, of_bind]
  cases c.register f <;> rfl

end

theorem act_register (f : Field) (c : Catalog) :
    (register f).act c = match c.register f with
      | .ok c' => (.ok .done, c')
      | .error e => (.error e, c) := by
  rw [act, registering_bind]
  rfl

theorem act_create (id : FieldId) (displayName formula : String) (c : Catalog) :
    (create id displayName formula).act c = match c.create id displayName formula with
      | .ok (f, c') => (.ok (.field f), c')
      | .error e => (.error e, c) := by
  rw [act, get_bind, of_bind]
  cases hf : Field.calculated id displayName c.resolve formula with
  | error e =>
    rw [Catalog.create, hf]
    rfl
  | ok f =>
    dsimp only
    rw [registering_bind, create_of_calculated hf]
    cases hreg : c.register f with
    | error e => rfl
    | ok c' =>
      dsimp only
      -- the field is written by now, so the look-up must not fail
      rw [get_bind, get?_of_register hreg]
      rfl

theorem act_remove (id : FieldId) (c : Catalog) :
    (remove id).act c = match c.remove id with
      | .ok (f, c') => (.ok (.field f), c')
      | .error e => (.error e, c) := by
  rw [act, get_bind, of_bind]
  cases c.remove id <;> rfl

inductive Effect (c : Catalog) : Change → Except ConfigError Answer → Catalog → Prop
  | refused (change : Change) (cause : ConfigError) : Effect c change (.error cause) c
  | registered {f : Field} {c' : Catalog} (h : c.register f = .ok c') :
    Effect c (.register f) (.ok .done) c'
  | created {id : FieldId} {displayName formula : String} {f : Field} {c' : Catalog}
    (hf : Field.calculated id displayName c.resolve formula = .ok f) (h : c.register f = .ok c') :
    Effect c (.create id displayName formula) (.ok (.field f)) c'
  | removed {id : FieldId} {f : Field} {c' : Catalog} (h : c.remove id = .ok (f, c')) :
    Effect c (.remove id) (.ok (.field f)) c'

theorem effect_act (change : Change) (c : Catalog) :
    Effect c change (change.act c).1 (change.act c).2 := by
  cases change with
  | register f =>
    rw [act_register]
    cases hreg : c.register f with
    | error e => exact .refused _ e
    | ok c' => exact .registered hreg
  | create id displayName formula =>
    rw [act_create]
    cases hcreate : c.create id displayName formula with
    | error e => exact .refused _ e
    | ok p =>
      obtain ⟨f, hf, h⟩ := bind_eq_ok.1 hcreate
      obtain ⟨c', hreg, h⟩ := bind_eq_ok.1 h
      obtain rfl := Except.ok.inj h
      exact .created hf hreg
  | remove id =>
    rw [act_remove]
    cases hremove : c.remove id with
    | error e => exact .refused _ e
    | ok p => exact .removed hremove

theorem effect_of_act {change : Change} {a : Except ConfigError Answer}
    (h : change.act c = (a, c')) : Effect c change a c' := by
  have heffect := effect_act change c
  rwa [h] at heffect

/-- An unknown field is no reason for a creation to fail. -/
theorem create_ne_unknownField (id : FieldId) (displayName formula : String) (c : Catalog)
    (name : String) (role : Role) :
    ((create id displayName formula).act c).1 ≠ .error (.unknownField name role) := by
  rw [act_create]
  cases hf : Field.calculated id displayName c.resolve formula with
  | error e =>
    have hcause : ∃ cause, e = .invalidFormula displayName formula cause := by
      rw [Field.calculated] at hf
      split at hf
      · cases hf
      · exact ⟨_, (Except.error.inj hf).symm⟩
    obtain ⟨cause, rfl⟩ := hcause
    have hcreate : c.create id displayName formula =
        .error (.invalidFormula displayName formula cause) := by
      rw [Catalog.create, hf]
      rfl
    simp [hcreate]
  | ok f =>
    rw [create_of_calculated hf, Catalog.register]
    split_ifs <;> simp [Except.map]

end Change

open Change (Effect)

variable {change : Change} {a : Except ConfigError Change.Answer}

/-! ### What changes uphold -/

/-- A catalog over some base fields whose names are distinct and whose other fields are calculated,
with ids that can stand in labels. -/
structure Consistent (base : List Field) (c : Catalog) : Prop where
  base : c.base = base
  ids : c.DistinctIds
  names : (c.fields.map (·.displayName)).Nodup
  calculated {f : Field} (hf : f ∈ c.calculated) :
    f.isCalculated = true ∧ ¬ [':', ':'] <:+: f.id.toList

theorem consistent_ofBase (hids : (base.map (·.id)).Nodup)
    (hnames : (base.map (·.displayName)).Nodup) : (ofBase base).Consistent base := by
  have hfields : (ofBase base).fields = base := List.append_nil base
  refine ⟨rfl, ?_, ?_, nofun⟩
  · rwa [DistinctIds, hfields]
  · rwa [hfields]

theorem Consistent.register (hc : c.Consistent base) (h : c.register f = .ok c') :
    c'.Consistent base := by
  obtain ⟨⟨hcalc, hsep, -, hname⟩, rfl⟩ := register_eq_ok_iff.1 h
  refine ⟨hc.base, hc.ids.register h, ?_, ?_⟩
  · rw [fields_of_register h, List.map_append]
    refine List.nodup_append.2 ⟨hc.names, List.nodup_singleton _, ?_⟩
    intro name hold name' hnew heq
    obtain ⟨g, hg, rfl⟩ := List.mem_map.1 hold
    exact hname g hg (heq.trans (List.mem_singleton.1 hnew))
  · intro g hg
    rcases List.mem_append.1 hg with hg | hg
    · exact hc.calculated hg
    · obtain rfl := List.mem_singleton.1 hg
      rw [← hasSeparator_eq_true_iff, hsep]
      exact ⟨hcalc, Bool.false_ne_true⟩

theorem Consistent.remove (hc : c.Consistent base) (h : c.remove id = .ok (f, c')) :
    c'.Consistent base := by
  have hsub : (c'.fields.map (·.displayName)).Sublist (c.fields.map (·.displayName)) := by
    rw [fields_of_remove hc.ids h]
    exact List.filter_sublist.map _
  have hids := hc.ids.remove h
  obtain ⟨-, rfl⟩ := remove_eq_ok_iff.1 h
  exact ⟨hc.base, hids, hc.names.sublist hsub, fun hg => hc.calculated (List.mem_of_mem_eraseP hg)⟩

theorem Consistent.effect (hc : c.Consistent base) (h : Effect c change a c') :
    c'.Consistent base := by
  cases h with
  | refused => exact hc
  | registered hreg => exact hc.register hreg
  | created _ hreg => exact hc.register hreg
  | removed hremove => exact hc.remove hremove

theorem Consistent.run (hc : c.Consistent base) (changes : List Change) :
    (c.run changes).2.Consistent base := by
  induction changes generalizing c with
  | nil => exact hc
  | cons change changes ih => exact ih (hc.effect (Change.effect_act change c))

/-- The last field with an id is the first one, since there is only one. -/
theorem DistinctIds.index_get? (hc : c.DistinctIds) (id : FieldId) :
    c.index.get? id = c.get? id := by
  apply Option.ext
  intro f
  rw [index_get?_eq_some_iff hc, get?, find?_key_eq_some_iff hc]

/-! ### What is left of the fields that were added -/

def added? : Change × Except ConfigError Change.Answer → Option Field
  | (.register f, .ok _) => some f
  | (.create _ _ _, .ok (.field f)) => some f
  | _ => none

def tookOut (id : FieldId) : Change × Except ConfigError Change.Answer → Bool
  | (.remove id', .ok _) => id = id'
  | _ => false

/-- The fields that were added, in order, without those that were taken out later. -/
def surviving : Log → List Field
  | [] => []
  | entry :: log =>
    ((added? entry).toList.filter fun f => !log.any (tookOut f.id)) ++ surviving log

theorem calculated_of_effect (hc : c.DistinctIds) (h : Effect c change a c') :
    c'.calculated =
      (c.calculated.filter fun f => !tookOut f.id (change, a)) ++ (added? (change, a)).toList := by
  cases h with
  | refused change cause => cases change <;> simp [tookOut, added?]
  | registered hreg | created _ hreg =>
    obtain ⟨-, rfl⟩ := register_eq_ok_iff.1 hreg
    simp [tookOut, added?]
  | removed hremove =>
    obtain ⟨-, rfl⟩ := remove_eq_ok_iff.1 hremove
    have hcalculated : (c.calculated.map (·.id)).Nodup := hc.sublist (by simp [fields])
    simp [tookOut, added?, eraseP_key_eq_filter hcalculated]

theorem calculated_run (hc : c.Consistent base) (changes : List Change) :
    (c.run changes).2.calculated =
      (c.calculated.filter fun f => !(c.run changes).1.any (tookOut f.id)) ++
        surviving (c.run changes).1 := by
  induction changes generalizing c with
  | nil => simp [run, surviving]
  | cons change changes ih =>
    have heffect := Change.effect_act change c
    have hrun : c.run (change :: changes) =
        ((change, (change.act c).1) :: ((change.act c).2.run changes).1,
          ((change.act c).2.run changes).2) := rfl
    rw [hrun]
    dsimp only
    rw [ih (hc.effect heffect), calculated_of_effect hc.ids heffect, List.filter_append,
      List.filter_filter, surviving, List.append_assoc]
    simp only [List.any_cons, Bool.not_or, Bool.and_comm]

theorem fields_run (hids : (base.map (·.id)).Nodup)
    (hnames : (base.map (·.displayName)).Nodup) (changes : List Change) :
    ((ofBase base).run changes).2.fields = base ++ surviving ((ofBase base).run changes).1 := by
  have hstart := consistent_ofBase hids hnames
  rw [fields, (hstart.run changes).base, calculated_run hstart]
  rfl

/-- What holds of a catalog over some base fields after the changes of a log. -/
structure Upholds (base : List Field) (log : Log) (c : Catalog) : Prop where
  consistent : c.Consistent base
  fields : c.fields = base ++ surviving log
  refused {change : Change} {cause : ConfigError} {c' : Catalog} :
    change.act c = (.error cause, c') → c' = c
  created {id : FieldId} {displayName formula : String} {a : Change.Answer} {c' : Catalog} :
    (Change.create id displayName formula).act c = (.ok a, c') →
      ∃ f, Field.calculated id displayName c.resolve formula = .ok f ∧ f.id = id ∧
        f.displayName = displayName ∧ a = .field f ∧ c'.fields = c.fields ++ [f]
  /-- The look-up for the answer never comes to nothing. -/
  found (id : FieldId) (displayName formula name : String) (role : Role) :
    ((Change.create id displayName formula).act c).1 ≠ .error (.unknownField name role)
  index (id : FieldId) : c.index.get? id = c.get? id

/-- However a catalog of base fields with distinct ids and names is changed, its names stay distinct
and its fields are the base fields and then what survives of the ones added; a change that fails
leaves it as it is, and a field that is created comes in behind all others. -/
theorem upholds_run (hids : (base.map (·.id)).Nodup)
    (hnames : (base.map (·.displayName)).Nodup) (changes : List Change) :
    Upholds base ((ofBase base).run changes).1 ((ofBase base).run changes).2 := by
  have hc := (consistent_ofBase hids hnames).run changes
  constructor
  case consistent => exact hc
  case fields => exact fields_run hids hnames changes
  case refused =>
    intro change cause c' h
    cases Change.effect_of_act h
    rfl
  case created =>
    intro id displayName formula a c' h
    cases Change.effect_of_act h with
    | created hf hreg =>
      obtain ⟨hid, hname⟩ := calculated_eq_ok hf
      exact ⟨_, hf, hid, hname, rfl, fields_of_register hreg⟩
  case found =>
    intro id displayName formula
    exact Change.create_ne_unknownField id displayName formula _
  case index => exact hc.ids.index_get?

def revisions : List Change :=
  [.create "calc_1" "Dobro" "[Valor da Conta] * 2", .remove "calc_1",
    .create "calc_2" "Dobro" "[tipo]", .create "calc_3" "Dobro" "1", .remove "tipo"]

theorem upholds_revisions :
    ((financial.base.map (·.id)).Nodup ∧ (financial.base.map (·.displayName)).Nodup) ∧
      Upholds financial.base (financial.run revisions).1 (financial.run revisions).2 := by
  have hids : (financial.base.map (·.id)).Nodup := by decide
  have hnames : (financial.base.map (·.displayName)).Nodup := by decide
  exact ⟨⟨hids, hnames⟩, upholds_run hids hnames revisions⟩

end Crosstab.Catalog
