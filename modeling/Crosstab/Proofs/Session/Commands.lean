import Crosstab.Proofs.Field.Catalog
import Crosstab.Session.Basic

/-!
# Commands succeed as a whole or not at all

Step by step, a command comes to what its function of the session comes to; where that fails, nothing
was written. Only the look-up of a new field comes after a write, and it finds the field.
-/

namespace Crosstab.Session

def Command.outcome (s : Session) : Command → Except CommandError (Answer × Session)
  | load records => .ok (.count records.length, s.load records)
  | fields => .ok (.fields s.catalog.fields, s)
  | addCalculated id name formula =>
    (s.addCalculated id name formula).map fun (f, t) => (.field f, t)
  | removeCalculated id => (s.removeCalculated id).map fun (f, t) => (.field f, t)
  | validateFormula formula => .ok (.validation (s.validateFormula formula), s)
  | configure l => (s.configure l).map fun t => (.done, t)
  | layout => .ok (.layout s.layout, s)
  | report => s.report.map fun r => (.report r, s)
  | drillDown path => (s.drillDown path).map fun rs => (.records rs, s)

/-- An outcome with the session after it, which is the one before it if there is an error. -/
def settle (s : Session) :
    Except CommandError (Answer × Session) → Except CommandError Answer × Session
  | .ok (a, t) => (.ok a, t)
  | .error e => (.error e, s)

variable {s t : Session}

section
variable {α β : Type}

theorem get_bind (next : Session → Action β) (s : Session) :
    (get >>= next : Action β) s = next s s := rfl

theorem of_ok_bind (a : α) (next : α → Action β) (s : Session) :
    (Action.of (.ok a) >>= next) s = next a s := rfl

theorem ofConfig_eq_ok {x : Except ConfigError α} {a : α} : ofConfig x = .ok a ↔ x = .ok a := by
  cases x <;> simp [ofConfig]

end

theorem act_addCalculated (id : FieldId) (name formula : String) (s : Session) :
    (Command.addCalculated id name formula).act s =
      settle s (Command.outcome s (.addCalculated id name formula)) := by
  rw [Command.act, Command.outcome, Session.addCalculated]
  by_cases hname : Text.trim name = ""
  · simp only [if_pos hname]
    rfl
  simp only [if_neg hname]
  rw [get_bind]
  cases hf : Field.calculated id (Text.trim name) s.catalog.resolve (Text.trim formula) with
  | error e =>
    rw [Catalog.create, hf]
    rfl
  | ok f =>
    obtain ⟨rfl, -⟩ := Catalog.calculated_eq_ok hf
    rw [ofConfig, of_ok_bind, Catalog.create_of_calculated hf]
    cases hreg : s.catalog.register f with
    | error e => rfl
    | ok c =>
      rw [ofConfig, of_ok_bind]
      -- the field is written by now, so the look-up must not fail
      simp only [Catalog.get?_of_register hreg]
      rfl

theorem act_addCalculated_of_create {id : FieldId} {name formula displayName text : String}
    {f : Field} {c : Catalog} (hname : Text.trim name = displayName) (hne : displayName ≠ "")
    (htext : Text.trim formula = text) (h : s.catalog.create id displayName text = .ok (f, c)) :
    (Command.addCalculated id name formula).act s = (.ok (.field f), { s with catalog := c }) := by
  rw [act_addCalculated, Command.outcome, Session.addCalculated, hname, htext]
  simp only [if_neg hne, h]
  rfl

theorem act_eq (cmd : Command) (s : Session) : cmd.act s = settle s (cmd.outcome s) := by
  cases cmd with
  | load records => rfl
  | fields => rfl
  | addCalculated id name formula => exact act_addCalculated id name formula s
  | removeCalculated id =>
    rw [Command.act, get_bind, Command.outcome, Session.removeCalculated]
    cases s.catalog.remove id <;> rfl
  | validateFormula formula => rfl
  | configure l =>
    rw [Command.act, get_bind, Command.outcome, Session.configure]
    cases l.toConfig s.catalog <;> rfl
  | layout => rfl
  | report =>
    rw [Command.act, get_bind, Command.outcome]
    cases s.report <;> rfl
  | drillDown path =>
    rw [Command.act, get_bind, Command.outcome]
    cases s.drillDown path <;> rfl

theorem eq_of_act_eq_error {cmd : Command} {cause : CommandError}
    (h : cmd.act s = (.error cause, t)) : t = s := by
  rw [act_eq] at h
  cases hout : cmd.outcome s with
  | ok p => rw [hout] at h; cases h
  | error e => rw [hout] at h; cases h; rfl

inductive Effect (s : Session) : Command → Session → Prop
  | none (cmd : Command) : Effect s cmd s
  | loaded (records : List Record) : Effect s (.load records) (s.load records)
  | added {f : Field} {c : Catalog} (name formula : String) (h : s.catalog.register f = .ok c) :
    Effect s (.addCalculated f.id name formula) { s with catalog := c }
  | removed {id : FieldId} {f : Field} {c : Catalog} (h : s.catalog.remove id = .ok (f, c)) :
    Effect s (.removeCalculated id) { s with catalog := c }
  | configured {l : Layout} {config : Pivot.Config} (h : l.toConfig s.catalog = .ok config) :
    Effect s (.configure l) { s with layout := l }

theorem addCalculated_eq_ok {id : FieldId} {name formula : String} {f : Field}
    (h : s.addCalculated id name formula = .ok (f, t)) :
    f.id = id ∧ f.displayName = Text.trim name ∧
      ∃ c, s.catalog.register f = .ok c ∧ t = { s with catalog := c } := by
  rw [Session.addCalculated] at h
  by_cases hname : Text.trim name = ""
  · simp only [if_pos hname] at h
    cases h
  simp only [if_neg hname] at h
  obtain ⟨⟨g, c⟩, hcreate, h⟩ := bind_eq_ok.1 h
  obtain ⟨rfl, rfl⟩ := Prod.mk.inj (Except.ok.inj h)
  obtain ⟨hid, hdisplay, hreg⟩ := Catalog.create_eq_ok (ofConfig_eq_ok.1 hcreate)
  exact ⟨hid, hdisplay, c, hreg, rfl⟩

theorem removeCalculated_eq_ok {id : FieldId} {f : Field}
    (h : s.removeCalculated id = .ok (f, t)) :
    ∃ c, s.catalog.remove id = .ok (f, c) ∧ t = { s with catalog := c } := by
  obtain ⟨⟨g, c⟩, hremove, h⟩ := bind_eq_ok.1 h
  obtain ⟨rfl, rfl⟩ := Prod.mk.inj (Except.ok.inj h)
  exact ⟨c, ofConfig_eq_ok.1 hremove, rfl⟩

theorem configure_eq_ok {l : Layout} (h : s.configure l = .ok t) :
    ∃ config, l.toConfig s.catalog = .ok config ∧ t = { s with layout := l } := by
  obtain ⟨config, hconfig, h⟩ := bind_eq_ok.1 h
  exact ⟨config, ofConfig_eq_ok.1 hconfig, (Except.ok.inj h).symm⟩

theorem effect_act (cmd : Command) (s : Session) : Effect s cmd (cmd.act s).2 := by
  rw [act_eq]
  cases hout : cmd.outcome s with
  | error e => exact .none cmd
  | ok p =>
    obtain ⟨a, t⟩ := p
    cases cmd with
    | load records =>
      obtain ⟨-, rfl⟩ := Prod.mk.inj (Except.ok.inj hout)
      exact .loaded records
    | addCalculated id name formula =>
      obtain ⟨⟨f, t⟩, hadd, hp⟩ := map_eq_ok.1 hout
      obtain ⟨rfl, -, c, hreg, rfl⟩ := addCalculated_eq_ok hadd
      obtain ⟨-, rfl⟩ := Prod.mk.inj hp
      exact .added name formula hreg
    | removeCalculated id =>
      obtain ⟨⟨f, t⟩, hremove, hp⟩ := map_eq_ok.1 hout
      obtain ⟨c, hc, rfl⟩ := removeCalculated_eq_ok hremove
      obtain ⟨-, rfl⟩ := Prod.mk.inj hp
      exact .removed hc
    | configure l =>
      obtain ⟨t, hconfigure, hp⟩ := map_eq_ok.1 hout
      obtain ⟨config, hconfig, rfl⟩ := configure_eq_ok hconfigure
      obtain ⟨-, rfl⟩ := Prod.mk.inj hp
      exact .configured hconfig
    | fields | validateFormula formula | layout =>
      obtain ⟨-, rfl⟩ := Prod.mk.inj (Except.ok.inj hout)
      exact .none _
    | report =>
      obtain ⟨r, -, hp⟩ := map_eq_ok.1 hout
      obtain ⟨-, rfl⟩ := Prod.mk.inj hp
      exact .none _
    | drillDown path =>
      obtain ⟨rs, -, hp⟩ := map_eq_ok.1 hout
      obtain ⟨-, rfl⟩ := Prod.mk.inj hp
      exact .none _

end Crosstab.Session
