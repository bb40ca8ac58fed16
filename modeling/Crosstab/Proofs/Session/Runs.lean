import Crosstab.Proofs.Pivot.DrillDown
import Crosstab.Proofs.Session.Commands
import Crosstab.Proofs.Session.Layout
import Crosstab.Session.Demo

/-!
# Runs of commands

A session runs through commands, some of which fail. No two fields of its catalog ever share an id,
so a field that comes in under a new id, or goes out unused, leaves the report as it is. A layout that
was accepted is therefore accepted from then on, unless a field that it uses is taken out.
-/

namespace Crosstab.Session

open Pivot (Config)

variable {s t : Session} {config : Config}

/-! ### Readings -/

theorem report_of_toConfig (h : s.layout.toConfig s.catalog = .ok config) :
    s.report = .ok ⟨config.compute s.records, config.measures.map (·.id),
      s.layout.expanded.map (config.compute s.records).flatten⟩ := by
  rw [Session.report, h, ofConfig]
  change (ofConfig (Pivot.tabulate s.records config) >>= _) = _
  rw [Pivot.tabulate, (Layout.toConfig_eq_ok_iff.1 h).2]
  rfl

theorem exists_toConfig_of_report {r : Report} (h : s.report = .ok r) :
    ∃ config, s.layout.toConfig s.catalog = .ok config := by
  obtain ⟨config, hconfig, -⟩ := bind_eq_ok.1 h
  exact ⟨config, ofConfig_eq_ok.1 hconfig⟩

theorem drillDown_of_toConfig (h : s.layout.toConfig s.catalog = .ok config) (path : Pivot.Path) :
    s.drillDown path = .ok ((if config.rows.length < path.length then []
      else Pivot.along config.rows path (config.passed (Entry.ofRecords s.records))).map
        (·.record)) := by
  rw [Session.drillDown, h, ofConfig]
  change (ofConfig (Pivot.drillDown s.records config path) >>= _) = _
  rw [Pivot.drillDown_eq (Layout.toConfig_eq_ok_iff.1 h).2]
  rfl

/-- Whatever one session reports, another one reports, with the same records at every path. -/
def Keeps (s t : Session) : Prop :=
  ∀ r, s.report = .ok r → t.report = .ok r ∧
    ∀ path, ∃ rs, s.drillDown path = .ok rs ∧ t.drillDown path = .ok rs

theorem Keeps.refl (s : Session) : s.Keeps s := by
  intro r hr
  obtain ⟨config, hconfig⟩ := exists_toConfig_of_report hr
  exact ⟨hr, fun path => ⟨_, drillDown_of_toConfig hconfig path, drillDown_of_toConfig hconfig path⟩⟩

theorem keeps_of_agrees {c : Catalog} (hs : s.catalog.DistinctIds) (hc : c.DistinctIds)
    (h : ∀ config, s.layout.toConfig s.catalog = .ok config → s.layout.Agrees s.catalog c) :
    s.Keeps { s with catalog := c } := by
  intro r hr
  obtain ⟨config, hconfig⟩ := exists_toConfig_of_report hr
  obtain ⟨hconfig', hcompute⟩ :=
    Layout.toConfig_of_agrees hs hc hconfig (h config hconfig)
  have hreport' := report_of_toConfig (s := { s with catalog := c }) hconfig'
  constructor
  · rw [report_of_toConfig hconfig] at hr
    rw [hreport', hcompute]
    exact hr
  · intro path
    refine ⟨_, drillDown_of_toConfig hconfig path, ?_⟩
    exact drillDown_of_toConfig (s := { s with catalog := c }) hconfig' path

theorem keeps_addCalculated (hs : s.catalog.DistinctIds) {id : FieldId} (name formula : String)
    (hid : id ∉ s.layout.names) : s.Keeps ((Command.addCalculated id name formula).act s).2 := by
  have heffect := effect_act (.addCalculated id name formula) s
  generalize ((Command.addCalculated id name formula).act s).2 = t at heffect ⊢
  cases heffect with
  | none => exact .refl s
  | added _ _ hreg =>
    exact keeps_of_agrees hs (hs.register hreg) fun _ hconfig =>
      Layout.agrees_of_register hs hconfig hreg hid

theorem keeps_removeCalculated (hs : s.catalog.DistinctIds) {id : FieldId}
    (hid : ¬ s.layout.Uses s.catalog id) : s.Keeps ((Command.removeCalculated id).act s).2 := by
  have heffect := effect_act (.removeCalculated id) s
  generalize ((Command.removeCalculated id).act s).2 = t at heffect ⊢
  cases heffect with
  | none => exact .refl s
  | removed hrem =>
    exact keeps_of_agrees hs (hs.remove hrem) fun _ _ => Layout.agrees_of_remove hs hrem hid

/-! ### Runs -/

inductive Run (allowed : Session → Command → Prop) (s : Session) : Session → Prop
  | start : Run allowed s s
  | step {t : Session} (h : Run allowed s t) (cmd : Command) (hcmd : allowed t cmd) :
    Run allowed s (cmd.act t).2

def Reachable (s : Session) : Prop := Run (fun _ _ => True) .new s

/-- A command takes no field out that the layout uses, and no new field has an id that is a name in
the layout. -/
def Spares (s : Session) : Command → Prop
  | .addCalculated id _ _ => id ∉ s.layout.names
  | .removeCalculated id =>
    ∀ f t, s.removeCalculated id = .ok (f, t) → ¬ s.layout.Uses s.catalog id
  | _ => True

theorem Effect.distinctIds {cmd : Command} (h : Effect s cmd t) (hs : s.catalog.DistinctIds) :
    t.catalog.DistinctIds := by
  cases h with
  | none | loaded | configured => exact hs
  | added _ _ hreg => exact hs.register hreg
  | removed hrem => exact hs.remove hrem

theorem Run.distinctIds {allowed : Session → Command → Prop} (h : Run allowed s t)
    (hs : s.catalog.DistinctIds) : t.catalog.DistinctIds := by
  induction h with
  | start => exact hs
  | step _ cmd _ ih => exact (effect_act cmd _).distinctIds ih

theorem Effect.accepted {cmd : Command} (h : Effect s cmd t) (hcmd : s.Spares cmd)
    (hs : s.catalog.DistinctIds) (hconfig : s.layout.toConfig s.catalog = .ok config) :
    ∃ config', t.layout.toConfig t.catalog = .ok config' := by
  cases h with
  | none | loaded => exact ⟨config, hconfig⟩
  | added _ _ hreg =>
    have hagrees := Layout.agrees_of_register hs hconfig hreg hcmd
    exact ⟨_, (Layout.toConfig_of_agrees hs (hs.register hreg) hconfig hagrees).1⟩
  | @removed id f c hrem =>
    have hremove : s.removeCalculated id = .ok (f, { s with catalog := c }) := by
      rw [Session.removeCalculated, hrem]
      rfl
    have hagrees := Layout.agrees_of_remove hs hrem (hcmd f _ hremove)
    exact ⟨_, (Layout.toConfig_of_agrees hs (hs.remove hrem) hconfig hagrees).1⟩
  | configured hconfig' => exact ⟨_, hconfig'⟩

theorem Run.accepted (h : Run Spares s t) (hs : s.catalog.DistinctIds)
    (hconfig : s.layout.toConfig s.catalog = .ok config) :
    ∃ config', t.layout.toConfig t.catalog = .ok config' := by
  induction h with
  | start => exact ⟨config, hconfig⟩
  | step hrun cmd hcmd ih =>
    obtain ⟨_, hconfig'⟩ := ih
    exact (effect_act cmd _).accepted hcmd (hrun.distinctIds hs) hconfig'

theorem toConfig_of_configure {l : Layout} {a : Answer}
    (h : (Command.configure l).act s = (.ok a, t)) :
    ∃ config, l.toConfig s.catalog = .ok config ∧ t = { s with layout := l } := by
  rw [act_eq, Command.outcome] at h
  cases hout : s.configure l with
  | error e =>
    rw [hout] at h
    cases h
  | ok t' =>
    rw [hout] at h
    cases h
    exact configure_eq_ok hout

/-- In every session that commands lead to: a command that fails changes nothing; a new field under
an id that is no name in the layout leaves the report and all drill-downs as they are, and so does
taking out a field that the layout does not use; and a layout that has been accepted has a report
from then on, until a field it uses is taken out. -/
theorem session_stable (hs : Reachable s) :
    (∀ cmd cause t, Command.act cmd s = (.error cause, t) → t = s) ∧
    (∀ id name formula, id ∉ s.layout.names →
      s.Keeps ((Command.addCalculated id name formula).act s).2) ∧
    (∀ id, ¬ s.layout.Uses s.catalog id → s.Keeps ((Command.removeCalculated id).act s).2) ∧
    ∀ l a t, (Command.configure l).act s = (.ok a, t) →
      ∀ u, Run Spares t u → ∃ r, u.report = .ok r := by
  have hdistinct : s.catalog.DistinctIds := hs.distinctIds Catalog.distinctIds_financial
  refine ⟨fun cmd cause t => eq_of_act_eq_error, fun id name formula =>
    keeps_addCalculated hdistinct name formula, fun id => keeps_removeCalculated hdistinct, ?_⟩
  intro l a t h u hu
  obtain ⟨config, hconfig, rfl⟩ := toConfig_of_configure h
  obtain ⟨config', hconfig'⟩ := hu.accepted hdistinct hconfig
  exact ⟨_, report_of_toConfig hconfig'⟩

def defaultConfig : Config where
  rows := [.base "dataPrevisao" "Data de Previsão" .date none]
  column := some (.base "tipo" "Tipo" .string none)
  measures := [.base "valorConta" "Valor da Conta" .number (some .sum),
    .base "aPagarReceber" "A Pagar ou Receber" .number (some .sum)]
  filters := []
  references := Catalog.financial.fields

theorem toConfig_defaultLayout : defaultLayout.toConfig .financial = .ok defaultConfig := by
  refine Layout.toConfig_eq_ok_iff.2 ⟨⟨rfl, rfl, rfl, rfl, rfl⟩, ?_⟩
  exact Config.validate_of_base (by decide) (by decide)

def demoSession : Session := new.load demoRecords

theorem demoSession_stable :
    Reachable demoSession ∧ (∃ r, demoSession.report = .ok r) ∧
    (∀ cmd cause t, Command.act cmd demoSession = (.error cause, t) → t = demoSession) ∧
    (∀ id name formula, id ∉ defaultLayout.names →
      demoSession.Keeps ((Command.addCalculated id name formula).act demoSession).2) ∧
    (∀ id, ¬ defaultLayout.Uses .financial id →
      demoSession.Keeps ((Command.removeCalculated id).act demoSession).2) ∧
    ∀ l a t, (Command.configure l).act demoSession = (.ok a, t) →
      ∀ u, Run Spares t u → ∃ r, u.report = .ok r := by
  have hdemo : Reachable demoSession := .step .start (.load demoRecords) trivial
  exact ⟨hdemo, ⟨_, report_of_toConfig (s := demoSession) toConfig_defaultLayout⟩,
    session_stable hdemo⟩

end Crosstab.Session
