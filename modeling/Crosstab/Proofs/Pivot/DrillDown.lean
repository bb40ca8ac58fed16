import Crosstab.Proofs.Lookup
import Crosstab.Proofs.Pivot.RowTree

/-!
# Drilling down

The records of a row come from the table or, without one, from a filter over the records that take
part. Rows that stand side by side have different keys, so a look-up by path finds the row that
stands there and no other, and the two ways agree at every path, whether there is a row or not.
-/

namespace Crosstab.Pivot

structure SiblingsDiffer (rows : List Row) : Prop where
  top : (rows.map (·.key)).Nodup
  below {path : Path} {r : Row} : RowAt rows path r → (r.children.map (·.key)).Nodup

theorem SiblingsDiffer.children {rows : List Row} (h : SiblingsDiffer rows) {r : Row}
    (hr : r ∈ rows) : SiblingsDiffer r.children :=
  ⟨h.below (.here hr), fun hs => h.below (.under hr hs)⟩

theorem RowTree.siblingsDiffer {fs : List Field} {es : List Entry} {rows : List Row}
    (h : RowTree fs es rows) : SiblingsDiffer rows :=
  ⟨h.top.nodup, fun hr => (h.below hr).nodup⟩

theorem findIn_cons_cons (rows : List Row) (key key' : String) (path : Path) :
    Table.findIn rows (key :: key' :: path) =
      (rows.find? (·.key = key)).bind fun r => Table.findIn r.children (key' :: path) := by
  simp only [Table.findIn]
  cases rows.find? (·.key = key) <;> rfl

/-- A look-up finds the row that stands at the path. -/
theorem findIn_eq_some_iff {rows : List Row} (h : SiblingsDiffer rows) {path : Path} {r : Row} :
    Table.findIn rows path = some r ↔ RowAt rows path r := by
  induction path generalizing rows with
  | nil => exact iff_of_false nofun fun hr => hr.ne_nil rfl
  | cons key path ih =>
    rw [rowAt_cons]
    cases path with
    | nil =>
      rw [Table.findIn, find?_key_eq_some_iff h.top]
      constructor
      · rintro ⟨hr, hkey⟩
        exact ⟨r, hr, hkey, .inl ⟨rfl, rfl⟩⟩
      · rintro ⟨s, hs, hkey, ⟨-, rfl⟩ | hnil⟩
        · exact ⟨hs, hkey⟩
        · exact absurd rfl hnil.ne_nil
    | cons key' path =>
      rw [findIn_cons_cons, Option.bind_eq_some_iff]
      constructor
      · rintro ⟨s, hs, hr⟩
        obtain ⟨hmem, hkey⟩ := (find?_key_eq_some_iff h.top).1 hs
        exact ⟨s, hmem, hkey, .inr ((ih (h.children hmem)).1 hr)⟩
      · rintro ⟨s, hmem, hkey, ⟨hnil, -⟩ | hr⟩
        · cases hnil
        · exact ⟨s, (find?_key_eq_some_iff h.top).2 ⟨hmem, hkey⟩, (ih (h.children hmem)).2 hr⟩

theorem drillDown_eq {c : Config} (hc : c.validate = .ok ()) (records : List Record)
    (path : Path) :
    drillDown records c path = .ok (if c.rows.length < path.length then []
      else along c.rows path (c.passed (Entry.ofRecords records))) := by
  rw [drillDown, hc]
  by_cases hlong : c.rows.length < path.length
  · rw [if_pos hlong, if_pos hlong]
    rfl
  · rw [if_neg hlong, if_neg hlong]
    rfl

/-- The records of the row at a path of a tree, and none where there is no row. -/
theorem RowTree.getD_entries {fs : List Field} {es : List Entry} {rows : List Row}
    (h : RowTree fs es rows) {path : Path} (hpath : path ≠ []) :
    ((Table.findIn rows path).map (·.entries)).getD [] =
      if fs.length < path.length then [] else along fs path es := by
  cases hfind : Table.findIn rows path with
  | some r =>
    have hr := (findIn_eq_some_iff h.siblingsDiffer).1 hfind
    obtain ⟨-, hlen, -⟩ := (h.exists_iff path).1 ⟨r, hr⟩
    rw [if_neg (Nat.not_lt.2 hlen)]
    exact h.entries hr
  | none =>
    have hnone : ¬ ∃ r, RowAt rows path r := by
      rintro ⟨r, hr⟩
      rw [(findIn_eq_some_iff h.siblingsDiffer).2 hr] at hfind
      cases hfind
    split_ifs with hlong
    · rfl
    · apply Eq.symm
      apply List.filter_eq_nil_iff.2
      intro e he hon
      exact hnone ((h.exists_iff path).2 ⟨hpath, Nat.not_lt.1 hlong, e, he, hon⟩)

/-- Drilling down without the table gives the records of the row at the path, in order and with
their positions, and none where the table has no row. The empty path gives every record that takes
part. -/
theorem tabulate_drillDown (records : List Record) (c : Config) (hc : c.validate = .ok ()) :
    ∃ t, tabulate records c = .ok t ∧
      (∀ path ≠ [], drillDown records c path = .ok ((t.drillDown path).getD [])) ∧
      drillDown records c [] = .ok (c.passed (Entry.ofRecords records)) ∧
      t.recordCount = (c.passed (Entry.ofRecords records)).length := by
  have htree := rowTree_rowsBy c c.fieldIndex (c.keyed_rows (Entry.ofRecords records))
    (positions_passed c records)
  refine ⟨c.compute records, by rw [tabulate, hc]; rfl, ?_, ?_, rfl⟩
  · intro path hpath
    rw [drillDown_eq hc, Table.drillDown, Table.findRow, Config.compute,
      htree.getD_entries hpath]
  · have hshort : ¬ c.rows.length < ([] : Path).length := Nat.not_lt_zero _
    rw [drillDown_eq hc, if_neg hshort, along_nil]

theorem ledger_drillDown :
    ledgerConfig.validate = .ok () ∧ ∃ t, tabulate ledger ledgerConfig = .ok t ∧
      (∀ path ≠ [], drillDown ledger ledgerConfig path = .ok ((t.drillDown path).getD [])) ∧
      drillDown ledger ledgerConfig [] =
        .ok (ledgerConfig.passed (Entry.ofRecords ledger)) ∧
      t.recordCount = (ledgerConfig.passed (Entry.ofRecords ledger)).length :=
  ⟨by cbv, tabulate_drillDown ledger ledgerConfig (by cbv)⟩

end Crosstab.Pivot
