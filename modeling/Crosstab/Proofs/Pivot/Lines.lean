import Crosstab.Proofs.Pivot.Cells

/-!
# The lines of a table

A line is a row or the totals. The row at a path is made of the entries that the path leads to, and
its cells show the outcomes over them. Every fault names the path of its line: the faults at the path
of a row are its own and then those of its columns, and at a path without a row there are none.
-/

namespace Crosstab.Pivot

/-- Of several lists under distinct keys, only the one that is not empty counts. -/
theorem flatMap_eq_of_nodup {α β : Type} [DecidableEq α] {as : List α} (has : as.Nodup) {a : α}
    {g : α → List β} (hg : ∀ b ≠ a, g b = []) : as.flatMap g = if a ∈ as then g a else [] := by
  induction as with
  | nil => rfl
  | cons b as ih =>
    obtain ⟨hb, has⟩ := List.nodup_cons.1 has
    rw [List.flatMap_cons, ih has]
    by_cases hba : b = a
    · subst hba
      rw [if_neg hb, if_pos List.mem_cons_self, List.append_nil]
    · have hmem : a ∈ b :: as ↔ a ∈ as := List.mem_cons.trans (or_iff_right (Ne.symm hba))
      rw [hg b hba, List.nil_append]
      simp only [hmem]

theorem path_of_mem_cellFaults {path : Path} {column : Option String}
    {os : List (FieldId × Except EvalError Float)} {fault : Fault}
    (h : fault ∈ cellFaults path column os) : fault.path = path ∧ fault.column = column := by
  obtain ⟨⟨id, o⟩, -, ho⟩ := List.mem_filterMap.1 h
  cases o with
  | ok x => cases ho
  | error e =>
    obtain rfl := Option.some.inj ho
    exact ⟨rfl, rfl⟩

/-- Faults of a cell are those of another one with the same outcomes, put in its place. -/
theorem map_cellFaults {path path' : Path} {column column' : Option String} {g : Fault → Fault}
    (hg : ∀ id e, g ⟨path, column, id, e⟩ = ⟨path', column', id, e⟩)
    (os : List (FieldId × Except EvalError Float)) :
    (cellFaults path column os).map g = cellFaults path' column' os := by
  rw [cellFaults, cellFaults, List.map_filterMap]
  apply List.filterMap_congr
  rintro ⟨id, o⟩ -
  cases o with
  | ok x => rfl
  | error e => exact congrArg some (hg id e)

def TerminalAt (rows : List Row) (path : Path) (r : Row) : Prop :=
  RowAt rows path r ∧ r.isTerminal = true

namespace Config
variable (c : Config) (index : FieldIndex)

theorem rowTree_compute (records : List Record) :
    RowTree c.rows (c.passed (Entry.ofRecords records)) (c.compute records).rows :=
  rowTree_rowsBy c c.fieldIndex (c.keyed_rows _) (positions_passed c records)

theorem rowAt_compute (records : List Record) (path : Path) (r : Row) :
    RowAt (c.compute records).rows path r ↔
      ∃ key, path.getLast? = some key ∧ path.length ≤ c.rows.length ∧
        along c.rows path (c.passed (Entry.ofRecords records)) ≠ [] ∧
        r = c.rowFor c.fieldIndex (c.rows.drop path.length) path key
          (along c.rows path (c.passed (Entry.ofRecords records))) :=
  c.rowAt_rowsBy c.fieldIndex (c.keyed_rows (Entry.ofRecords records)) [] path r

theorem exists_rowAt_compute (records : List Record) (path : Path) :
    (∃ r, RowAt (c.compute records).rows path r) ↔
      path ≠ [] ∧ path.length ≤ c.rows.length ∧
        along c.rows path (c.passed (Entry.ofRecords records)) ≠ [] := by
  constructor
  · rintro ⟨r, hr⟩
    obtain ⟨key, -, hlen, hne, -⟩ := (c.rowAt_compute records path r).1 hr
    exact ⟨hr.ne_nil, hlen, hne⟩
  · rintro ⟨hpath, hlen, hne⟩
    have hlast := List.getLast?_eq_some_getLast hpath
    exact ⟨_, (c.rowAt_compute records path _).2 ⟨_, hlast, hlen, hne, rfl⟩⟩

theorem entries_of_rowAt {records : List Record} {path : Path} {r : Row}
    (hr : RowAt (c.compute records).rows path r) :
    r.entries = along c.rows path (c.passed (Entry.ofRecords records)) := by
  obtain ⟨key, -, -, -, rfl⟩ := (c.rowAt_compute records path r).1 hr
  rfl

theorem terminalAt_compute {records : List Record} {path : Path} {r : Row} :
    TerminalAt (c.compute records).rows path r ↔
      RowAt (c.compute records).rows path r ∧ path.length = c.rows.length := by
  have htree := c.rowTree_compute records
  refine and_congr_right fun hr => ?_
  rw [Row.isTerminal, List.isEmpty_iff, ← htree.depth hr]
  exact htree.terminal hr

theorem exists_terminalAt_compute {records : List Record} {path : Path} :
    (∃ r, TerminalAt (c.compute records).rows path r) ↔
      path ≠ [] ∧ path.length = c.rows.length ∧
        along c.rows path (c.passed (Entry.ofRecords records)) ≠ [] := by
  simp only [terminalAt_compute, exists_and_right, c.exists_rowAt_compute]
  constructor
  · rintro ⟨⟨hpath, -, hne⟩, hlen⟩
    exact ⟨hpath, hlen, hne⟩
  · rintro ⟨hpath, hlen, hne⟩
    exact ⟨⟨hpath, hlen.le, hne⟩, hlen⟩

theorem showsMeasures_rowAt (hc : c.validate = .ok ()) {records : List Record} {path : Path}
    {r : Row} (hr : RowAt (c.compute records).rows path r) :
    ShowsMeasures c r.entries r.values := by
  obtain ⟨key, -, -, -, rfl⟩ := (c.rowAt_compute records path r).1 hr
  exact showsMeasures c hc _

theorem shows_rowAt (hc : c.validate = .ok ()) (hids : ∀ m ∈ c.measures, ':' ∉ m.id.toList)
    {records : List Record} {path : Path} {r : Row} (hr : RowAt (c.compute records).rows path r) :
    ShowsMeasures c r.entries r.values ∧ ShowsColumns c r.entries r.crossValues := by
  refine ⟨c.showsMeasures_rowAt hc hr, ?_⟩
  obtain ⟨key, -, -, -, rfl⟩ := (c.rowAt_compute records path r).1 hr
  rw [rowFor, c.crossTab_eq ((keyed_columns c _).along _ _)]
  exact showsColumns c hc hids _

theorem columnValues_compute (records : List Record) :
    (c.compute records).columnValues = c.columnKeys (c.passed (Entry.ofRecords records)) := by
  rw [compute, c.crossTab_eq (keyed_columns c _)]

theorem shows_columnTotals (hc : c.validate = .ok ())
    (hids : ∀ m ∈ c.measures, ':' ∉ m.id.toList) (records : List Record) :
    ShowsColumns c (c.passed (Entry.ofRecords records)) (c.compute records).columnTotals := by
  rw [compute, c.crossTab_eq (keyed_columns c _)]
  exact showsColumns c hc hids _

/-! ### Faults -/

theorem crossTab_faults (path : Path) (es : List Entry) :
    (c.crossTab index path es).faults = c.column.toList.flatMap fun f =>
      (groupBy f es).flatMap fun g => cellFaults path (some g.1) (c.outcomes index g.2) := by
  cases hcolumn : c.column <;> simp [crossTab, hcolumn, List.flatMap_map]

def lineFaults (path : Path) (es : List Entry) : List Fault :=
  cellFaults path none (c.outcomes index es) ++ (c.crossTab index path es).faults

theorem path_of_mem_lineFaults {path : Path} {es : List Entry} {fault : Fault}
    (h : fault ∈ c.lineFaults index path es) : fault.path = path := by
  rcases List.mem_append.1 h with h | h
  · exact (path_of_mem_cellFaults h).1
  · rw [crossTab_faults] at h
    obtain ⟨f, -, h⟩ := List.mem_flatMap.1 h
    obtain ⟨g, -, h⟩ := List.mem_flatMap.1 h
    exact (path_of_mem_cellFaults h).1

theorem filter_path_lineFaults (path path' : Path) (es : List Entry) :
    (c.lineFaults index path es).filter (·.path = path') =
      if path = path' then c.lineFaults index path es else [] := by
  split_ifs with h
  · apply List.filter_eq_self.2
    intro fault hfault
    simpa [h] using c.path_of_mem_lineFaults index hfault
  · apply List.filter_eq_nil_iff.2
    intro fault hfault
    simpa [c.path_of_mem_lineFaults index hfault] using h

def branchFaults (below : List Field) (path : Path) (es : List Entry) : List Fault :=
  c.lineFaults index path es ++ (c.rowsBy index below path.length path es).2

theorem rowsBy_branchFaults {f : Field} {fs : List Field} {es : List Entry}
    (h : Keyed (f :: fs) es) (above : Path) :
    (c.rowsBy index (f :: fs) above.length above es).2 =
      (canonicalKeys f es).flatMap fun key =>
        c.branchFaults index fs (above ++ [key]) (withKey f key es) :=
  c.rowsBy_faults index h above

theorem path_of_mem_branchFaults {fs : List Field} {es : List Entry} (h : Keyed fs es)
    {path : Path} {fault : Fault} (hfault : fault ∈ c.branchFaults index fs path es) :
    ∃ rest, fault.path = path ++ rest := by
  induction fs generalizing path es with
  | nil =>
    rw [branchFaults, rowsBy, List.append_nil] at hfault
    exact ⟨[], by rw [c.path_of_mem_lineFaults index hfault, List.append_nil]⟩
  | cons f fs ih =>
    rw [branchFaults, c.rowsBy_branchFaults index h] at hfault
    rcases List.mem_append.1 hfault with hline | hbelow
    · exact ⟨[], by rw [c.path_of_mem_lineFaults index hline, List.append_nil]⟩
    · obtain ⟨key, -, hbelow⟩ := List.mem_flatMap.1 hbelow
      obtain ⟨rest, hrest⟩ := ih (h.tail.withKey f key) hbelow
      exact ⟨key :: rest, by rw [hrest, List.append_assoc, List.singleton_append]⟩

theorem filter_above_rowsBy {fs : List Field} {es : List Entry} (h : Keyed fs es) (above : Path) :
    (c.rowsBy index fs above.length above es).2.filter (·.path = above) = [] := by
  apply List.filter_eq_nil_iff.2
  intro fault hfault
  cases fs with
  | nil => cases hfault
  | cons f fs =>
    rw [c.rowsBy_branchFaults index h] at hfault
    obtain ⟨key, -, hfault⟩ := List.mem_flatMap.1 hfault
    obtain ⟨rest, hrest⟩ := c.path_of_mem_branchFaults index (h.tail.withKey f key) hfault
    simp [hrest]

theorem filter_path_branchFaults {fs : List Field} {es : List Entry} (h : Keyed fs es)
    (above path : Path) :
    (c.branchFaults index fs above es).filter (·.path = above ++ path) =
      if path.length ≤ fs.length ∧ (path = [] ∨ along fs path es ≠ []) then
        c.lineFaults index (above ++ path) (along fs path es)
      else [] := by
  rw [branchFaults, List.filter_append, filter_path_lineFaults]
  induction fs generalizing above path es with
  | nil => cases path <;> simp [rowsBy]
  | cons f fs ih =>
    cases path with
    | nil =>
      rw [List.append_nil, c.filter_above_rowsBy index h]
      simp
    | cons key path =>
      have hpath : above ++ key :: path = (above ++ [key]) ++ path := by simp
      have hother : ∀ key' ≠ key, (c.branchFaults index fs (above ++ [key'])
          (withKey f key' es)).filter (·.path = above ++ key :: path) = [] := by
        intro key' hne
        apply List.filter_eq_nil_iff.2
        intro fault hfault
        obtain ⟨rest, hrest⟩ := c.path_of_mem_branchFaults index (h.tail.withKey f key') hfault
        simp [hrest, hne]
      have hgroup : (c.branchFaults index fs (above ++ [key]) (withKey f key es)).filter
          (·.path = above ++ key :: path) =
            if path.length ≤ fs.length ∧ (path = [] ∨ along fs path (withKey f key es) ≠ []) then
              c.lineFaults index (above ++ key :: path) (along fs path (withKey f key es))
            else [] := by
        rw [hpath, branchFaults, List.filter_append, filter_path_lineFaults,
          ih (h.tail.withKey f key)]
      have hown : above ≠ above ++ key :: path := by simp
      rw [if_neg hown, List.nil_append, c.rowsBy_branchFaults index h, List.filter_flatMap,
        flatMap_eq_of_nodup (nodup_canonicalKeys f es) hother, hgroup, along_cons]
      simp only [mem_canonicalKeys]
      -- without the key there is no group, and no path leads on from it
      by_cases hnone : withKey f key es = []
      · simp [hnone, along]
      · have hend : path = [] → along fs path (withKey f key es) ≠ [] := by
          rintro rfl
          rwa [along_nil]
        simp [hnone, or_iff_right_of_imp hend]

/-- The faults of a table at a path: those of one line where there is a row, or for the empty path
those of the totals. -/
theorem filter_path_compute (records : List Record) (path : Path) :
    (c.compute records).faults.filter (·.path = path) =
      if path.length ≤ c.rows.length ∧
          (path = [] ∨ along c.rows path (c.passed (Entry.ofRecords records)) ≠ []) then
        c.lineFaults c.fieldIndex path (along c.rows path (c.passed (Entry.ofRecords records)))
      else [] := by
  have hkeyed := c.keyed_rows (Entry.ofRecords records)
  have hfaults : (c.compute records).faults =
      (c.rowsBy c.fieldIndex c.rows ([] : Path).length []
          (c.passed (Entry.ofRecords records))).2 ++
        c.lineFaults c.fieldIndex [] (c.passed (Entry.ofRecords records)) :=
    List.append_assoc _ _ _
  have hbranch := c.filter_path_branchFaults c.fieldIndex hkeyed [] path
  rw [List.nil_append, branchFaults, List.filter_append] at hbranch
  rw [← hbranch, hfaults, List.filter_append]
  -- the totals stand behind the rows, but only one of the two has faults at the path
  by_cases hpath : path = []
  · subst hpath
    rw [c.filter_above_rowsBy c.fieldIndex hkeyed, List.nil_append, List.append_nil]
  · rw [filter_path_lineFaults, if_neg (Ne.symm hpath), List.append_nil, List.nil_append]

theorem filter_path_of_rowAt {records : List Record} {path : Path} {r : Row}
    (hr : RowAt (c.compute records).rows path r) :
    (c.compute records).faults.filter (·.path = path) =
      c.lineFaults c.fieldIndex path r.entries := by
  obtain ⟨-, hlen, hne⟩ := (c.exists_rowAt_compute records path).1 ⟨r, hr⟩
  rw [filter_path_compute, if_pos ⟨hlen, .inr hne⟩, c.entries_of_rowAt hr]

theorem filter_path_totals (records : List Record) :
    (c.compute records).faults.filter (·.path = []) =
      c.lineFaults c.fieldIndex [] (c.passed (Entry.ofRecords records)) := by
  rw [filter_path_compute, if_pos ⟨Nat.zero_le _, .inl rfl⟩, along_nil]

end Config

end Crosstab.Pivot
