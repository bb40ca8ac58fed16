import Crosstab.Proofs.Except
import Crosstab.Proofs.Pivot.Lines
import Crosstab.Proofs.Pivot.References
import Mathlib.Data.List.FinRange
import Mathlib.Data.Set.Function

/-!
# The order of the row fields

With the row fields in another order a table has other rows, but the rows at the bottom are the same
groups of records under rearranged paths, and no total changes. A record without a date may be
reported for another of its fields, and is left out all the same.

A permutation of the positions of a list arranges the list, and every other list of that length in
the same way. So pairs of entries stay pairs, and the inverse permutation leads back.
-/

namespace Crosstab

/-! ### Lists in another order -/

/-- The entries of a list of length `n` in the order that a permutation of its positions gives. -/
def arrange {α : Type} {n : Nat} (σ : Equiv.Perm (Fin n)) (as : List α) : List α :=
  (List.finRange n).filterMap fun i => as[(σ i).val]?

variable {ε α β : Type} {n : Nat} (σ : Equiv.Perm (Fin n)) {as : List α} {bs : List β}

theorem arrange_eq_map (h : as.length = n) :
    arrange σ as = (List.finRange n).map fun i => as.get ((σ i).cast h.symm) := by
  rw [arrange, ← List.filterMap_eq_map]
  apply List.filterMap_congr
  intro i _
  exact List.getElem?_eq_getElem _

theorem length_arrange (h : as.length = n) : (arrange σ as).length = n := by
  rw [arrange_eq_map σ h, List.length_map, List.length_finRange]

theorem getElem?_arrange (h : as.length = n) (i : Fin n) :
    (arrange σ as)[i.val]? = as[(σ i).val]? := by
  have hi : (σ i).val < as.length := by omega
  rw [arrange_eq_map σ h, List.getElem?_map, List.getElem?_eq_getElem (by simp),
    List.getElem?_eq_getElem hi, Option.map_some]
  simp

theorem arrange_arrange_symm (h : as.length = n) : arrange σ (arrange σ.symm as) = as := by
  have hsymm := length_arrange σ.symm h
  apply List.ext_getElem?
  intro i
  by_cases hi : i < n
  · rw [getElem?_arrange σ hsymm ⟨i, hi⟩, getElem?_arrange σ.symm h, σ.symm_apply_apply]
  · rw [List.getElem?_eq_none (by rw [length_arrange σ hsymm]; omega),
      List.getElem?_eq_none (by omega)]

theorem arrange_symm_arrange (h : as.length = n) : arrange σ.symm (arrange σ as) = as :=
  arrange_arrange_symm σ.symm h

theorem arrange_perm (h : as.length = n) : (arrange σ as).Perm as := by
  subst h
  have hmap : arrange σ as = ((List.finRange as.length).map σ).map as.get := by
    rw [arrange_eq_map σ rfl, List.map_map]
    rfl
  rw [hmap]
  exact (σ.map_finRange_perm.map as.get).trans (.of_eq (List.map_get_finRange as))

theorem zip_arrange (has : as.length = n) (hbs : bs.length = n) :
    (arrange σ as).zip (arrange σ bs) = arrange σ (as.zip bs) := by
  have hzip : (as.zip bs).length = n := by rw [List.length_zip, has, hbs, Nat.min_self]
  rw [arrange_eq_map σ has, arrange_eq_map σ hbs, arrange_eq_map σ hzip, List.zip_map']
  apply List.map_congr_left
  intro i _
  exact List.getElem_zip.symm

theorem map_arrange (f : α → β) (as : List α) : (arrange σ as).map f = arrange σ (as.map f) := by
  rw [arrange, arrange, List.map_filterMap]
  apply List.filterMap_congr
  intro i _
  rw [List.getElem?_map]

/-- Steps that succeed on the entries of a list do so in any order. -/
theorem mapM_arrange {f : α → Except ε β} (h : as.mapM f = .ok bs) :
    (arrange σ as).mapM f = .ok (arrange σ bs) := by
  rw [mapM_eq_ok_iff] at h ⊢
  rw [map_arrange, h, map_arrange]

end Crosstab

/-! ### Tables -/

namespace Crosstab.Pivot

/-- Two tables that leave out the same records and have the same totals. Their terminal rows are the
same but for the order of the keys in the paths. -/
structure Reordered {n : Nat} (σ : Equiv.Perm (Fin n)) (t t' : Table) : Prop where
  skipped : t'.dataErrors.map (·.position) = t.dataErrors.map (·.position)
  recordCount : t'.recordCount = t.recordCount
  grandTotal : t'.grandTotal = t.grandTotal
  columnTotals : t'.columnTotals = t.columnTotals
  columnValues : t'.columnValues = t.columnValues
  totalFaults : t'.faults.filter (·.path = []) = t.faults.filter (·.path = [])
  paths : Set.BijOn (arrange σ) {path | ∃ r, TerminalAt t.rows path r}
    {path | ∃ r, TerminalAt t'.rows path r}
  row {path : Path} {r r' : Row} : TerminalAt t.rows path r →
    TerminalAt t'.rows (arrange σ path) r' →
    r'.entries = r.entries ∧ r'.values = r.values ∧ r'.crossValues = r.crossValues
  faults {path : Path} {r : Row} : TerminalAt t.rows path r →
    t'.faults.filter (·.path = arrange σ path) =
      (t.faults.filter (·.path = path)).map fun f => { f with path := arrange σ path }

theorem onPath_arrange {n : Nat} (σ : Equiv.Perm (Fin n)) {fs : List Field} {path : Path}
    (hfs : fs.length = n) (hpath : path.length = n) :
    onPath (arrange σ fs) (arrange σ path) = onPath fs path := by
  have hpairs : (fs.zip path).length = n := by rw [List.length_zip, hfs, hpath, Nat.min_self]
  funext e
  rw [onPath, onPath, zip_arrange σ hfs hpath, (arrange_perm σ hpairs).all_eq]

theorem along_arrange {n : Nat} (σ : Equiv.Perm (Fin n)) {fs : List Field} {path : Path}
    (hfs : fs.length = n) (hpath : path.length = n) (es : List Entry) :
    along (arrange σ fs) (arrange σ path) es = along fs path es := by
  rw [along, along, onPath_arrange σ hfs hpath]

namespace Config
variable {c : Config}

theorem lineFaults_path (index : FieldIndex) (path path' : Path) (es : List Entry) :
    c.lineFaults index path' es =
      (c.lineFaults index path es).map fun f => { f with path := path' } := by
  have hcells (column : Option String) (os : List (FieldId × Except EvalError Float)) :
      cellFaults path' column os =
        (cellFaults path column os).map fun f => { f with path := path' } :=
    (map_cellFaults (fun _ _ => rfl) os).symm
  simp only [lineFaults, crossTab_faults, List.map_append, List.map_flatMap, hcells]

theorem crossTab_values_path (index : FieldIndex) (path path' : Path) (es : List Entry) :
    (c.crossTab index path' es).values = (c.crossTab index path es).values := by
  rw [crossTab, crossTab]
  cases c.column <;> rfl

/-! ### Records that take part -/

section
variable {fs : List Field} (hfs : fs.Perm c.rows)
include hfs

theorem isSome_invalidDate? (e : Entry) :
    ({ c with rows := fs }.invalidDate? e).isSome = (c.invalidDate? e).isSome := by
  have hdates : { c with rows := fs }.dateFields.Perm c.dateFields :=
    (hfs.append_right _).filter _
  exact isSome_invalidDate?_congr (fun _ => hdates.mem_iff) e

theorem passed_perm (es : List Entry) : { c with rows := fs }.passed es = c.passed es := by
  apply List.filter_congr
  intro e _
  rw [passes, passes, ← Option.not_isSome, ← Option.not_isSome, isSome_invalidDate? hfs]

theorem positions_dataErrors (es : List Entry) :
    (dataErrors { c with rows := fs } es).map (·.position) =
      (c.dataErrors es).map (·.position) := by
  have hposition (c : Config) (e : Entry) : (c.invalidDate? e).map InvalidDate.position =
      if (c.invalidDate? e).isSome then some e.position else none := by
    rw [invalidDate?]
    cases c.dateFields.find? _ <;> rfl
  rw [dataErrors, dataErrors, List.map_filterMap, List.map_filterMap]
  apply List.filterMap_congr
  intro e _
  rw [hposition, hposition, isSome_invalidDate? hfs]

end

def reorder {n : Nat} (c : Config) (σ : Equiv.Perm (Fin n)) : Config :=
  { c with rows := arrange σ c.rows }

section
variable {n : Nat} {σ : Equiv.Perm (Fin n)}

theorem passed_reorder (hn : c.rows.length = n) (es : List Entry) :
    (c.reorder σ).passed es = c.passed es :=
  passed_perm (arrange_perm σ hn) es

theorem along_reorder (hn : c.rows.length = n) {path : Path} (hpath : path.length = n)
    (es : List Entry) :
    along (c.reorder σ).rows (arrange σ path) ((c.reorder σ).passed es) =
      along c.rows path (c.passed es) := by
  rw [passed_reorder hn]
  exact along_arrange σ hn hpath _

theorem exists_terminalAt_reorder (hn : c.rows.length = n) {records : List Record} {path : Path}
    (hpath : path.length = n) :
    (∃ r, TerminalAt ((c.reorder σ).compute records).rows (arrange σ path) r) ↔
      ∃ r, TerminalAt (c.compute records).rows path r := by
  have hlen := length_arrange σ hpath
  have hlen' : (c.reorder σ).rows.length = n := length_arrange σ hn
  have hnil : arrange σ path ≠ [] ↔ path ≠ [] := by
    rw [← List.length_pos_iff, ← List.length_pos_iff, hlen, hpath]
  rw [exists_terminalAt_compute, exists_terminalAt_compute, along_reorder hn hpath, hlen, hlen',
    hpath, hn, hnil]

variable (hindex : ∀ id, (c.reorder σ).fieldIndex.get? id = c.fieldIndex.get? id)
include hindex

theorem outcomes_reorder (es : List Entry) :
    (c.reorder σ).outcomes (c.reorder σ).fieldIndex es = c.outcomes c.fieldIndex es :=
  outcomes_congr (fun _ _ id _ => hindex id) es

theorem crossTab_reorder (path : Path) (es : List Entry) :
    (c.reorder σ).crossTab (c.reorder σ).fieldIndex path es = c.crossTab c.fieldIndex path es :=
  crossTab_congr (fun _ _ id _ => hindex id) path es

theorem lineFaults_reorder (path : Path) (es : List Entry) :
    (c.reorder σ).lineFaults (c.reorder σ).fieldIndex path es =
      c.lineFaults c.fieldIndex path es := by
  rw [lineFaults, lineFaults, outcomes_reorder hindex, crossTab_reorder hindex]

/-- The row fields in another order make the same totals and, under rearranged paths, the same
terminal rows. -/
theorem reordered_compute (hn : c.rows.length = n) (records : List Record) :
    Reordered σ (c.compute records) ((c.reorder σ).compute records) := by
  have hn' : (c.reorder σ).rows.length = n := length_arrange σ hn
  constructor
  case skipped => exact positions_dataErrors (arrange_perm σ hn) _
  case recordCount => exact congrArg List.length (passed_reorder hn _)
  case grandTotal => rw [compute, compute, passed_reorder hn, outcomes_reorder hindex]
  case columnTotals => rw [compute, compute, passed_reorder hn, crossTab_reorder hindex]
  case columnValues => rw [compute, compute, passed_reorder hn, crossTab_reorder hindex]
  case totalFaults =>
    rw [filter_path_totals, filter_path_totals, passed_reorder hn, lineFaults_reorder hindex]
  case paths =>
    have hlen {path : Path} (h : ∃ r, TerminalAt (c.compute records).rows path r) :
        path.length = n := ((exists_terminalAt_compute _).1 h).2.1.trans hn
    refine ⟨fun path h => (exists_terminalAt_reorder hn (hlen h)).2 h, ?_, ?_⟩
    · intro path h path' h' heq
      rw [← arrange_symm_arrange σ (hlen h), heq, arrange_symm_arrange σ (hlen h')]
    · -- a path of the second table comes from the one that the inverse makes of it
      intro path h
      have hpath : path.length = n := ((exists_terminalAt_compute _).1 h).2.1.trans hn'
      have hback : arrange σ (arrange σ.symm path) = path := arrange_arrange_symm σ hpath
      refine ⟨arrange σ.symm path, ?_, hback⟩
      apply (exists_terminalAt_reorder hn (length_arrange σ.symm hpath)).1
      rwa [hback]
  case row =>
    intro path r r' hr hr'
    obtain ⟨key, -, -, -, rfl⟩ := (c.rowAt_compute records path r).1 hr.1
    obtain ⟨key', -, -, -, rfl⟩ :=
      ((c.reorder σ).rowAt_compute records (arrange σ path) r').1 hr'.1
    have hpath : path.length = n := (c.terminalAt_compute.1 hr).2.trans hn
    have hentries := along_reorder (σ := σ) hn hpath (Entry.ofRecords records)
    refine ⟨hentries, ?_, ?_⟩
    · rw [rowFor, rowFor, hentries, outcomes_reorder hindex]
    · rw [rowFor, rowFor, hentries, crossTab_reorder hindex, crossTab_values_path _ path]
  case faults =>
    intro path r hr
    have hpath : path.length = n := (c.terminalAt_compute.1 hr).2.trans hn
    obtain ⟨r', hr'⟩ := (exists_terminalAt_reorder (σ := σ) hn hpath).2 ⟨r, hr⟩
    rw [filter_path_of_rowAt _ hr.1, filter_path_of_rowAt _ hr'.1, entries_of_rowAt _ hr.1,
      entries_of_rowAt _ hr'.1, along_reorder hn hpath, lineFaults_reorder hindex,
      lineFaults_path _ path]

end

end Config

end Crosstab.Pivot
