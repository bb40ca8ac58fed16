import Crosstab.Proofs.Pivot.Lines

/-!
# Records that are left out

A record is reported for want of a date, rejected by a filter, or takes part, and nothing else
becomes of it. Only the records that take part are grouped and summed up. Others can come and go
anywhere in the input: the table keeps everything but its report of them, and its rows hold the same
records at whatever positions these have then.
-/

namespace Crosstab.Pivot

def Undated (f : Field) (r : Record) : Prop :=
  f.type = .date ∧ Value.key? f.type (r.get? f.id) = none

instance (f : Field) (r : Record) : Decidable (Undated f r) :=
  inferInstanceAs (Decidable (f.type = .date ∧ Value.key? f.type (r.get? f.id) = none))

namespace Config
variable (c : Config)

def siftFields : List Field := c.rows ++ (c.column.toList ++ c.filters.map (·.field))

def FirstUndated (r : Record) (f : Field) : Prop :=
  ∃ before after, c.siftFields = before ++ f :: after ∧ Undated f r ∧ ∀ g ∈ before, ¬ Undated g r

/-- A record has every date that is needed, and a filter rejects it. -/
def Rejects (r : Record) : Prop :=
  (∀ f ∈ c.siftFields, ¬ Undated f r) ∧ ∃ φ ∈ c.filters, φ.admits r = false

def TakesPart (r : Record) : Prop :=
  (∀ f ∈ c.siftFields, ¬ Undated f r) ∧ ∀ φ ∈ c.filters, φ.admits r = true

instance (r : Record) : Decidable (c.TakesPart r) :=
  inferInstanceAs (Decidable
    ((∀ f ∈ c.siftFields, ¬ Undated f r) ∧ ∀ φ ∈ c.filters, φ.admits r = true))

theorem exists_firstUndated_iff {r : Record} :
    (∃ f, c.FirstUndated r f) ↔ ∃ f ∈ c.siftFields, Undated f r := by
  constructor
  · rintro ⟨f, before, after, hfields, hf, -⟩
    exact ⟨f, by rw [hfields]; exact List.mem_append_cons_self, hf⟩
  · rintro ⟨f, hmem, hf⟩
    have hsome : (c.siftFields.find? (Undated · r)).isSome :=
      List.find?_isSome.2 ⟨f, hmem, decide_eq_true hf⟩
    obtain ⟨g, hg⟩ := Option.isSome_iff_exists.1 hsome
    obtain ⟨hg, before, after, hfields, hbefore⟩ := List.find?_eq_some_iff_append.1 hg
    exact ⟨g, before, after, hfields, of_decide_eq_true hg, by simpa using hbefore⟩

theorem find?_dateFields (r : Record) :
    (c.dateFields.find? fun f => (Value.key? f.type (r.get? f.id)).isNone) =
      c.siftFields.find? (Undated · r) := by
  rw [dateFields, List.find?_filter]
  congr 1
  funext f
  rw [decide_eq_decide, decide_eq_true_iff, Option.isNone_iff_eq_none, Undated]

theorem invalidDate?_eq_some_iff {e : Entry} {d : InvalidDate} :
    c.invalidDate? e = some d ↔ ∃ f, c.FirstUndated e.record f ∧
      d = ⟨e.position, f.id, ((e.record.get? f.id).map Value.display).getD ""⟩ := by
  rw [invalidDate?, find?_dateFields, Option.map_eq_some_iff]
  apply exists_congr
  intro f
  rw [List.find?_eq_some_iff_append, FirstUndated, eq_comm (b := d)]
  simp only [decide_eq_true_eq, Bool.not_eq_true', decide_eq_false_iff_not]
  tauto

theorem invalidDate?_eq_none_iff {e : Entry} :
    c.invalidDate? e = none ↔ ∀ f ∈ c.siftFields, ¬ Undated f e.record := by
  rw [invalidDate?, find?_dateFields, Option.map_eq_none_iff, List.find?_eq_none]
  simp only [decide_eq_true_eq]

theorem passes_iff {e : Entry} : c.passes e = true ↔ c.TakesPart e.record := by
  rw [passes, Bool.and_eq_true, Option.isNone_iff_eq_none, invalidDate?_eq_none_iff,
    List.all_eq_true, TakesPart]

end Config

theorem mem_ofRecords {records : List Record} {e : Entry} :
    e ∈ Entry.ofRecords records ↔ records[e.position]? = some e.record := by
  rw [Entry.ofRecords, List.mem_map]
  constructor
  · rintro ⟨⟨r, i⟩, hmem, rfl⟩
    exact List.mem_zipIdx_iff_getElem?.1 hmem
  · intro hget
    exact ⟨(e.record, e.position), List.mem_zipIdx_iff_getElem?.2 hget, rfl⟩

theorem records_ofRecords (records : List Record) :
    (Entry.ofRecords records).map (·.record) = records := by
  rw [Entry.ofRecords, List.map_map]
  exact List.zipIdx_map_fst 0 records

theorem Config.mem_passed {c : Config} {records : List Record} {e : Entry} :
    e ∈ c.passed (Entry.ofRecords records) ↔
      records[e.position]? = some e.record ∧ c.TakesPart e.record := by
  rw [passed, List.mem_filter, mem_ofRecords, passes_iff]

theorem Config.records_passed (c : Config) (records : List Record) :
    (c.passed (Entry.ofRecords records)).map (·.record) = records.filter (c.TakesPart ·) := by
  have hpasses : c.passes = (fun r => decide (c.TakesPart r)) ∘ Entry.record := by
    funext e
    rw [Function.comp_apply, Bool.eq_iff_iff, passes_iff, decide_eq_true_iff]
  rw [passed, hpasses, ← List.filter_map, records_ofRecords]

/-! ### What becomes of a record -/

inductive Fate where
  | reported
  | rejected
  | passed
  deriving DecidableEq

/-- A table and the entries that take part account for the record at a position. -/
def Meets (c : Config) (t : Table) (kept : List Entry) (e : Entry) : Fate → Prop
  | .reported => e.position ∈ t.dataErrors.map (·.position)
  | .rejected => c.Rejects e.record
  | .passed => e ∈ kept

/-- Records are sorted out. Each has one fate, and what is reported and what takes part stand in the
order of the input. -/
structure Sifted (c : Config) (records : List Record) (t : Table) (kept : List Entry) : Prop where
  fate {e : Entry} : records[e.position]? = some e.record → ∃! fate, Meets c t kept e fate
  reported (d : InvalidDate) : d ∈ t.dataErrors ↔ ∃ r f, records[d.position]? = some r ∧
    c.FirstUndated r f ∧ d.field = f.id ∧ d.value = ((r.get? f.id).map Value.display).getD ""
  increasing : (t.dataErrors.map (·.position)).Pairwise (· < ·)
  passed (e : Entry) : e ∈ kept ↔ records[e.position]? = some e.record ∧ c.TakesPart e.record
  positions : (kept.map (·.position)).Pairwise (· < ·)
  recordCount : t.recordCount = kept.length

namespace Config
variable (c : Config) (records : List Record)

theorem mem_dataErrors {d : InvalidDate} :
    d ∈ c.dataErrors (Entry.ofRecords records) ↔ ∃ r f, records[d.position]? = some r ∧
      c.FirstUndated r f ∧ d.field = f.id ∧
        d.value = ((r.get? f.id).map Value.display).getD "" := by
  rw [dataErrors, List.mem_filterMap]
  constructor
  · rintro ⟨e, he, hd⟩
    obtain ⟨f, hf, rfl⟩ := c.invalidDate?_eq_some_iff.1 hd
    exact ⟨e.record, f, mem_ofRecords.1 he, hf, rfl, rfl⟩
  · obtain ⟨position, field, value⟩ := d
    rintro ⟨r, f, hr, hf, rfl, rfl⟩
    exact ⟨⟨position, r⟩, mem_ofRecords.2 hr, c.invalidDate?_eq_some_iff.2 ⟨f, hf, rfl⟩⟩

theorem mem_positions_dataErrors {e : Entry} (he : records[e.position]? = some e.record) :
    e.position ∈ (c.dataErrors (Entry.ofRecords records)).map (·.position) ↔
      ∃ f ∈ c.siftFields, Undated f e.record := by
  rw [← c.exists_firstUndated_iff, List.mem_map]
  constructor
  · rintro ⟨d, hd, hposition⟩
    obtain ⟨r, f, hr, hf, -⟩ := (c.mem_dataErrors records).1 hd
    rw [hposition, he] at hr
    exact ⟨f, Option.some.inj hr ▸ hf⟩
  · rintro ⟨f, hf⟩
    exact ⟨⟨e.position, f.id, _⟩, (c.mem_dataErrors records).2 ⟨_, f, he, hf, rfl, rfl⟩, rfl⟩

theorem existsUnique_fate {e : Entry} (he : records[e.position]? = some e.record) :
    ∃! fate, Meets c (c.compute records) (c.passed (Entry.ofRecords records)) e fate := by
  have hreported := c.mem_positions_dataErrors records he
  have hpassed : e ∈ c.passed (Entry.ofRecords records) ↔
      records[e.position]? = some e.record ∧ c.TakesPart e.record := mem_passed
  by_cases hdates : ∃ f ∈ c.siftFields, Undated f e.record
  · refine ⟨.reported, hreported.2 hdates, ?_⟩
    obtain ⟨f, hf, hundated⟩ := hdates
    rintro (_ | _ | _) hmeets
    · rfl
    · exact absurd hundated (hmeets.1 f hf)
    · exact absurd hundated ((hpassed.1 hmeets).2.1 f hf)
  · have hdated : ∀ f ∈ c.siftFields, ¬ Undated f e.record := fun f hf hu => hdates ⟨f, hf, hu⟩
    by_cases hfilters : ∀ φ ∈ c.filters, φ.admits e.record = true
    · refine ⟨.passed, hpassed.2 ⟨he, hdated, hfilters⟩, ?_⟩
      rintro (_ | _ | _) hmeets
      · exact absurd (hreported.1 hmeets) hdates
      · obtain ⟨-, φ, hφ, hfalse⟩ := hmeets
        exact absurd (hfilters φ hφ) (by rw [hfalse]; exact Bool.false_ne_true)
      · rfl
    · obtain ⟨φ, hφ, hadmits⟩ : ∃ φ ∈ c.filters, φ.admits e.record = false := by
        simpa using hfilters
      refine ⟨.rejected, ⟨hdated, φ, hφ, hadmits⟩, ?_⟩
      rintro (_ | _ | _) hmeets
      · exact absurd (hreported.1 hmeets) hdates
      · rfl
      · exact absurd (hpassed.1 hmeets).2.2 hfilters

theorem sifted_compute :
    Sifted c records (c.compute records) (c.passed (Entry.ofRecords records)) := by
  constructor
  case fate => exact fun he => c.existsUnique_fate records he
  case reported => exact fun d => c.mem_dataErrors records
  case increasing =>
    have hsublist : ((c.dataErrors (Entry.ofRecords records)).map (·.position)).Sublist
        ((Entry.ofRecords records).map (·.position)) := by
      apply map_filterMap_sublist
      intro e d hd
      obtain ⟨f, -, rfl⟩ := c.invalidDate?_eq_some_iff.1 hd
      rfl
    rw [positions_ofRecords] at hsublist
    exact List.pairwise_lt_range.sublist hsublist
  case passed => exact fun e => mem_passed
  case positions => exact positions_passed c records
  case recordCount => rfl

end Config

/-! ### Records at other positions -/

def Entry.moved (place : Nat → Nat) (e : Entry) : Entry := ⟨place e.position, e.record⟩

mutual

def Row.moved (place : Nat → Nat) : Row → Row
  | ⟨key, label, depth, values, crossValues, children, entries⟩ =>
    ⟨key, label, depth, values, crossValues, Row.allMoved place children,
      entries.map (Entry.moved place)⟩

def Row.allMoved (place : Nat → Nat) : List Row → List Row
  | [] => []
  | r :: rs => r.moved place :: Row.allMoved place rs

end

theorem Row.allMoved_eq_map (place : Nat → Nat) (rows : List Row) :
    Row.allMoved place rows = rows.map (Row.moved place) := by
  induction rows with
  | nil => rfl
  | cons r rs ih => rw [Row.allMoved, ih, List.map_cons]

/-- Entries at different positions can be moved to any entries with the same records. -/
theorem exists_moved {es es' : List Entry} (hpos : (es.map (·.position)).Nodup)
    (hrecords : es'.map (·.record) = es.map (·.record)) :
    ∃ place, es' = es.map (Entry.moved place) := by
  induction es generalizing es' with
  | nil => exact ⟨id, List.map_eq_nil_iff.1 hrecords⟩
  | cons e es ih =>
    obtain ⟨e', es', rfl, hrecord, hrest⟩ := List.map_eq_cons_iff.1 hrecords
    obtain ⟨hnew, hpos⟩ := List.nodup_cons.1 hpos
    obtain ⟨place, rfl⟩ := ih hpos hrest
    refine ⟨Function.update place e.position e'.position, ?_⟩
    rw [List.map_cons]
    congr 1
    · rw [Entry.moved, Function.update_self, show e.record = e'.record from hrecord.symm]
    · apply List.map_congr_left
      intro e₁ he₁
      have hne : e₁.position ≠ e.position := fun heq => hnew (List.mem_map.2 ⟨e₁, he₁, heq⟩)
      rw [Entry.moved, Entry.moved, Function.update_of_ne hne]

theorem partition_map {α β : Type} (key : β → String) (g : α → β) (as : List α) :
    partition key (as.map g) = (partition (key ∘ g) as).map fun x => (x.1, x.2.map g) := by
  rw [partition_eq, partition_eq, List.map_map, List.map_map]
  apply List.map_congr_left
  intro k _
  rw [List.filter_map]
  rfl

section
variable (place : Nat → Nat)

theorem groupBy_moved (f : Field) (es : List Entry) :
    groupBy f (es.map (Entry.moved place)) =
      (groupBy f es).map fun g => (g.1, g.2.map (Entry.moved place)) :=
  partition_map _ _ _

namespace Config
variable (c : Config) (index : FieldIndex)

theorem outcomes_moved (es : List Entry) :
    c.outcomes index (es.map (Entry.moved place)) = c.outcomes index es := by
  rw [outcomes, outcomes, List.map_map]
  rfl

theorem crossTab_moved (path : Path) (es : List Entry) :
    c.crossTab index path (es.map (Entry.moved place)) = c.crossTab index path es := by
  rw [crossTab, crossTab]
  cases c.column with
  | none => rfl
  | some f => simp only [groupBy_moved, List.map_map, Function.comp_def, outcomes_moved]

theorem rowsBy_moved (fs : List Field) (depth : Nat) (above : Path) (es : List Entry) :
    c.rowsBy index fs depth above (es.map (Entry.moved place)) =
      (Row.allMoved place (c.rowsBy index fs depth above es).1,
        (c.rowsBy index fs depth above es).2) := by
  induction fs generalizing depth above es with
  | nil => rfl
  | cons f fs ih =>
    simp only [rowsBy, groupBy_moved, List.map_map, List.flatMap_map, Function.comp_def,
      outcomes_moved, crossTab_moved, ih, Row.allMoved_eq_map, Row.moved]

end Config

end

/-- Two tables differ in nothing but the records that they report and the positions of those that
take part. -/
structure SameButErrors (place : Nat → Nat) (t t' : Table) : Prop where
  rows : t'.rows = Row.allMoved place t.rows
  grandTotal : t'.grandTotal = t.grandTotal
  columnTotals : t'.columnTotals = t.columnTotals
  columnValues : t'.columnValues = t.columnValues
  recordCount : t'.recordCount = t.recordCount
  faults : t'.faults = t.faults

namespace Config
variable (c : Config)

theorem sameButErrors_compute {records records' : List Record} {place : Nat → Nat}
    (h : c.passed (Entry.ofRecords records') =
      (c.passed (Entry.ofRecords records)).map (Entry.moved place)) :
    SameButErrors place (c.compute records) (c.compute records') := by
  constructor
  all_goals simp only [compute, h, rowsBy_moved, outcomes_moved, crossTab_moved, List.length_map]

theorem exists_moved_passed {records records' : List Record}
    (h : records'.filter (c.TakesPart ·) = records.filter (c.TakesPart ·)) :
    ∃ place, c.passed (Entry.ofRecords records') =
      (c.passed (Entry.ofRecords records)).map (Entry.moved place) := by
  apply exists_moved
  · exact (positions_passed c records).imp Nat.ne_of_lt
  · rw [records_passed, records_passed, h]

theorem dataErrors_filter_takesPart (records : List Record) :
    (c.compute (records.filter (c.TakesPart ·))).dataErrors = [] := by
  apply List.eq_nil_iff_forall_not_mem.2
  intro d hd
  obtain ⟨r, f, hr, ⟨before, after, hfields, hf, -⟩, -⟩ := (c.mem_dataErrors _).1 hd
  have htakes := of_decide_eq_true (List.mem_filter.1 (List.mem_of_getElem? hr)).2
  exact htakes.1 f (by rw [hfields]; exact List.mem_append_cons_self) hf

end Config

/-- Each record is reported, rejected or takes part. Those that take part make the same table
without the others, and with any others in between: only the report of records without a date
changes. -/
theorem tabulate_sifted (records : List Record) (c : Config) (hc : c.validate = .ok ()) :
    let passed := c.passed (Entry.ofRecords records)
    ∃ t, tabulate records c = .ok t ∧ Sifted c records t passed ∧
      (∃ t' place, tabulate (passed.map (·.record)) c = .ok t' ∧ SameButErrors place t t' ∧
        c.passed (Entry.ofRecords (passed.map (·.record))) = passed.map (Entry.moved place) ∧
        t'.dataErrors = []) ∧
      ∀ records', records'.filter (c.TakesPart ·) = records.filter (c.TakesPart ·) →
        ∃ t' place, tabulate records' c = .ok t' ∧ SameButErrors place t t' ∧
          c.passed (Entry.ofRecords records') = passed.map (Entry.moved place) := by
  intro passed
  refine ⟨_, tabulate_of_validate hc records, c.sifted_compute records, ?_, ?_⟩
  · have halone : (passed.map (·.record)).filter (c.TakesPart ·) =
        records.filter (c.TakesPart ·) := by
      rw [c.records_passed, List.filter_filter]
      simp
    obtain ⟨place, hplace⟩ := c.exists_moved_passed halone
    refine ⟨_, place, tabulate_of_validate hc _, c.sameButErrors_compute hplace, hplace, ?_⟩
    rw [c.records_passed]
    exact c.dataErrors_filter_takesPart records
  · intro records' h
    obtain ⟨place, hplace⟩ := c.exists_moved_passed h
    exact ⟨_, place, tabulate_of_validate hc records', c.sameButErrors_compute hplace, hplace⟩

theorem ledger_sifted :
    let passed := ledgerConfig.passed (Entry.ofRecords ledger)
    ledgerConfig.validate = .ok () ∧ ∃ t, tabulate ledger ledgerConfig = .ok t ∧
      Sifted ledgerConfig ledger t passed ∧
      (∃ t' place, tabulate (passed.map (·.record)) ledgerConfig = .ok t' ∧
        SameButErrors place t t' ∧
        ledgerConfig.passed (Entry.ofRecords (passed.map (·.record))) =
          passed.map (Entry.moved place) ∧
        t'.dataErrors = []) ∧
      ∀ records', records'.filter (ledgerConfig.TakesPart ·) =
          ledger.filter (ledgerConfig.TakesPart ·) →
        ∃ t' place, tabulate records' ledgerConfig = .ok t' ∧ SameButErrors place t t' ∧
          ledgerConfig.passed (Entry.ofRecords records') = passed.map (Entry.moved place) :=
  ⟨by cbv, tabulate_sifted ledger ledgerConfig (by cbv)⟩

end Crosstab.Pivot
