import Mathlib.Data.List.Permutation
import Crosstab.Proofs.Pivot.Tree

/-!
# Rows are the groups of the records that take part

`RowTree` says what the tree of rows is in terms of the row fields and the entries alone: where
there are rows, what each of them holds, and how the rows below one divide its entries. The rows
that `rowsBy` builds are such a tree, and so are those of every table.
-/

namespace Crosstab.Pivot

def levelKeys : List Field → List Entry → List String
  | [], _ => []
  | f :: _, es => canonicalKeys f es

/-- Rows divide some entries by the first of the fields that are left: they have different keys,
which first occur in the order of the rows, and every entry belongs to one row. -/
structure Divides (fs : List Field) (es : List Entry) (rows : List Row) : Prop where
  keys : rows.map (·.key) = levelKeys fs es
  nodup : (rows.map (·.key)).Nodup
  perm : fs ≠ [] → (rows.flatMap (·.entries)).Perm es

/-- Rows are the tree of groups of some entries by some fields. -/
structure RowTree (fs : List Field) (es : List Entry) (rows : List Row) : Prop where
  exists_iff (path : Path) : (∃ r, RowAt rows path r) ↔
    path ≠ [] ∧ path.length ≤ fs.length ∧ ∃ e ∈ es, onPath fs path e
  unique {path : Path} {r s : Row} : RowAt rows path r → RowAt rows path s → r = s
  depth {path : Path} {r : Row} : RowAt rows path r → r.depth + 1 = path.length
  key {path : Path} {r : Row} : RowAt rows path r → path.getLast? = some r.key
  label {path : Path} {r : Row} : RowAt rows path r → path.getLast? = some r.label
  entries {path : Path} {r : Row} : RowAt rows path r → r.entries = es.filter (onPath fs path)
  positions {path : Path} {r : Row} : RowAt rows path r →
    (r.entries.map (·.position)).Pairwise (· < ·)
  terminal {path : Path} {r : Row} : RowAt rows path r → (r.children = [] ↔ r.depth + 1 = fs.length)
  top : Divides fs es rows
  below {path : Path} {r : Row} : RowAt rows path r →
    Divides (fs.drop path.length) r.entries r.children

theorem canonicalKeys_ne_nil {f : Field} {es : List Entry} (h : Keyed [f] es) (hne : es ≠ []) :
    canonicalKeys f es ≠ [] := by
  obtain ⟨e, es, rfl⟩ := List.exists_cons_of_ne_nil hne
  obtain ⟨key, hkey⟩ := Option.isSome_iff_exists.1
    (h f (List.mem_singleton_self f) e List.mem_cons_self)
  apply List.ne_nil_of_mem (a := key)
  rw [mem_canonicalKeys, withKey, List.filter_cons_of_pos (by simpa using hkey)]
  exact List.cons_ne_nil _ _

section
variable (c : Config) (index : FieldIndex)

theorem divides_rowsBy {fs : List Field} {es : List Entry} (h : Keyed fs es) (above : Path) :
    Divides fs es (c.rowsBy index fs above.length above es).1 := by
  cases fs with
  | nil => exact ⟨rfl, List.nodup_nil, fun hne => absurd rfl hne⟩
  | cons f fs =>
    have hkeys : (c.rowsBy index (f :: fs) above.length above es).1.map (·.key) =
        canonicalKeys f es := by
      rw [c.rowsBy_rows index h, List.map_map]
      exact List.map_id _
    refine ⟨hkeys, hkeys ▸ nodup_canonicalKeys f es, fun _ => ?_⟩
    rw [c.rowsBy_cons_rows, List.flatMap_map]
    exact groupBy_perm f es

theorem rowsBy_eq_nil_iff {fs : List Field} {es : List Entry} (h : Keyed fs es) (hne : es ≠ [])
    (above : Path) : (c.rowsBy index fs above.length above es).1 = [] ↔ fs = [] := by
  cases fs with
  | nil => exact iff_of_true rfl rfl
  | cons f fs =>
    have hkeys := canonicalKeys_ne_nil h.head hne
    rw [c.rowsBy_rows index h, List.map_eq_nil_iff]
    exact iff_of_false hkeys (List.cons_ne_nil f fs)

/-- The rows built for some fields are the tree of groups by them. -/
theorem rowTree_rowsBy {fs : List Field} {es : List Entry} (h : Keyed fs es)
    (hpos : (es.map (·.position)).Pairwise (· < ·)) :
    RowTree fs es (c.rowsBy index fs 0 [] es).1 := by
  have hat (path : Path) (r : Row) := c.rowAt_rowsBy index h [] path r
  have hentries {path : Path} {r : Row} (hr : RowAt (c.rowsBy index fs 0 [] es).1 path r) :
      r.entries = along fs path es := by
    obtain ⟨key, -, -, -, rfl⟩ := (hat path r).1 hr
    rfl
  have hkey {path : Path} {r : Row} (hr : RowAt (c.rowsBy index fs 0 [] es).1 path r) :
      path.getLast? = some r.key := by
    obtain ⟨key, hlast, -, -, rfl⟩ := (hat path r).1 hr
    exact hlast
  have hdepth {path : Path} {r : Row} (hr : RowAt (c.rowsBy index fs 0 [] es).1 path r) :
      r.depth + 1 = path.length := by
    have hpos := List.length_pos_iff.2 hr.ne_nil
    obtain ⟨key, -, -, -, rfl⟩ := (hat path r).1 hr
    exact Nat.sub_add_cancel hpos
  constructor
  case exists_iff =>
    intro path
    constructor
    · rintro ⟨r, hr⟩
      obtain ⟨key, -, hlen, hne, -⟩ := (hat path r).1 hr
      obtain ⟨e, he⟩ := List.exists_mem_of_ne_nil _ hne
      exact ⟨hr.ne_nil, hlen, e, List.mem_filter.1 he⟩
    · rintro ⟨hnil, hlen, e, he, hon⟩
      have hne : along fs path es ≠ [] := List.ne_nil_of_mem (List.mem_filter.2 ⟨he, hon⟩)
      have hlast := List.getLast?_eq_some_getLast hnil
      exact ⟨_, (hat path _).2 ⟨_, hlast, hlen, hne, rfl⟩⟩
  case unique =>
    intro path r s hr hs
    have hkeys := Option.some.inj ((hkey hr).symm.trans (hkey hs))
    obtain ⟨key, -, -, -, rfl⟩ := (hat path r).1 hr
    obtain ⟨key', -, -, -, rfl⟩ := (hat path s).1 hs
    obtain rfl : key = key' := hkeys
    rfl
  case depth => exact hdepth
  case key => exact hkey
  case label =>
    intro path r hr
    obtain ⟨key, hlast, -, -, rfl⟩ := (hat path r).1 hr
    exact hlast
  case entries => exact hentries
  case positions =>
    intro path r hr
    rw [hentries hr]
    exact hpos.sublist (List.filter_sublist.map _)
  case terminal =>
    intro path r hr
    rw [hdepth hr]
    obtain ⟨key, -, hlen, hne, rfl⟩ := (hat path r).1 hr
    refine (rowsBy_eq_nil_iff c index ((h.drop path.length).along fs path) hne _).trans ?_
    rw [List.drop_eq_nil_iff]
    omega
  case top => exact divides_rowsBy c index h []
  case below =>
    intro path r hr
    obtain ⟨key, -, -, -, rfl⟩ := (hat path r).1 hr
    exact divides_rowsBy c index ((h.drop path.length).along fs path) _

end

/-! ### Tables -/

theorem key?_isSome {type : SemanticType} (h : type ≠ .date) (v : Option Value) :
    (Value.key? type v).isSome := by
  cases v with
  | none => rfl
  | some v => rw [Value.key?_eq_display h]; rfl

namespace Config
variable (c : Config)

/-- What takes part has keys in all fields that sort or sift. -/
theorem isSome_key_of_passes {e : Entry} (he : c.passes e = true) {f : Field}
    (hf : f ∈ c.rows ++ (c.column.toList ++ c.filters.map (·.field))) :
    (canonicalKey? f e).isSome := by
  by_cases hdate : f.type = .date
  · have hfind : (c.dateFields.find? fun f => (canonicalKey? f e).isNone) = none := by
      have hvalid := (Bool.and_eq_true_iff.1 he).1
      simpa [invalidDate?, canonicalKey?] using hvalid
    have hmem : f ∈ c.dateFields := List.mem_filter.2 ⟨hf, by simpa using hdate⟩
    have hkey := List.find?_eq_none.1 hfind f hmem
    exact Option.isSome_iff_ne_none.2 (by simpa using hkey)
  · exact key?_isSome hdate _

/-- Which records are left out depends on which fields hold dates, not on their order. -/
theorem isSome_invalidDate?_congr {c c' : Config} (h : ∀ f, f ∈ c'.dateFields ↔ f ∈ c.dateFields)
    (e : Entry) : (c'.invalidDate? e).isSome = (c.invalidDate? e).isSome := by
  rw [Bool.eq_iff_iff, invalidDate?, invalidDate?, Option.isSome_map, Option.isSome_map,
    List.find?_isSome, List.find?_isSome]
  simp only [h]

theorem keyed_rows (es : List Entry) : Keyed c.rows (c.passed es) := fun _ hf _ he =>
  c.isSome_key_of_passes (List.mem_filter.1 he).2 (List.mem_append_left _ hf)

theorem keyed_column {f : Field} (hf : c.column = some f) (es : List Entry) :
    Keyed [f] (c.passed es) := by
  intro g hg e he
  obtain rfl := List.mem_singleton.1 hg
  apply c.isSome_key_of_passes (List.mem_filter.1 he).2
  simp [hf]

end Config

theorem positions_ofRecords (records : List Record) :
    (Entry.ofRecords records).map (·.position) = List.range records.length := by
  simp [Entry.ofRecords, List.map_map, Function.comp_def, List.range_eq_range']

theorem positions_passed (c : Config) (records : List Record) :
    ((c.passed (Entry.ofRecords records)).map (·.position)).Pairwise (· < ·) := by
  have hall : ((Entry.ofRecords records).map (·.position)).Pairwise (· < ·) := by
    rw [positions_ofRecords]
    exact List.pairwise_lt_range
  exact hall.sublist (List.filter_sublist.map _)

/-- The rows of a table are the tree of groups of the records that take part. -/
theorem tabulate_rowTree (records : List Record) (c : Config) (hc : c.validate = .ok ()) :
    ∃ t, tabulate records c = .ok t ∧
      RowTree c.rows (c.passed (Entry.ofRecords records)) t.rows := by
  refine ⟨c.compute records, by rw [tabulate, hc]; rfl, ?_⟩
  exact rowTree_rowsBy c c.fieldIndex (c.keyed_rows _) (positions_passed c records)

def ledgerConfig : Config where
  rows := [.base "kind" "Kind" .string none, .base "day" "Day" .date none]
  column := some (.base "bank" "Bank" .string none)
  measures := [.base "amount" "Amount" .number (some .sum),
    ⟨"share", "Share", .number, some .sum, some ⟨"[Amount] / [Rate]",
      .binary .divide (.field "amount") (.field "rate")⟩⟩]
  filters := []
  references := [.base "rate" "Rate" .number none]

def ledger : List Record := [
  .ofList [("kind", .text "due"), ("day", .text "2025-03-23"), ("amount", .number 5.0)],
  .ofList [("kind", .text "due"), ("day", .text "soon"), ("amount", .number 2.0)],
  .ofList [("kind", .text "paid"), ("bank", .text "A"), ("amount", .text "7")]]

theorem ledger_rowTree :
    ledgerConfig.validate = .ok () ∧ ∃ t, tabulate ledger ledgerConfig = .ok t ∧
      RowTree ledgerConfig.rows (ledgerConfig.passed (Entry.ofRecords ledger)) t.rows :=
  ⟨by cbv, tabulate_rowTree ledger ledgerConfig (by cbv)⟩

end Crosstab.Pivot
