import Crosstab.Proofs.Pivot.DrillDown
import Crosstab.Proofs.Pivot.Lines

/-!
# Rows on display

The rows on display are the rows of the tree in preorder, except for those with a collapsed row
above them. Rows that stand side by side have different keys, so no path is listed twice and each
leads back to its row. What is expanded matters only where a row is on display and has rows below
it.
-/

namespace Crosstab.Pivot

open Table (FlatRow flattenRow flattenRows)

/-! ### Preorder -/

mutual

def preorderRow (above : Path) : Row → List (Path × Row)
  | ⟨key, label, depth, values, crossValues, children, entries⟩ =>
    (above ++ [key], ⟨key, label, depth, values, crossValues, children, entries⟩) ::
      preorder (above ++ [key]) children

def preorder (above : Path) : List Row → List (Path × Row)
  | [] => []
  | r :: rs => preorderRow above r ++ preorder above rs

end

theorem preorder_cons (above : Path) (r : Row) (rs : List Row) :
    preorder above (r :: rs) =
      (above ++ [r.key], r) :: (preorder (above ++ [r.key]) r.children ++ preorder above rs) := by
  cases r
  rfl

theorem Row.induct {P : List Row → Prop} (nil : P [])
    (cons : ∀ r rs, P r.children → P rs → P (r :: rs)) : ∀ rows, P rows
  | [] => nil
  | ⟨_, _, _, _, _, children, _⟩ :: rs =>
    cons _ rs (Row.induct nil cons children) (Row.induct nil cons rs)

theorem rowAt_cons_rows {r s : Row} {rs : List Row} {path : Path} :
    RowAt (r :: rs) path s ↔
      (path = [r.key] ∧ s = r) ∨ (∃ rest, path = r.key :: rest ∧ RowAt r.children rest s) ∨
        RowAt rs path s := by
  constructor
  · rintro (⟨hs⟩ | ⟨hr', hs⟩)
    · rcases List.mem_cons.1 hs with rfl | hs
      · exact .inl ⟨rfl, rfl⟩
      · exact .inr (.inr (.here hs))
    · rcases List.mem_cons.1 hr' with rfl | hr'
      · exact .inr (.inl ⟨_, rfl, hs⟩)
      · exact .inr (.inr (.under hr' hs))
  · rintro (⟨rfl, rfl⟩ | ⟨rest, rfl, hs⟩ | (⟨hs⟩ | ⟨hr', hs⟩))
    · exact .here List.mem_cons_self
    · exact .under List.mem_cons_self hs
    · exact .here (List.mem_cons_of_mem r hs)
    · exact .under (List.mem_cons_of_mem r hr') hs

/-- A preorder holds the rows that stand somewhere, under their paths. -/
theorem mem_preorder {above path : Path} {rows : List Row} {s : Row} :
    (path, s) ∈ preorder above rows ↔ ∃ rest, path = above ++ rest ∧ RowAt rows rest s := by
  induction rows using Row.induct generalizing above with
  | nil => exact iff_of_false List.not_mem_nil fun ⟨_, _, h⟩ => not_rowAt_nil h
  | cons r rs ihbelow ihrest =>
    rw [preorder_cons, List.mem_cons, List.mem_append, ihbelow, ihrest, Prod.mk.injEq]
    simp only [rowAt_cons_rows]
    constructor
    · rintro (⟨rfl, rfl⟩ | ⟨rest, rfl, hs⟩ | ⟨rest, rfl, hs⟩)
      · exact ⟨_, rfl, .inl ⟨rfl, rfl⟩⟩
      · exact ⟨_, List.append_assoc .., .inr (.inl ⟨rest, rfl, hs⟩)⟩
      · exact ⟨rest, rfl, .inr (.inr hs)⟩
    · rintro ⟨path, rfl, ⟨rfl, rfl⟩ | ⟨rest, rfl, hs⟩ | hs⟩
      · exact .inl ⟨rfl, rfl⟩
      · exact .inr (.inl ⟨rest, List.append_cons .., hs⟩)
      · exact .inr (.inr ⟨path, rfl, hs⟩)

theorem SiblingsDiffer.tail {r : Row} {rs : List Row} (h : SiblingsDiffer (r :: rs)) :
    SiblingsDiffer rs :=
  ⟨(List.nodup_cons.1 h.top).2, fun hs => h.below (rowAt_cons_rows.2 (.inr (.inr hs)))⟩

theorem RowAt.exists_head {rows : List Row} {path : Path} {s : Row} (h : RowAt rows path s) :
    ∃ r ∈ rows, path.head? = some r.key := by
  cases h with
  | here hr => exact ⟨_, hr, rfl⟩
  | under hr _ => exact ⟨_, hr, rfl⟩

/-- No path comes twice where rows side by side have different keys. -/
theorem nodup_paths_preorder {rows : List Row} (h : SiblingsDiffer rows) (above : Path) :
    ((preorder above rows).map Prod.fst).Nodup := by
  induction rows using Row.induct generalizing above with
  | nil => exact List.nodup_nil
  | cons r rs ihbelow ihrest =>
    have hbelow := ihbelow (h.children List.mem_cons_self) (above ++ [r.key])
    have hrest := ihrest h.tail above
    have hkey : r.key ∉ rs.map (·.key) := (List.nodup_cons.1 h.top).1
    -- the paths below a row go on from its own, and those of its siblings part from it
    have hlonger {path : Path}
        (hpath : path ∈ (preorder (above ++ [r.key]) r.children).map Prod.fst) :
        ∃ rest, rest ≠ [] ∧ path = above ++ r.key :: rest := by
      obtain ⟨⟨_, s⟩, hmem, rfl⟩ := List.mem_map.1 hpath
      obtain ⟨rest, rfl, hs⟩ := mem_preorder.1 hmem
      exact ⟨rest, hs.ne_nil, List.append_assoc ..⟩
    have hother {path : Path} (hpath : path ∈ (preorder above rs).map Prod.fst) (rest : Path) :
        path ≠ above ++ r.key :: rest := by
      obtain ⟨⟨_, s⟩, hmem, rfl⟩ := List.mem_map.1 hpath
      obtain ⟨rest', rfl, hs⟩ := mem_preorder.1 hmem
      obtain ⟨r', hr', hhead⟩ := hs.exists_head
      intro heq
      rw [List.append_cancel_left heq] at hhead
      exact hkey (Option.some.inj hhead ▸ List.mem_map_of_mem hr')
    rw [preorder_cons, List.map_cons, List.map_append, List.nodup_cons, List.nodup_append]
    refine ⟨?_, hbelow, hrest, ?_⟩
    · rw [List.mem_append]
      rintro (hpath | hpath)
      · obtain ⟨rest, hne, heq⟩ := hlonger hpath
        exact hne (List.cons.inj (List.append_cancel_left heq)).2.symm
      · exact hother hpath [] rfl
    · rintro path hpath _ hpath' rfl
      obtain ⟨rest, -, heq⟩ := hlonger hpath
      exact hother hpath' rest heq

/-! ### Expanded rows -/

/-- The rows above the one at a path, from some depth on, are expanded. -/
def ShownBelow (expanded : List Path) (depth : Nat) (path : Path) : Prop :=
  ∀ n < path.length, depth < n → path.take n ∈ expanded

instance (expanded : List Path) (depth : Nat) (path : Path) :
    Decidable (ShownBelow expanded depth path) :=
  inferInstanceAs (Decidable (∀ n < path.length, depth < n → path.take n ∈ expanded))

def Shown (expanded : List Path) (path : Path) : Prop := ShownBelow expanded 0 path

instance (expanded : List Path) (path : Path) : Decidable (Shown expanded path) :=
  inferInstanceAs (Decidable (ShownBelow expanded 0 path))

def displayed (expanded : List Path) (x : Path × Row) : FlatRow :=
  ⟨x.1, x.2, !x.2.children.isEmpty, !x.2.children.isEmpty && expanded.contains x.1⟩

theorem flattenRows_cons (expanded : List Path) (above : Path) (r : Row) (rs : List Row) :
    flattenRows expanded above (r :: rs) =
      displayed expanded (above ++ [r.key], r) ::
        ((if (displayed expanded (above ++ [r.key], r)).isExpanded then
          flattenRows expanded (above ++ [r.key]) r.children else []) ++
        flattenRows expanded above rs) := by
  cases r
  rfl

theorem shownBelow_concat (expanded : List Path) (above : Path) (key : String) :
    ShownBelow expanded above.length (above ++ [key]) := by
  intro n hn hdepth
  rw [List.length_append, List.length_singleton] at hn
  omega

theorem shownBelow_append {expanded : List Path} {above : Path} {key : String} {rest : Path}
    (hrest : rest ≠ []) :
    ShownBelow expanded above.length (above ++ [key] ++ rest) ↔
      above ++ [key] ∈ expanded ∧
        ShownBelow expanded (above ++ [key]).length (above ++ [key] ++ rest) := by
  have hpos := List.length_pos_iff.2 hrest
  have hlength : (above ++ [key]).length = above.length + 1 := List.length_append
  constructor
  · intro h
    refine ⟨?_, fun n hn hdepth => h n hn (by omega)⟩
    have hsum : (above ++ [key] ++ rest).length = (above ++ [key]).length + rest.length :=
      List.length_append
    have hlt : (above ++ [key]).length < (above ++ [key] ++ rest).length := by omega
    have hrow := h (above ++ [key]).length hlt (by omega)
    rwa [List.take_left] at hrow
  · rintro ⟨hrow, h⟩ n hn hdepth
    rcases Nat.eq_or_lt_of_le (Nat.succ_le_of_lt hdepth) with rfl | hlt
    · rwa [List.take_left' hlength]
    · exact h n hn (by omega)

/-- Nothing is on display below a collapsed row. -/
theorem filter_shownBelow (expanded : List Path) (above : Path) (key : String) (rows : List Row) :
    (preorder (above ++ [key]) rows).filter (ShownBelow expanded above.length ·.1) =
      if above ++ [key] ∈ expanded then
        (preorder (above ++ [key]) rows).filter
          (ShownBelow expanded (above ++ [key]).length ·.1) else [] := by
  have hshown {x : Path × Row} (hx : x ∈ preorder (above ++ [key]) rows) :
      ShownBelow expanded above.length x.1 ↔
        above ++ [key] ∈ expanded ∧ ShownBelow expanded (above ++ [key]).length x.1 := by
    obtain ⟨path, s⟩ := x
    obtain ⟨rest, rfl, hs⟩ := mem_preorder.1 hx
    exact shownBelow_append hs.ne_nil
  split_ifs with hrow
  · apply List.filter_congr
    intro x hx
    rw [decide_eq_decide, hshown hx, and_iff_right hrow]
  · apply List.filter_eq_nil_iff.2
    intro x hx
    rw [decide_eq_true_iff, hshown hx]
    exact fun h => hrow h.1

/-- A row without children has none to list, so it does not matter whether it is expanded. -/
theorem flattenRows_children (expanded : List Path) (path : Path) (r : Row) :
    (if (displayed expanded (path, r)).isExpanded then
      flattenRows expanded path r.children else []) =
      if path ∈ expanded then flattenRows expanded path r.children else [] := by
  cases hchildren : r.children with
  | nil => simp [flattenRows]
  | cons s ss => simp [displayed, hchildren]

/-- Flattening lists the rows in preorder and leaves out those below a collapsed row. -/
theorem flattenRows_eq (expanded : List Path) (above : Path) (rows : List Row) :
    flattenRows expanded above rows =
      ((preorder above rows).filter (ShownBelow expanded above.length ·.1)).map
        (displayed expanded) := by
  induction rows using Row.induct generalizing above with
  | nil => rfl
  | cons r rs ihbelow ihrest =>
    rw [flattenRows_cons, flattenRows_children, ihbelow, ihrest, preorder_cons,
      List.filter_cons_of_pos (by simpa using shownBelow_concat expanded above r.key),
      List.filter_append, List.map_cons, List.map_append, filter_shownBelow,
      apply_ite (List.map (displayed expanded)), List.map_nil]

theorem flatten_eq (t : Table) (expanded : List Path) :
    t.flatten expanded =
      ((preorder [] t.rows).filter (Shown expanded ·.1)).map (displayed expanded) :=
  flattenRows_eq expanded [] t.rows

/-! ### What does not matter -/

theorem RowAt.exists_above {rows : List Row} {path : Path} {r : Row} (h : RowAt rows path r)
    {n : Nat} (hpos : 0 < n) (hn : n < path.length) :
    ∃ s, RowAt rows (path.take n) s ∧ s.children ≠ [] := by
  induction h generalizing n with
  | here hr => exact absurd hn (by rw [List.length_singleton]; omega)
  | @under rows r s path hr hs ih =>
    obtain ⟨n, rfl⟩ := Nat.exists_eq_add_one.2 hpos
    rw [List.take_succ_cons]
    cases n with
    | zero =>
      obtain ⟨s', hs', -⟩ := hs.exists_head
      exact ⟨r, .here hr, List.ne_nil_of_mem hs'⟩
    | succ n =>
      obtain ⟨s', hs', hne⟩ := ih (Nat.succ_pos n) (Nat.lt_of_succ_lt_succ hn)
      exact ⟨s', .under hr hs', hne⟩

/-- Two lists of expanded paths agree where a row is on display that has rows below it. -/
def ExpandAlike (rows : List Row) (expanded expanded' : List Path) : Prop :=
  ∀ path r, RowAt rows path r → r.children ≠ [] → Shown expanded path →
    (path ∈ expanded' ↔ path ∈ expanded)

theorem shown_take_iff {expanded : List Path} {path : Path} {n : Nat} :
    Shown expanded (path.take n) ↔
      ∀ m < n, m < path.length → 0 < m → path.take m ∈ expanded := by
  constructor
  · intro h m hn hm hpos
    have hrow := h m (by rw [List.length_take]; omega) hpos
    rwa [List.take_take, Nat.min_eq_left (Nat.le_of_lt hn)] at hrow
  · intro h m hm hpos
    rw [List.length_take] at hm
    rw [List.take_take, Nat.min_eq_left (by omega)]
    exact h m (by omega) (by omega) hpos

theorem ExpandAlike.shown_iff {rows : List Row} {expanded expanded' : List Path}
    (h : ExpandAlike rows expanded expanded') {path : Path} {r : Row} (hr : RowAt rows path r) :
    Shown expanded' path ↔ Shown expanded path := by
  constructor
  · intro hshown n hn hpos
    -- the rows above come on display one after the other
    induction n using Nat.strongRecOn with
    | ind n ih =>
      obtain ⟨s, hs, hne⟩ := hr.exists_above hpos hn
      exact (h _ s hs hne (shown_take_iff.2 ih)).1 (hshown n hn hpos)
  · intro hshown n hn hpos
    obtain ⟨s, hs, hne⟩ := hr.exists_above hpos hn
    exact (h _ s hs hne (shown_take_iff.2 fun m _ => hshown m)).2 (hshown n hn hpos)

theorem ExpandAlike.flatten_eq {t : Table} {expanded expanded' : List Path}
    (h : ExpandAlike t.rows expanded expanded') : t.flatten expanded' = t.flatten expanded := by
  have hrow {x : Path × Row} (hx : x ∈ preorder [] t.rows) : RowAt t.rows x.1 x.2 := by
    obtain ⟨rest, hrest, hr⟩ := mem_preorder.1 hx
    exact hrest ▸ hr
  have hfilter : (preorder [] t.rows).filter (Shown expanded' ·.1) =
      (preorder [] t.rows).filter (Shown expanded ·.1) := by
    apply List.filter_congr
    intro x hx
    rw [decide_eq_decide, h.shown_iff (hrow hx)]
  rw [Pivot.flatten_eq, Pivot.flatten_eq, hfilter]
  apply List.map_congr_left
  intro x hx
  obtain ⟨hmem, hshown⟩ := List.mem_filter.1 hx
  rw [displayed, displayed]
  cases hchildren : x.2.children with
  | nil => rfl
  | cons s ss =>
    have hne : x.2.children ≠ [] := by rw [hchildren]; exact List.cons_ne_nil s ss
    have hsame := h x.1 x.2 (hrow hmem) hne (of_decide_eq_true hshown)
    have hcontains : expanded'.contains x.1 = expanded.contains x.1 := by
      rw [Bool.eq_iff_iff, List.contains_iff_mem, List.contains_iff_mem, hsame]
    rw [hcontains]

/-! ### Tables -/

/-- A list of rows shows a table with some rows expanded: it has the rows in preorder that have only
expanded rows above them, each once and under the path that leads to it. -/
structure Displays (t : Table) (expanded : List Path) (flat : List FlatRow) : Prop where
  order : flat.map (fun x => (x.path, x.row)) =
    (preorder [] t.rows).filter (Shown expanded ·.1)
  rows (path : Path) (r : Row) : (∃ x ∈ flat, x.path = path ∧ x.row = r) ↔
    RowAt t.rows path r ∧ Shown expanded path
  paths : (flat.map (·.path)).Nodup
  ne_nil {x : FlatRow} : x ∈ flat → x.path ≠ []
  found {x : FlatRow} : x ∈ flat → t.findRow x.path = some x.row
  hasChildren {x : FlatRow} : x ∈ flat → (x.hasChildren = true ↔ x.row.children ≠ [])
  isExpanded {x : FlatRow} : x ∈ flat →
    (x.isExpanded = true ↔ x.row.children ≠ [] ∧ x.path ∈ expanded)

theorem displays_flatten {t : Table} (h : SiblingsDiffer t.rows) (expanded : List Path) :
    Displays t expanded (t.flatten expanded) := by
  have hmem {x : FlatRow} : x ∈ t.flatten expanded ↔
      (RowAt t.rows x.path x.row ∧ Shown expanded x.path) ∧
        x = displayed expanded (x.path, x.row) := by
    rw [flatten_eq, List.mem_map]
    constructor
    · rintro ⟨⟨path, r⟩, hr, rfl⟩
      obtain ⟨hr, hshown⟩ := List.mem_filter.1 hr
      obtain ⟨rest, hrest, hr⟩ := mem_preorder.1 hr
      exact ⟨⟨hrest ▸ hr, of_decide_eq_true hshown⟩, rfl⟩
    · rintro ⟨⟨hr, hshown⟩, heq⟩
      refine ⟨_, List.mem_filter.2 ⟨mem_preorder.2 ⟨_, rfl, hr⟩, ?_⟩, heq.symm⟩
      exact decide_eq_true hshown
  have horder : (t.flatten expanded).map (fun x => (x.path, x.row)) =
      (preorder [] t.rows).filter (Shown expanded ·.1) := by
    rw [flatten_eq, List.map_map]
    exact List.map_id _
  have hrow {x : FlatRow} (hx : x ∈ t.flatten expanded) := (hmem.1 hx).1.1
  constructor
  case order => exact horder
  case rows =>
    intro path r
    constructor
    · rintro ⟨x, hx, rfl, rfl⟩
      exact (hmem.1 hx).1
    · intro hr
      exact ⟨displayed expanded (path, r), hmem.2 ⟨hr, rfl⟩, rfl, rfl⟩
  case paths =>
    have hpaths : (t.flatten expanded).map (·.path) =
        ((preorder [] t.rows).filter (Shown expanded ·.1)).map Prod.fst := by
      rw [← horder, List.map_map]
      rfl
    rw [hpaths]
    exact (nodup_paths_preorder h []).sublist (List.filter_sublist.map Prod.fst)
  case ne_nil => exact fun hx => (hrow hx).ne_nil
  case found => exact fun hx => (findIn_eq_some_iff h).2 (hrow hx)
  case hasChildren =>
    intro x hx
    rw [(hmem.1 hx).2]
    simp [displayed]
  case isExpanded =>
    intro x hx
    rw [(hmem.1 hx).2]
    simp [displayed]

/-- Whatever paths are expanded, the rows of a table on display are those in preorder that have
only expanded rows above them. Paths that lead to no row, to a row below a collapsed one or to one
without rows below it may be expanded or not. -/
theorem tabulate_flatten (records : List Record) (c : Config) (hc : c.validate = .ok ()) :
    ∃ t, tabulate records c = .ok t ∧
      ∀ expanded, Displays t expanded (t.flatten expanded) ∧
        ∀ expanded', ExpandAlike t.rows expanded expanded' →
          t.flatten expanded' = t.flatten expanded := by
  have hdiffer := (c.rowTree_compute records).siblingsDiffer
  refine ⟨_, tabulate_of_validate hc records, fun expanded => ?_⟩
  exact ⟨displays_flatten hdiffer expanded, fun _ h => h.flatten_eq⟩

theorem ledger_flatten :
    ledgerConfig.validate = .ok () ∧ ∃ t, tabulate ledger ledgerConfig = .ok t ∧
      ∀ expanded, Displays t expanded (t.flatten expanded) ∧
        ∀ expanded', ExpandAlike t.rows expanded expanded' →
          t.flatten expanded' = t.flatten expanded :=
  ⟨by cbv, tabulate_flatten ledger ledgerConfig (by cbv)⟩

end Crosstab.Pivot
