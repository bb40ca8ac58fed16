import Crosstab.Proofs.Pivot.Groups

/-!
# The tree of rows

`RowAt` finds rows by their paths without deciding between siblings. Over entries that have keys in
all row fields, `rowAt_rowsBy` says which rows there are: one at each path that leads to an entry,
built from the entries that the path leads to and from nothing else.
-/

namespace Crosstab.Pivot

/-- A row stands at a path below some rows. -/
inductive RowAt : List Row → Path → Row → Prop
  | here {rows : List Row} {r : Row} (hr : r ∈ rows) : RowAt rows [r.key] r
  | under {rows : List Row} {r s : Row} {path : Path} (hr : r ∈ rows)
      (hs : RowAt r.children path s) : RowAt rows (r.key :: path) s

theorem RowAt.ne_nil {rows : List Row} {path : Path} {r : Row} (h : RowAt rows path r) :
    path ≠ [] := by
  cases h <;> exact List.cons_ne_nil _ _

theorem RowAt.child {rows : List Row} {path : Path} {r s : Row} (h : RowAt rows path r)
    (hs : s ∈ r.children) : RowAt rows (path ++ [s.key]) s := by
  induction h with
  | here hr => exact .under hr (.here hs)
  | under hr _ ih => exact .under hr (ih hs)

theorem not_rowAt_nil {path : Path} {r : Row} : ¬ RowAt [] path r := by
  rintro (⟨hr⟩ | ⟨hr, -⟩) <;> cases hr

theorem rowAt_cons {rows : List Row} {key : String} {path : Path} {s : Row} :
    RowAt rows (key :: path) s ↔
      ∃ r ∈ rows, r.key = key ∧ (path = [] ∧ s = r ∨ RowAt r.children path s) := by
  constructor
  · rintro (⟨hr⟩ | ⟨hr, hs⟩)
    · exact ⟨s, hr, rfl, .inl ⟨rfl, rfl⟩⟩
    · exact ⟨_, hr, rfl, .inr hs⟩
  · rintro ⟨r, hr, rfl, ⟨rfl, rfl⟩ | hs⟩
    · exact .here hr
    · exact .under hr hs

def onPath (fs : List Field) (path : Path) (e : Entry) : Bool :=
  (fs.zip path).all fun (f, key) => canonicalKey? f e = some key

def along (fs : List Field) (path : Path) (es : List Entry) : List Entry :=
  es.filter (onPath fs path)

@[simp] theorem along_nil (fs : List Field) (es : List Entry) : along fs [] es = es := by
  simp [along, onPath]

theorem along_cons (f : Field) (fs : List Field) (key : String) (path : Path) (es : List Entry) :
    along (f :: fs) (key :: path) es = along fs path (withKey f key es) := by
  rw [along, along, withKey, List.filter_filter]
  apply List.filter_congr
  intro e _
  exact Bool.and_comm _ _

theorem Keyed.withKey {fs : List Field} {es : List Entry} (h : Keyed fs es) (f : Field)
    (key : String) : Keyed fs (withKey f key es) :=
  h.filter _

theorem Keyed.along {fs : List Field} {es : List Entry} (h : Keyed fs es) (gs : List Field)
    (path : Path) : Keyed fs (along gs path es) :=
  h.filter _

namespace Config
variable (c : Config) (index : FieldIndex)

/-- The row at a path, made of the entries that the path leads to; `below` are the row fields
that come after those of the path. -/
def rowFor (below : List Field) (path : Path) (key : String) (es : List Entry) : Row where
  key := key
  label := key
  depth := path.length - 1
  values := .ofList (cellValues (c.outcomes index es))
  crossValues := .ofList (c.crossTab index path es).values
  children := (c.rowsBy index below path.length path es).1
  entries := es

theorem rowsBy_cons_rows (f : Field) (fs : List Field) (above : Path) (es : List Entry) :
    (c.rowsBy index (f :: fs) above.length above es).1 =
      (groupBy f es).map fun g => c.rowFor index fs (above ++ [g.1]) g.1 g.2 := by
  simp [rowsBy, rowFor]

theorem rowsBy_rows {f : Field} {fs : List Field} {es : List Entry} (h : Keyed (f :: fs) es)
    (above : Path) :
    (c.rowsBy index (f :: fs) above.length above es).1 =
      (canonicalKeys f es).map fun key =>
        c.rowFor index fs (above ++ [key]) key (withKey f key es) := by
  rw [rowsBy_cons_rows, groupBy_eq h.head, List.map_map]
  rfl

theorem rowsBy_faults {f : Field} {fs : List Field} {es : List Entry} (h : Keyed (f :: fs) es)
    (above : Path) :
    (c.rowsBy index (f :: fs) above.length above es).2 =
      (canonicalKeys f es).flatMap fun key =>
        cellFaults (above ++ [key]) none (c.outcomes index (withKey f key es)) ++
          (c.crossTab index (above ++ [key]) (withKey f key es)).faults ++
          (c.rowsBy index fs (above ++ [key]).length (above ++ [key]) (withKey f key es)).2 := by
  simp [rowsBy, groupBy_eq h.head, List.flatMap_map]

theorem rowAt_rowsBy_cons {f : Field} {fs : List Field} {es : List Entry}
    (h : Keyed (f :: fs) es) (above : Path) (key : String) (path : Path) (r : Row) :
    RowAt (c.rowsBy index (f :: fs) above.length above es).1 (key :: path) r ↔
      withKey f key es ≠ [] ∧
        (path = [] ∧ r = c.rowFor index fs (above ++ [key]) key (withKey f key es) ∨
          RowAt (c.rowsBy index fs (above ++ [key]).length (above ++ [key])
            (withKey f key es)).1 path r) := by
  rw [rowAt_cons, rowsBy_rows c index h]
  constructor
  · rintro ⟨s, hs, hkey, hr⟩
    obtain ⟨k, hk, rfl⟩ := List.mem_map.1 hs
    obtain rfl : k = key := hkey
    exact ⟨mem_canonicalKeys.1 hk, hr⟩
  · rintro ⟨hne, hr⟩
    exact ⟨_, List.mem_map.2 ⟨key, mem_canonicalKeys.2 hne, rfl⟩, rfl, hr⟩

theorem rowAt_rowsBy {fs : List Field} {es : List Entry} (h : Keyed fs es) (above path : Path)
    (r : Row) :
    RowAt (c.rowsBy index fs above.length above es).1 path r ↔
      ∃ key, path.getLast? = some key ∧ path.length ≤ fs.length ∧ along fs path es ≠ [] ∧
        r = c.rowFor index (fs.drop path.length) (above ++ path) key (along fs path es) := by
  induction fs generalizing above path es with
  | nil =>
    refine iff_of_false not_rowAt_nil ?_
    rintro ⟨key, hlast, hlen, -⟩
    obtain rfl := List.length_eq_zero_iff.1 (Nat.le_zero.1 hlen)
    cases hlast
  | cons f fs ih =>
    cases path with
    | nil => exact iff_of_false (fun hr => hr.ne_nil rfl) nofun
    | cons key path =>
      rw [c.rowAt_rowsBy_cons index h, ih (h.tail.withKey f key), along_cons]
      cases path with
      | nil =>
        rw [along_nil]
        constructor
        · rintro ⟨hne, ⟨-, rfl⟩ | ⟨k, hlast, -⟩⟩
          · exact ⟨key, rfl, Nat.succ_le_succ (Nat.zero_le _), hne, rfl⟩
          · cases hlast
        · rintro ⟨k, hlast, -, hne, rfl⟩
          obtain rfl : key = k := Option.some.inj hlast
          exact ⟨hne, .inl ⟨rfl, rfl⟩⟩
      | cons key' path =>
        have hpath : (above ++ [key]) ++ key' :: path = above ++ key :: key' :: path := by
          rw [List.append_assoc, List.singleton_append]
        rw [hpath, List.getLast?_cons_cons]
        -- a longer path never ends at this row, and it leads on only if the group has an entry
        constructor
        · rintro ⟨-, ⟨hnil, -⟩ | ⟨k, hlast, hlen, hr⟩⟩
          · cases hnil
          · exact ⟨k, hlast, Nat.succ_le_succ hlen, hr⟩
        · rintro ⟨k, hlast, hlen, hne, hr⟩
          refine ⟨fun hnil => hne (by rw [hnil]; rfl), .inr ⟨k, hlast, ?_, hne, hr⟩⟩
          exact Nat.le_of_succ_le_succ hlen

end Config

end Crosstab.Pivot
