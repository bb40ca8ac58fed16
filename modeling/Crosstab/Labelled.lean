/-!
# Values under labels

A `Labelled α` holds at most one value under each label, in the order in which the labels first
came. Setting a label again replaces its value. `get?` is what the rest of the library reads, and
`get?_set` says what each change does to it.
-/

namespace Crosstab

namespace Entries
variable {α : Type}

def set (label : String) (value : α) : List (String × α) → List (String × α)
  | [] => [(label, value)]
  | (l, v) :: es => if l = label then (l, value) :: es else (l, v) :: set label value es

def get? (label : String) : List (String × α) → Option α
  | [] => none
  | (l, v) :: es => if l = label then some v else get? label es

theorem mem_labels_set {label l : String} {value : α} {es : List (String × α)} :
    l ∈ (set label value es).map Prod.fst ↔ l = label ∨ l ∈ es.map Prod.fst := by
  induction es with
  | nil => simp [set]
  | cons e es ih => by_cases h : e.1 = label <;> grind [set]

theorem nodup_labels_set (label : String) (value : α) {es : List (String × α)}
    (h : (es.map Prod.fst).Nodup) : ((set label value es).map Prod.fst).Nodup := by
  induction es with
  | nil => simp [set]
  | cons e es ih =>
    rw [List.map_cons, List.nodup_cons] at h
    by_cases hl : e.1 = label
    · simpa [set, hl] using h
    · simp only [set, if_neg hl, List.map_cons, List.nodup_cons, mem_labels_set, not_or]
      exact ⟨⟨hl, h.1⟩, ih h.2⟩

theorem get?_set (label l : String) (value : α) (es : List (String × α)) :
    get? l (set label value es) = if l = label then some value else get? l es := by
  induction es with
  | nil => grind [set, get?]
  | cons e es ih => by_cases h : e.1 = label <;> grind [set, get?]

theorem mem_labels_iff {l : String} {es : List (String × α)} :
    l ∈ es.map Prod.fst ↔ (get? l es).isSome := by
  induction es with
  | nil => simp [get?]
  | cons e es ih => by_cases h : e.1 = l <;> grind [get?]

end Entries

structure Labelled (α : Type) where
  entries : List (String × α)
  nodup : (entries.map Prod.fst).Nodup

namespace Labelled
variable {α : Type}

def empty : Labelled α := ⟨[], List.nodup_nil⟩

instance : EmptyCollection (Labelled α) := ⟨empty⟩
instance : Inhabited (Labelled α) := ⟨empty⟩

def set (m : Labelled α) (label : String) (value : α) : Labelled α :=
  ⟨Entries.set label value m.entries, Entries.nodup_labels_set label value m.nodup⟩

def get? (m : Labelled α) (label : String) : Option α := Entries.get? label m.entries

def setAll (m : Labelled α) (es : List (String × α)) : Labelled α :=
  es.foldl (fun m e => m.set e.1 e.2) m

/-- Values under labels, of which the last one under a label counts. -/
def ofList (es : List (String × α)) : Labelled α := empty.setAll es

def labels (m : Labelled α) : List String := m.entries.map Prod.fst

def size (m : Labelled α) : Nat := m.entries.length

def isEmpty (m : Labelled α) : Bool := m.entries.isEmpty

@[simp]
theorem get?_empty (l : String) : (empty : Labelled α).get? l = none := rfl

theorem get?_set (m : Labelled α) (label l : String) (value : α) :
    (m.set label value).get? l = if l = label then some value else m.get? l :=
  Entries.get?_set label l value m.entries

/-- Of values under distinct labels each one counts. -/
theorem get?_setAll {es : List (String × α)} (h : (es.map Prod.fst).Nodup) (m : Labelled α)
    (l : String) (value : α) :
    (m.setAll es).get? l = some value ↔
      (l, value) ∈ es ∨ l ∉ es.map Prod.fst ∧ m.get? l = some value := by
  induction es generalizing m with
  | nil => simp [setAll]
  | cons e es ih =>
    obtain ⟨hfresh, hes⟩ := List.nodup_cons.1 h
    have hstep : m.setAll (e :: es) = (m.set e.1 e.2).setAll es := rfl
    rw [hstep, ih hes, get?_set]
    by_cases hl : l = e.1
    · subst hl
      have hmem : (e.1, value) ∉ es := fun hv => hfresh (List.mem_map.2 ⟨_, hv, rfl⟩)
      grind
    · grind

theorem get?_ofList {es : List (String × α)} (h : (es.map Prod.fst).Nodup) (l : String)
    (value : α) : (ofList es).get? l = some value ↔ (l, value) ∈ es := by
  simp [ofList, get?_setAll h]

theorem mem_labels_iff {m : Labelled α} {l : String} : l ∈ m.labels ↔ (m.get? l).isSome :=
  Entries.mem_labels_iff

end Labelled

end Crosstab
