import Crosstab.Pivot.Table
import Crosstab.Proofs.Field.Catalog
import Mathlib.Data.List.Chain

/-!
# Labels of cross-tab values

A label is split at its last two adjacent colons. The id of a registered field has no two adjacent
colons, so the split falls into the id nowhere; but an id that starts with a colon has three colons
in front of its rest, and then the first of them stays with the column value.
-/

namespace Crosstab.Pivot

/-- Two characters that may stand next to each other in an id. -/
def Apart (a b : Char) : Prop := ¬ (a = ':' ∧ b = ':')

theorem hasSeparator_eq_false_iff {cs : List Char} :
    Catalog.hasSeparator cs = false ↔ cs.IsChain Apart := by
  fun_induction Catalog.hasSeparator cs with
  | case1 cs => simp [Apart]
  | case2 c cs hne ih =>
    rw [ih, List.isChain_cons]
    refine (and_iff_right ?_).symm
    rintro d hd ⟨rfl, rfl⟩
    exact hne cs.tail rfl (List.eq_cons_of_mem_head? hd)
  | case3 => simp

theorem splitBackward_cons {c : Char} {before : List Char} (h : ∀ d ∈ before.head?, Apart c d)
    (after : List Char) :
    splitBackward (c :: before) after = splitBackward before (c :: after) := by
  rw [splitBackward.eq_2]
  rintro rest rfl rfl
  exact h ':' rfl ⟨rfl, rfl⟩

/-- The split passes over what has no two adjacent colons, the first of its own two included. -/
theorem splitBackward_append {before : List Char} (h : (before ++ [':']).IsChain Apart)
    (rest after : List Char) :
    splitBackward (before ++ ':' :: ':' :: rest) after =
      some (rest.reverse, before.reverse ++ after) := by
  induction before generalizing after with
  | nil => rfl
  | cons c before ih =>
    obtain ⟨hhead, htail⟩ := List.isChain_cons.1 h
    have hapart : ∀ d ∈ (before ++ ':' :: ':' :: rest).head?, Apart c d := by
      simpa only [List.append_eq, List.head?_append, List.head?_cons] using hhead
    rw [List.cons_append, splitBackward_cons hapart, ih htail, List.reverse_cons,
      List.append_assoc, List.singleton_append]

theorem splitBackward_reverse {after : List Char} (h : (':' :: after).IsChain Apart)
    (before : List Char) :
    splitBackward (before ++ ':' :: ':' :: after).reverse [] = some (before, after) := by
  have hchain : (after.reverse ++ [':']).IsChain Apart := by
    rw [← List.reverse_cons, List.isChain_reverse]
    exact h.imp fun _ _ hapart hcolons => hapart hcolons.symm
  have hreverse : (before ++ ':' :: ':' :: after).reverse =
      after.reverse ++ ':' :: ':' :: before.reverse := by simp
  rw [hreverse, splitBackward_append hchain, List.reverse_reverse, List.reverse_reverse,
    List.append_nil]

theorem crossLabel_toList (column : String) (id : FieldId) :
    (crossLabel column id).toList = column.toList ++ ':' :: ':' :: id.toList := by
  simp [crossLabel, String.toList_append]

theorem isChain_apart_cons {id : FieldId} (h : Catalog.hasSeparator id.toList = false)
    (hhead : id.toList.head? ≠ some ':') : (':' :: id.toList).IsChain Apart := by
  rw [List.isChain_cons]
  refine ⟨?_, hasSeparator_eq_false_iff.1 h⟩
  rintro d hd ⟨-, rfl⟩
  exact hhead hd

/-- A label gives back its two parts if the id does not start with a colon. -/
theorem splitCrossLabel_crossLabel {id : FieldId} (h : Catalog.hasSeparator id.toList = false)
    (hhead : id.toList.head? ≠ some ':') (column : String) :
    splitCrossLabel (crossLabel column id) = some (column, id) := by
  rw [splitCrossLabel, crossLabel_toList, splitBackward_reverse (isChain_apart_cons h hhead)]
  simp

/-- The colon at the start of an id goes over to the column value. -/
theorem splitCrossLabel_colon {rest : String}
    (h : Catalog.hasSeparator (":" ++ rest).toList = false) (column : String) :
    splitCrossLabel (crossLabel column (":" ++ rest)) = some (column ++ ":", rest) := by
  have hid : (":" ++ rest).toList = ':' :: rest.toList := by simp [String.toList_append]
  have hchain : (':' :: rest.toList).IsChain Apart := hasSeparator_eq_false_iff.1 (hid ▸ h)
  have hlabel : (crossLabel column (":" ++ rest)).toList =
      (column ++ ":").toList ++ ':' :: ':' :: rest.toList := by
    simp [crossLabel_toList, hid, String.toList_append]
  rw [splitCrossLabel, hlabel, splitBackward_reverse hchain]
  simp

theorem exists_eq_colon_append {id : FieldId} (h : id.toList.head? = some ':') :
    ∃ rest, id = ":" ++ rest := by
  refine ⟨String.ofList id.toList.tail, String.toList_inj.1 ?_⟩
  simpa [String.toList_append] using List.eq_cons_of_mem_head? h

theorem crossLabel_colon_append (column rest : String) :
    crossLabel column (":" ++ rest) = crossLabel (column ++ ":") rest := by
  apply String.toList_inj.1
  simp [crossLabel_toList, String.toList_append]

theorem splitCrossLabel_crossLabel_iff {id : FieldId}
    (h : Catalog.hasSeparator id.toList = false) :
    (∀ column, splitCrossLabel (crossLabel column id) = some (column, id)) ↔
      id.toList.head? ≠ some ':' := by
  refine ⟨?_, splitCrossLabel_crossLabel h⟩
  intro hsplit hhead
  obtain ⟨rest, rfl⟩ := exists_eq_colon_append hhead
  have hparts := (splitCrossLabel_colon h "").symm.trans (hsplit "")
  simp at hparts

/-- Labels of ids without two adjacent colons are alike only if the parts are, or if one colon
stands at the end of the column value in one and at the start of the id in the other. -/
theorem crossLabel_eq_iff {column column' : String} {id id' : FieldId}
    (h : Catalog.hasSeparator id.toList = false) (h' : Catalog.hasSeparator id'.toList = false) :
    crossLabel column id = crossLabel column' id' ↔
      column = column' ∧ id = id' ∨ column' = column ++ ":" ∧ id = ":" ++ id' ∨
        column = column' ++ ":" ∧ id' = ":" ++ id := by
  constructor
  · intro hlabel
    have hsplit := congrArg splitCrossLabel hlabel
    by_cases hhead : id.toList.head? = some ':' <;> by_cases hhead' : id'.toList.head? = some ':'
    · obtain ⟨rest, rfl⟩ := exists_eq_colon_append hhead
      obtain ⟨rest', rfl⟩ := exists_eq_colon_append hhead'
      rw [splitCrossLabel_colon h, splitCrossLabel_colon h'] at hsplit
      obtain ⟨hcolumn, rfl⟩ := Prod.mk.inj (Option.some.inj hsplit)
      exact .inl ⟨(String.append_left_inj _).1 hcolumn, rfl⟩
    · obtain ⟨rest, rfl⟩ := exists_eq_colon_append hhead
      rw [splitCrossLabel_colon h, splitCrossLabel_crossLabel h' hhead'] at hsplit
      obtain ⟨rfl, rfl⟩ := Prod.mk.inj (Option.some.inj hsplit)
      exact .inr (.inl ⟨rfl, rfl⟩)
    · obtain ⟨rest, rfl⟩ := exists_eq_colon_append hhead'
      rw [splitCrossLabel_crossLabel h hhead, splitCrossLabel_colon h'] at hsplit
      obtain ⟨rfl, rfl⟩ := Prod.mk.inj (Option.some.inj hsplit)
      exact .inr (.inr ⟨rfl, rfl⟩)
    · rw [splitCrossLabel_crossLabel h hhead, splitCrossLabel_crossLabel h' hhead'] at hsplit
      exact .inl (Prod.mk.inj (Option.some.inj hsplit))
  · rintro (⟨rfl, rfl⟩ | ⟨rfl, rfl⟩ | ⟨rfl, rfl⟩)
    · rfl
    · exact crossLabel_colon_append column id'
    · exact (crossLabel_colon_append column' id).symm

theorem hasSeparator_of_notMem {cs : List Char} (h : ':' ∉ cs) :
    Catalog.hasSeparator cs = false := by
  rw [hasSeparator_eq_false_iff]
  apply List.Pairwise.isChain
  apply List.pairwise_of_forall_mem_list
  rintro a ha b - ⟨rfl, -⟩
  exact h ha

theorem crossLabel_inj {column column' : String} {id id' : FieldId} (hid : ':' ∉ id.toList)
    (hid' : ':' ∉ id'.toList) (h : crossLabel column id = crossLabel column' id') :
    column = column' ∧ id = id' := by
  rcases (crossLabel_eq_iff (hasSeparator_of_notMem hid) (hasSeparator_of_notMem hid')).1 h with
    hparts | ⟨-, rfl⟩ | ⟨-, rfl⟩
  · exact hparts
  · simp [String.toList_append] at hid
  · simp [String.toList_append] at hid'

theorem not_hasSeparator_of_register {c c' : Catalog} {f : Field} (h : c.register f = .ok c') :
    Catalog.hasSeparator f.id.toList = false :=
  (Catalog.register_eq_ok_iff.1 h).1.2.1

/-- The labels of a registered field can be split if its id does not start with a colon, and only
then. Two registered fields share a label in two columns only across such a colon. -/
theorem registered_labels {c c' d d' : Catalog} {f g : Field} (hf : c.register f = .ok c')
    (hg : d.register g = .ok d') :
    ((∀ column, splitCrossLabel (crossLabel column f.id) = some (column, f.id)) ↔
        f.id.toList.head? ≠ some ':') ∧
      ∀ column column', crossLabel column f.id = crossLabel column' g.id ↔
        column = column' ∧ f.id = g.id ∨ column' = column ++ ":" ∧ f.id = ":" ++ g.id ∨
          column = column' ++ ":" ∧ g.id = ":" ++ f.id :=
  ⟨splitCrossLabel_crossLabel_iff (not_hasSeparator_of_register hf), fun _ _ =>
    crossLabel_eq_iff (not_hasSeparator_of_register hf) (not_hasSeparator_of_register hg)⟩

def kinds : Catalog := .ofBase [.base "kind" "Kind" .string none]

def counting (id : FieldId) : Field :=
  ⟨id, "Records", .number, some .sum, some ⟨"count(\"Kind\")", .summary .count "kind"⟩⟩

theorem registered_labels_counting :
    let f := counting "x"
    let g := counting ":x"
    (kinds.register f = .ok { kinds with calculated := [f] } ∧
      kinds.register g = .ok { kinds with calculated := [g] }) ∧
    ((∀ column, splitCrossLabel (crossLabel column f.id) = some (column, f.id)) ↔
        f.id.toList.head? ≠ some ':') ∧
      ∀ column column', crossLabel column f.id = crossLabel column' g.id ↔
        column = column' ∧ f.id = g.id ∨ column' = column ++ ":" ∧ f.id = ":" ++ g.id ∨
          column = column' ++ ":" ∧ g.id = ":" ++ f.id := by
  have hf : kinds.register (counting "x") = .ok { kinds with calculated := [counting "x"] } := by
    cbv
  have hg : kinds.register (counting ":x") = .ok { kinds with calculated := [counting ":x"] } := by
    cbv
  exact ⟨⟨hf, hg⟩, registered_labels hf hg⟩

/-- A field whose id starts with a colon is registered, but its labels are split elsewhere, and one
of them is a label of another field. -/
theorem registered_colon_label :
    kinds.register (counting ":x") = .ok { kinds with calculated := [counting ":x"] } ∧
      splitCrossLabel (crossLabel "A" ":x") = some ("A:", "x") ∧
      crossLabel "A" ":x" = crossLabel "A:" "x" :=
  ⟨by cbv, by decide, by decide⟩

end Crosstab.Pivot
