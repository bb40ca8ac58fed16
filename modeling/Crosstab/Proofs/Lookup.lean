import Mathlib.Data.List.Nodup

/-!
# Look-up by key

A list in which no key occurs twice holds one entry for each of its keys, so a look-up finds an entry
wherever it stands, and taking out the first entry with a key takes out every entry with it. Leaving out what
came before makes the entries of any list distinct.
-/

namespace Crosstab
variable {α β : Type} [DecidableEq β] {key : α → β} {l : List α}

theorem find?_key_eq_some_iff (h : (l.map key).Nodup) {k : β} {a : α} :
    l.find? (key · = k) = some a ↔ a ∈ l ∧ key a = k := by
  constructor
  · intro ha
    exact ⟨List.mem_of_find?_eq_some ha, by simpa using List.find?_some ha⟩
  · rintro ⟨ha, hkey⟩
    have hsome : (l.find? (key · = k)).isSome := List.find?_isSome.2 ⟨a, ha, by simpa⟩
    obtain ⟨b, hb⟩ := Option.isSome_iff_exists.1 hsome
    have hba : key b = key a := by simpa [hkey] using List.find?_some hb
    rw [hb, List.inj_on_of_nodup_map h (List.mem_of_find?_eq_some hb) ha hba]

theorem filter_key_eq_singleton (h : (l.map key).Nodup) {a : α} (ha : a ∈ l) :
    l.filter (key · = key a) = [a] := by
  induction l with
  | nil => cases ha
  | cons b l ih =>
    obtain ⟨hnot, hnodup⟩ := List.nodup_cons.1 h
    rcases List.mem_cons.1 ha with rfl | ha
    · have hrest : l.filter (key · = key a) = [] := by
        apply List.filter_eq_nil_iff.2
        intro c hc
        have hne : key c ≠ key a := fun hca => hnot (hca ▸ List.mem_map_of_mem hc)
        simpa using hne
      rw [List.filter_cons_of_pos (by simp), hrest]
    · have hne : key b ≠ key a := fun hba => hnot (hba ▸ List.mem_map_of_mem ha)
      rw [List.filter_cons_of_neg (by simpa using hne), ih hnodup ha]

theorem eraseP_key_eq_filter (h : (l.map key).Nodup) (k : β) :
    l.eraseP (key · = k) = l.filter (key · ≠ k) := by
  induction l with
  | nil => rfl
  | cons a l ih =>
    obtain ⟨hnot, hnodup⟩ := List.nodup_cons.1 h
    by_cases ha : key a = k
    · have hrest : l.filter (key · ≠ k) = l := by
        apply List.filter_eq_self.2
        intro b hb
        have hne : key b ≠ k := fun hbk => hnot (ha ▸ hbk ▸ List.mem_map_of_mem hb)
        simpa using hne
      rw [List.eraseP_cons_of_pos (by simpa using ha), List.filter_cons_of_neg (by simpa using ha),
        hrest]
    · rw [List.eraseP_cons_of_neg (by simpa using ha), List.filter_cons_of_pos (by simpa using ha),
        ih hnodup]

/-- What a look-up finds is found again among the entries that pass a test, if it passes itself. -/
theorem find?_filter_of_find? {p q : α → Bool} {a : α} (h : l.find? p = some a)
    (ha : q a = true) : (l.filter q).find? p = some a := by
  obtain ⟨hpa, before, after, rfl, hbefore⟩ := List.find?_eq_some_iff_append.1 h
  have hnone : (before.filter q).find? p = none := by
    apply List.find?_eq_none.2
    intro b hb
    simpa using hbefore b (List.mem_filter.1 hb).1
  rw [List.filter_append, List.filter_cons_of_pos ha, List.find?_append, hnone,
    List.find?_cons_of_pos hpa, Option.none_or]

/-! ### Distinct entries -/

section
variable {γ : Type}

theorem eraseDups_filter [BEq γ] [LawfulBEq γ] (p : γ → Bool) (bs : List γ) :
    (bs.filter p).eraseDups = bs.eraseDups.filter p := by
  match bs with
  | [] => rfl
  | b :: bs =>
    have hlt : (bs.filter fun x => !x == b).length < (b :: bs).length :=
      Nat.lt_succ_of_le (List.length_filter_le _ _)
    have ih := eraseDups_filter p (bs.filter fun x => !x == b)
    rw [List.eraseDups_cons]
    by_cases hb : p b = true
    · rw [List.filter_cons_of_pos hb, List.filter_cons_of_pos hb, List.eraseDups_cons, ← ih,
        List.filter_comm]
    · have hall : (bs.filter fun x => !x == b).filter p = bs.filter p := by
        rw [List.filter_comm]
        apply List.filter_eq_self.2
        intro x hx
        have hpx := (List.mem_filter.1 hx).2
        have hne : x ≠ b := by rintro rfl; exact hb hpx
        simpa using hne
      rw [List.filter_cons_of_neg hb, List.filter_cons_of_neg hb, ← ih, hall]
termination_by bs.length
decreasing_by exact hlt

theorem nodup_eraseDups [BEq γ] [LawfulBEq γ] (bs : List γ) : bs.eraseDups.Nodup := by
  match bs with
  | [] => exact List.nodup_nil
  | b :: bs =>
    have hlt : (bs.filter fun x => !x == b).length < (b :: bs).length :=
      Nat.lt_succ_of_le (List.length_filter_le _ _)
    rw [List.eraseDups_cons, List.nodup_cons]
    refine ⟨?_, nodup_eraseDups _⟩
    rw [List.mem_eraseDups, List.mem_filter]
    simp
termination_by bs.length
decreasing_by exact hlt

end

end Crosstab
