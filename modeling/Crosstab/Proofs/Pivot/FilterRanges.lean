import Crosstab.Proofs.Pivot.FilterOrder

/-!
# Filters and ranges

Values of a field that all compare as dates, all as numbers, or all as texts have one order, to
which every filter of the field keeps. Then a range accepts nothing if its ends are reversed. Two
numbers and a text that is none need not have one order.
-/

namespace Crosstab.Pivot
variable {type type' : SemanticType} {v w low high : Value}

/-- Values of a field that all compare as dates, all as numbers, or all as texts. -/
def ComparedAlike (type : SemanticType) (vs : List Value) : Prop :=
  type = .date ∨ vs.Pairwise (ComparedByType .number) ∨ vs.Pairwise (ComparedByType .string)

/-- Values of which at most one stands for a number all compare as texts. -/
theorem comparedAlike_of_texts {vs : List Value}
    (h : vs.Pairwise fun v w => v.asNumber? = none ∨ w.asNumber? = none) :
    ComparedAlike type vs := by
  refine .inr (.inr (h.imp ?_))
  rintro v w (hv | hw) x y hx hy
  · cases hv.symm.trans hx
  · cases hw.symm.trans hy

theorem ComparedByType.symm (h : ComparedByType type v w) : ComparedByType type w v := by
  cases type with
  | number => exact And.symm h
  | date => trivial
  | string | boolean =>
    intro y x hy hx
    rw [Binary64.consistent_compare?.swap x y, h x y hx hy, Option.map_some,
      ← Std.OrientedOrd.eq_swap]

/-- Fields that hold no dates compare in one way. -/
theorem compare?_of_ne_date (h : type ≠ .date) (h' : type' ≠ .date) :
    compare? type (some v) w = compare? type' (some v) w := by
  simp only [compare?, if_neg h, if_neg h', Value.key?_eq_display h, Value.key?_eq_display h']

theorem ComparedByType.compare?_eq (hdate : type ≠ .date) (hdate' : type' ≠ .date)
    (h : ComparedByType type' v w) :
    compare? type (some v) w = order? type' v w ∧ compare? type (some w) v = order? type' w v := by
  rw [compare?_of_ne_date hdate hdate', compare?_of_ne_date hdate hdate']
  exact ⟨comparedByType_iff.1 h, comparedByType_iff.1 h.symm⟩

theorem ComparedAlike.exists_order {vs : List Value} (h : ComparedAlike type vs) :
    ∃ order, vs.Pairwise fun v w =>
      compare? type (some v) w = order? order v w ∧
        compare? type (some w) v = order? order w v := by
  by_cases hdate : type = .date
  · subst hdate
    exact ⟨.date, List.pairwise_of_forall fun v w => ⟨compare?_date, compare?_date⟩⟩
  obtain hnumbers | htexts := h.resolve_left hdate
  · exact ⟨.number, hnumbers.imp (ComparedByType.compare?_eq hdate (by decide))⟩
  · exact ⟨.string, htexts.imp (ComparedByType.compare?_eq hdate (by decide))⟩

/-- Where values of a field compare alike, a value in a range shows that the ends of the range are
not reversed, and what lies in one direction from one to the next does so from the first to the
last. -/
theorem ordered_of_comparedAlike (f : Field) (v low high : Value)
    (h : ComparedAlike f.type [v, low, high]) :
    (Filter.accepts ⟨f, .between low high⟩ (some v) = true →
      Filter.accepts ⟨f, .lessThan low⟩ (some high) = false) ∧
    ∀ o o', compare? f.type (some v) low = some o → compare? f.type (some low) high = some o' →
      SameDirection o o' → compare? f.type (some v) high = some (o.then o') := by
  obtain ⟨order, hpairs⟩ := h.exists_order
  have hconsistent := consistent_order? order
  simp only [List.pairwise_cons, List.forall_mem_cons] at hpairs
  obtain ⟨⟨⟨hlow, -⟩, ⟨hhigh, -⟩, -⟩, ⟨⟨hends, hends'⟩, -⟩, -⟩ := hpairs
  constructor
  · intro hrange
    simp only [Filter.accepts, Condition.holds, hlow, hhigh, Bool.and_eq_true, Bool.or_eq_true,
      decide_eq_true_eq] at hrange
    simp only [Filter.accepts, Condition.holds, decide_eq_false_iff_not, hends']
    obtain ⟨o, hfrom, ho⟩ : ∃ o, order? order low v = some o ∧ o.isLE := by
      obtain hgt | heq := hrange.1
      · exact ⟨.lt, by rw [hconsistent.swap v low, hgt]; rfl, rfl⟩
      · exact ⟨.eq, by rw [hconsistent.swap v low, heq]; rfl, rfl⟩
    obtain ⟨o', hto, ho'⟩ : ∃ o', order? order v high = some o' ∧ o'.isLE := by
      obtain hlt | heq := hrange.2
      · exact ⟨.lt, hlt, rfl⟩
      · exact ⟨.eq, heq, rfl⟩
    exact hconsistent.ne_lt hfrom ho hto ho'
  · rw [hlow, hends, hhigh]
    exact fun o o' => hconsistent.trans

section Sample

/-- The branch 10 is at least 9 as a number and before 1a as a text, which is before 9. -/
theorem branch_reversed :
    Filter.accepts ⟨branch, .between (.text "9") (.text "1a")⟩ (some (.text "10")) = true ∧
      Filter.accepts ⟨branch, .lessThan (.text "9")⟩ (some (.text "1a")) = true := by
  decide +kernel

/-- One number and two texts that are none have one order. -/
theorem branch_ordered :
    (ComparedAlike branch.type [.text "Centro", .text "10", .text "Sul"] ∧
      Filter.accepts ⟨branch, .lessThan (.text "10")⟩ (some (.text "Sul")) = false) ∧
    ComparedAlike branch.type [.text "10", .text "Centro", .text "Sul"] ∧
      compare? branch.type (some (.text "10")) (.text "Sul") = some .lt := by
  have hcentro : Value.asNumber? (.text "Centro") = none := by decide +kernel
  have hsul : Value.asNumber? (.text "Sul") = none := by decide +kernel
  have hrange : ComparedAlike branch.type [.text "Centro", .text "10", .text "Sul"] :=
    comparedAlike_of_texts (by simp [hcentro, hsul])
  have hline : ComparedAlike branch.type [.text "10", .text "Centro", .text "Sul"] :=
    comparedAlike_of_texts (by simp [hcentro, hsul])
  exact ⟨⟨hrange, (ordered_of_comparedAlike branch _ _ _ hrange).1 (by decide +kernel)⟩, hline,
    (ordered_of_comparedAlike branch _ _ _ hline).2 .lt .lt (by decide +kernel) (by decide +kernel)
      (.inl ⟨rfl, rfl⟩)⟩

end Sample

end Crosstab.Pivot
