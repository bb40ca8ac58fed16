/-!
# Steps that may fail

Two steps in a row succeed when the first succeeds and the second does so on its result; a step for
each entry of a list succeeds when it does so on every entry.
-/

namespace Crosstab
variable {ε α β : Type}

theorem bind_eq_ok {x : Except ε α} {f : α → Except ε β} {b : β} :
    x >>= f = .ok b ↔ ∃ a, x = .ok a ∧ f a = .ok b := by
  cases x with
  | error e => exact ⟨nofun, nofun⟩
  | ok a => exact ⟨fun h => ⟨a, rfl, h⟩, fun ⟨_, ha, h⟩ => Except.ok.inj ha ▸ h⟩

theorem map_eq_ok {x : Except ε α} {f : α → β} {b : β} :
    x.map f = .ok b ↔ ∃ a, x = .ok a ∧ f a = b := by
  cases x with
  | error e => exact ⟨nofun, nofun⟩
  | ok a =>
    constructor
    · intro h
      exact ⟨a, rfl, Except.ok.inj h⟩
    · rintro ⟨a', ha, rfl⟩
      rw [← Except.ok.inj ha]
      rfl

section
variable {f g : α → Except ε β} {as : List α} {bs : List β}

theorem mapM_cons_eq_ok {a : α} :
    (a :: as).mapM f = .ok bs ↔ ∃ b bs', f a = .ok b ∧ as.mapM f = .ok bs' ∧ bs = b :: bs' := by
  rw [List.mapM_cons, bind_eq_ok]
  constructor
  · rintro ⟨b, hb, h⟩
    obtain ⟨bs', hbs', h⟩ := bind_eq_ok.1 h
    exact ⟨b, bs', hb, hbs', (Except.ok.inj h).symm⟩
  · rintro ⟨b, bs', hb, hbs', rfl⟩
    exact ⟨b, hb, bind_eq_ok.2 ⟨bs', hbs', rfl⟩⟩

theorem mapM_eq_ok_iff : as.mapM f = .ok bs ↔ as.map f = bs.map .ok := by
  induction as generalizing bs with
  | nil => cases bs <;> simp [pure, Except.pure]
  | cons a as ih =>
    rw [mapM_cons_eq_ok, List.map_cons]
    constructor
    · rintro ⟨b, bs', hb, hbs', rfl⟩
      rw [List.map_cons, hb, ih.1 hbs']
    · intro h
      cases bs with
      | nil => cases h
      | cons b bs =>
        obtain ⟨hb, hbs⟩ := List.cons.inj h
        exact ⟨b, bs, hb, ih.2 hbs, rfl⟩

theorem length_of_mapM (h : as.mapM f = .ok bs) : as.length = bs.length := by
  rw [← List.length_map f, mapM_eq_ok_iff.1 h, List.length_map]

theorem mapM_append_eq_ok {as' : List α} {bs' : List β} (h : as.mapM f = .ok bs)
    (h' : as'.mapM f = .ok bs') : (as ++ as').mapM f = .ok (bs ++ bs') := by
  rw [mapM_eq_ok_iff] at h h' ⊢
  rw [List.map_append, h, h', List.map_append]

theorem option_mapM_eq_ok {o : Option α} {r : Option β} :
    o.mapM f = .ok r ↔ o.toList.mapM f = .ok r.toList := by
  cases o with
  | none => cases r <;> simp [pure, Except.pure]
  | some a =>
    rw [Option.mapM_some, Option.toList_some, mapM_cons_eq_ok]
    cases hf : f a <;> cases r <;> simp [Functor.map, Except.map, pure, Except.pure, eq_comm]

theorem mapM_of_ok (h : as.mapM f = .ok bs)
    (hfg : ∀ a ∈ as, ∀ b, f a = .ok b → g a = .ok b) : as.mapM g = .ok bs := by
  induction as generalizing bs with
  | nil => exact h
  | cons a as ih =>
    obtain ⟨b, bs', hb, hbs', rfl⟩ := mapM_cons_eq_ok.1 h
    obtain ⟨ha, has⟩ := List.forall_mem_cons.1 hfg
    exact mapM_cons_eq_ok.2 ⟨b, bs', ha b hb, ih hbs' has, rfl⟩

theorem exists_result_of_mapM (h : as.mapM f = .ok bs) {a : α} (ha : a ∈ as) :
    ∃ b ∈ bs, f a = .ok b := by
  induction as generalizing bs with
  | nil => cases ha
  | cons a' as ih =>
    obtain ⟨b, bs', hb, hbs', rfl⟩ := mapM_cons_eq_ok.1 h
    rcases List.mem_cons.1 ha with rfl | ha
    · exact ⟨b, List.mem_cons_self, hb⟩
    · obtain ⟨b', hb', hf⟩ := ih hbs' ha
      exact ⟨b', List.mem_cons_of_mem b hb', hf⟩

theorem exists_source_of_mapM (h : as.mapM f = .ok bs) {b : β} (hb : b ∈ bs) :
    ∃ a ∈ as, f a = .ok b := by
  induction as generalizing bs with
  | nil =>
    obtain rfl := Except.ok.inj h
    cases hb
  | cons a as ih =>
    obtain ⟨b', bs', hb', hbs', rfl⟩ := mapM_cons_eq_ok.1 h
    rcases List.mem_cons.1 hb with rfl | hb
    · exact ⟨a, List.mem_cons_self, hb'⟩
    · obtain ⟨a', ha', hf⟩ := ih hbs' hb
      exact ⟨a', List.mem_cons_of_mem a ha', hf⟩

end

end Crosstab
