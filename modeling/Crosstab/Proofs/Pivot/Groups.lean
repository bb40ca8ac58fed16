import Crosstab.Pivot.Compute
import Crosstab.Proofs.Lookup
import Mathlib.Data.List.Nodup
import Mathlib.Data.List.Perm.Basic

/-!
# Groups by canonical key

A partition is determined by its keys: they stand in the order in which they first occur, and the
group of a key is what a filter by that key keeps. One more member at the end changes one group or
opens one, and a loop that starts without groups builds the same partition. Where every entry has a
canonical key for a field, the groups of that field are the groups of the canonical keys.
-/

namespace Crosstab.Pivot
variable {α β : Type}

/-- A partition in closed form: the keys in the order of first occurrence, each with the members
that have it. -/
theorem partition_eq (key : α → String) (as : List α) :
    partition key as = (as.map key).eraseDups.map fun k => (k, as.filter (key · = k)) := by
  induction as with
  | nil => rfl
  | cons a as ih =>
    have hrest : (partition key as).filter (·.1 ≠ key a) =
        ((as.map key).filter fun k => !k == key a).eraseDups.map
          fun k => (k, as.filter (key · = k)) := by
      rw [ih, List.filter_map, eraseDups_filter]
      congr 1
      apply List.filter_congr
      intro k _
      simp [beq_eq_decide]
    rw [partition, members_partition, hrest, List.map_cons, List.eraseDups_cons, List.map_cons]
    congr 1
    · simp
    · apply List.map_congr_left
      intro k hk
      have hne : k ≠ key a := by
        have := (List.mem_filter.1 (List.mem_eraseDups.1 hk)).2
        simpa using this
      rw [List.filter_cons_of_neg (by simpa using Ne.symm hne)]

def enter (key : α → String) (groups : List (String × List α)) (a : α) :
    List (String × List α) :=
  if key a ∈ groups.map Prod.fst then
    groups.map fun g => if g.1 = key a then (g.1, g.2 ++ [a]) else g
  else groups ++ [(key a, [a])]

theorem partition_concat (key : α → String) (as : List α) (a : α) :
    partition key (as ++ [a]) = enter key (partition key as) a := by
  have hkeys : (partition key as).map Prod.fst = (as.map key).eraseDups := by
    rw [partition_eq, List.map_map]
    exact List.map_id _
  have hopen : key a ∈ (partition key as).map Prod.fst ↔ key a ∈ as.map key := by
    rw [hkeys, List.mem_eraseDups]
  rw [partition_eq, List.map_append, List.eraseDups_append, List.map_append, enter]
  by_cases hmem : key a ∈ as.map key
  · rw [if_pos (hopen.2 hmem), partition_eq key as, List.map_map]
    have hnone : ([a].map key).removeAll (as.map key) = [] := by
      simpa [List.removeAll] using hmem
    rw [hnone, List.eraseDups_nil, List.map_nil, List.append_nil]
    apply List.map_congr_left
    intro k _
    by_cases hk : k = key a
    · simp [hk]
    · simp [hk, Ne.symm hk]
  · rw [if_neg (mt hopen.1 hmem), partition_eq key as]
    have hnew : ([a].map key).removeAll (as.map key) = [key a] := by
      simpa [List.removeAll] using hmem
    have hnone : as.filter (key · = key a) = [] := by
      simpa [List.filter_eq_nil_iff] using hmem
    rw [hnew, List.eraseDups_cons, List.filter_nil, List.eraseDups_nil]
    congr 1
    · apply List.map_congr_left
      intro k hk
      have hne : key a ≠ k := by
        rintro rfl
        exact hmem (List.mem_eraseDups.1 hk)
      rw [List.filter_append, List.filter_cons_of_neg (by simpa using hne), List.filter_nil,
        List.append_nil]
    · rw [List.map_singleton, List.filter_append, hnone]
      simp

/-- A loop that lets one member after the other enter builds the partition of all of them. -/
theorem foldl_enter (key : α → String) (as bs : List α) :
    bs.foldl (enter key) (partition key as) = partition key (as ++ bs) := by
  induction bs generalizing as with
  | nil => rw [List.append_nil, List.foldl_nil]
  | cons b bs ih =>
    rw [List.foldl_cons, ← partition_concat, ih, List.append_assoc, List.singleton_append]

/-- Filtering by each of some keys keeps every member once if it has one of the keys. -/
theorem flatMap_filter_perm (key : α → String) {ks : List String} (hk : ks.Nodup) (as : List α)
    (h : ∀ a ∈ as, key a ∈ ks) : (ks.flatMap fun k => as.filter (key · = k)).Perm as := by
  induction ks generalizing as with
  | nil =>
    have hnil : as = [] := List.eq_nil_iff_forall_not_mem.2 fun a ha => by simpa using h a ha
    subst hnil
    rfl
  | cons k ks ih =>
    obtain ⟨hk, hks⟩ := List.nodup_cons.1 hk
    have hothers : (ks.flatMap fun k' => as.filter (key · = k')) =
        ks.flatMap fun k' => (as.filter (key · ≠ k)).filter (key · = k') := by
      apply List.flatMap_congr
      intro k' hk'
      rw [List.filter_filter]
      apply List.filter_congr
      intro a _
      have hne : k' ≠ k := by rintro rfl; exact hk hk'
      by_cases ha : key a = k' <;> simp [ha, hne]
    have hrest : (ks.flatMap fun k' => as.filter (key · = k')).Perm (as.filter (key · ≠ k)) := by
      rw [hothers]
      apply ih hks
      intro a ha
      obtain ⟨hmem, hne⟩ := List.mem_filter.1 ha
      exact (List.mem_cons.1 (h a hmem)).resolve_left (by simpa using hne)
    rw [List.flatMap_cons]
    have hsplit := List.filter_append_perm (key · = k) as
    simp only [← decide_not] at hsplit
    exact (hrest.append_left _).trans hsplit

/-- The groups of a partition hold every member once. -/
theorem partition_perm (key : α → String) (as : List α) :
    ((partition key as).flatMap (·.2)).Perm as := by
  rw [partition_eq, List.flatMap_map]
  apply flatMap_filter_perm key (nodup_eraseDups _)
  intro a ha
  exact List.mem_eraseDups.2 (List.mem_map_of_mem ha)

def canonicalKey? (f : Field) (e : Entry) : Option String :=
  Value.key? f.type (e.record.get? f.id)

/-- Every entry has a canonical key for every one of some fields. -/
def Keyed (fs : List Field) (es : List Entry) : Prop :=
  ∀ f ∈ fs, ∀ e ∈ es, (canonicalKey? f e).isSome

theorem Keyed.filter {fs : List Field} {es : List Entry} (h : Keyed fs es) (p : Entry → Bool) :
    Keyed fs (es.filter p) :=
  fun f hf e he => h f hf e (List.mem_filter.1 he).1

theorem Keyed.tail {f : Field} {fs : List Field} {es : List Entry} (h : Keyed (f :: fs) es) :
    Keyed fs es :=
  fun g hg => h g (List.mem_cons_of_mem f hg)

theorem Keyed.head {f : Field} {fs : List Field} {es : List Entry} (h : Keyed (f :: fs) es) :
    Keyed [f] es := by
  intro g hg
  obtain rfl := List.mem_singleton.1 hg
  exact h g List.mem_cons_self

theorem Keyed.drop {fs : List Field} {es : List Entry} (h : Keyed fs es) (n : Nat) :
    Keyed (fs.drop n) es :=
  fun f hf => h f (List.mem_of_mem_drop hf)

/-- The different canonical keys of some entries for a field, in the order in which they first
occur. -/
def canonicalKeys (f : Field) (es : List Entry) : List String :=
  (es.filterMap (canonicalKey? f)).eraseDups

def withKey (f : Field) (key : String) (es : List Entry) : List Entry :=
  es.filter (canonicalKey? f · = some key)

theorem nodup_canonicalKeys (f : Field) (es : List Entry) : (canonicalKeys f es).Nodup :=
  nodup_eraseDups _

theorem mem_canonicalKeys {f : Field} {key : String} {es : List Entry} :
    key ∈ canonicalKeys f es ↔ withKey f key es ≠ [] := by
  simp [canonicalKeys, withKey, List.mem_eraseDups, List.filter_eq_nil_iff]

theorem keyOf_eq_iff {f : Field} {e : Entry} (h : (canonicalKey? f e).isSome) {key : String} :
    keyOf f e.record = key ↔ canonicalKey? f e = some key := by
  obtain ⟨k, hk⟩ := Option.isSome_iff_exists.1 h
  have hkey : keyOf f e.record = k := by
    unfold keyOf
    rw [show Value.key? f.type (e.record.get? f.id) = some k from hk]
    rfl
  rw [hkey, hk, Option.some_inj]

/-- Grouping goes by canonical keys where all of them exist. -/
theorem groupBy_eq {f : Field} {es : List Entry} (h : Keyed [f] es) :
    groupBy f es = (canonicalKeys f es).map fun key => (key, withKey f key es) := by
  have hf := h f (List.mem_singleton_self f)
  have hkeys : es.map (fun e => keyOf f e.record) = es.filterMap (canonicalKey? f) := by
    rw [← List.filterMap_eq_map]
    apply List.filterMap_congr
    intro e he
    exact ((keyOf_eq_iff (hf e he)).1 rfl).symm
  rw [groupBy, partition_eq, hkeys]
  apply List.map_congr_left
  intro key _
  congr 1
  apply List.filter_congr
  intro e he
  simp only [keyOf_eq_iff (hf e he)]

theorem groupBy_perm (f : Field) (es : List Entry) : ((groupBy f es).flatMap (·.2)).Perm es :=
  partition_perm _ es

end Crosstab.Pivot
