import Crosstab.Proofs.Calendar.Reader
import Crosstab.Proofs.Record.Views

/-!
# Keys of dates

In a date field all ways to hold a date have one key, the text of the date, and different dates have
different keys. A key that is held as text has itself as its key.
-/

namespace Crosstab.Value

/-- A value is a date, or a text in which the date is written year first or day first, with white
space around it. -/
inductive Denotes (d : Date) : Value → Prop
  | date : Denotes d (.date d)
  | yearFirst {s : String} (h : Text.WithBlanks d.isoText s) : Denotes d (.text s)
  | dayFirst {s : String} (h : Text.WithBlanks d.text s) : Denotes d (.text s)

theorem Denotes.asDate?_eq {d : Date} {v : Value} (h : Denotes d v) : v.asDate? = some d := by
  cases h with
  | date => rfl
  | yearFirst h => exact Date.ofText?_of_isoText h
  | dayFirst h => exact Date.ofText?_of_text h

theorem Denotes.key?_eq {d : Date} {v : Value} (h : Denotes d v) :
    key? .date (some v) = some d.text := by
  have hreads : v.ReadsBack := by
    cases h <;> exact nofun
  exact (asDate?_eq_some_iff hreads).1 h.asDate?_eq

def IsWritten : Option Value → Prop
  | none | some (.date _) | some (.text _) => True
  | some (.boolean _) | some (.number _) => False

theorem key?_blank (type : SemanticType) : key? type (some (.text "")) = some "" := by
  cases type <;> decide

/-- The key of a key is the key itself. -/
theorem key?_key {type : SemanticType} {v : Option Value} (hv : IsWritten v) {key : String}
    (h : key? type v = some key) : key? type (some (.text key)) = some key := by
  by_cases hdate : type = .date
  · subst hdate
    match v, hv with
    | none, _ =>
      obtain rfl := Option.some.inj h
      exact key?_blank .date
    | some (.date d), _ =>
      obtain rfl := Option.some.inj h
      exact (Denotes.dayFirst (Text.withBlanks_self _)).key?_eq
    | some (.text s), _ =>
      rw [key?, if_pos rfl] at h
      split_ifs at h
      · obtain rfl := Option.some.inj h
        exact key?_blank .date
      · obtain ⟨d, -, rfl⟩ := Option.map_eq_some_iff.1 h
        exact (Denotes.dayFirst (Text.withBlanks_self _)).key?_eq
  · exact key?_eq_display hdate (.text key)

/-- In a date field the key of a value identifies the date that it denotes. -/
theorem key?_dates :
    (∀ d v, Denotes d v → key? .date (some v) = some d.text) ∧
    (∀ d d' v v', Denotes d v → Denotes d' v' →
      (key? .date (some v) = key? .date (some v') ↔ d = d')) ∧
    ∀ v key, IsWritten v → key? .date v = some key → key? .date (some (.text key)) = some key := by
  refine ⟨fun d v h => h.key?_eq, fun d d' v v' h h' => ?_, fun v key hv h => key?_key hv h⟩
  rw [h.key?_eq, h'.key?_eq, Option.some_inj, Date.text_injective.eq_iff]

def marchOf (year : Int) (h : Calendar.IsDay year 3 15) : Date := ⟨year, 3, 15, h⟩

/-- A day before the common era, written with white space around it, and the same day of a later
year. -/
theorem key?_march :
    let early := marchOf (-44) (by decide)
    let late := marchOf 44 (by decide)
    let written := Value.text " -0044-03-15 "
    (Denotes early written ∧ Denotes late (.date late) ∧ IsWritten (some written)) ∧
      key? .date (some written) = some "15/03/-0044" ∧
      key? .date (some written) ≠ key? .date (some (.date late)) ∧
      key? .date (some (.text "15/03/-0044")) = some "15/03/-0044" := by
  intro early late written
  have hblank : ∀ c ∈ [' '] ++ [' '], Text.isBlank c = true := by
    intro c hc
    obtain rfl : c = ' ' := by simpa using hc
    decide
  have hwritten : Denotes early written := .yearFirst ⟨[' '], [' '], hblank, by decide +kernel⟩
  obtain ⟨hkey, hdiffer, hagain⟩ := key?_dates
  have htext : early.text = "15/03/-0044" := by decide +kernel
  have hfirst : key? .date (some written) = some "15/03/-0044" := by
    rw [hkey early written hwritten, htext]
  have hyears : early ≠ late := by decide
  exact ⟨⟨hwritten, .date, trivial⟩, hfirst,
    fun heq => hyears ((hdiffer early late _ _ hwritten .date).1 heq),
    hagain (some written) _ trivial hfirst⟩

end Crosstab.Value
