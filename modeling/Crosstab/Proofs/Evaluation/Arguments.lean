import Crosstab.Proofs.Evaluation.Depth
import Crosstab.Proofs.Formula.Names

/-!
# Calls with the right number of arguments

The reader counts the arguments of every call that it makes a tree of, and it makes no call of a
choice but a conditional. So the computation of a formula never comes upon a call with a number of
arguments that its function does not take. Such an error can only come from the scope, and no record
or group has one for it, if the formulas of its calculated fields were read, too.
-/

namespace Crosstab

namespace Formula

/-- A call has a number of arguments that its function takes, and it is not a choice. -/
structure Fits (f : Function) (args : List Expr) : Prop where
  ne_choose : f ≠ .choose
  accepts : f.arity.accepts args.length = true

theorem Fits.ne_nil {f : Function} {args : List Expr} (h : Fits f args) : args ≠ [] := by
  rintro rfl
  exact Bool.false_ne_true ((f.not_accepts_zero).symm.trans h.accepts)

variable {resolve : String → Option FieldId}

/-- All calls fit in a tree that is read from tokens. -/
theorem fits_of_derives {room : Nat} {phrase : Phrase} {ts : List Token} {e : Expr}
    (h : Derives resolve room phrase ts e) {f : Function} {args : List Expr}
    (hcall : (f, args) ∈ e.calls) : Fits f args := by
  induction h with
  | part _ ih | unsigned _ ih | base _ ih | parenthesized _ ih | negation _ ih => exact ih hcall
  | join _ _ _ ihl ihr | exponent _ _ ihl ihr => exact (List.mem_append.1 hcall).elim ihl ihr
  | number x => cases hcall
  | boolean b => cases hcall
  | field hid => cases hcall
  | summary hs hid => cases hcall
  | call _ hf harity _ ih =>
    rcases List.mem_cons.1 hcall with heq | hcall
    · obtain ⟨rfl, rfl⟩ := Prod.mk.inj heq
      exact ⟨hf, by rwa [List.length_map]⟩
    · obtain ⟨e, he, hcall⟩ := Expr.mem_callsAll.1 hcall
      obtain ⟨a, ha, rfl⟩ := List.mem_map.1 he
      exact ih a ha hcall
  | conditional _ _ _ ihc ihy ihn =>
    rcases List.mem_append.1 hcall with hcall | hcall
    · exact ihc hcall
    · exact (List.mem_append.1 hcall).elim ihy ihn

theorem fits_of_parse {formula : String} {e : Expr} (h : parse resolve formula = .ok e)
    {f : Function} {args : List Expr} (hcall : (f, args) ∈ e.calls) : Fits f args :=
  fits_of_derives (derives_of_parse h) hcall

end Formula

def Field.Compiled (f : Field) : Prop :=
  ∀ c, f.calculation = some c → ∃ resolve formula, Calculation.compile resolve formula = .ok c

namespace Evaluation

open Formula (Expr)

def Miscounts : EvalError → Prop
  | .typeMismatch _ (.argumentCount _ _) => True
  | _ => False

def Counted (cause : EvalError) : Prop := ¬ Miscounts cause

theorem counted_of_operation (cause : EvalError) (h : OfOperation cause) : Counted cause := by
  intro hcount
  match cause with
  | .typeMismatch _ (.argumentCount _ _) => exact h

theorem callsRaise_of_parse {resolve : String → Option FieldId} {formula : String} {e : Expr}
    (h : Formula.parse resolve formula = .ok e) (P : EvalError → Prop) : CallsRaise P e := by
  intro f args hcall hno
  rw [(Formula.fits_of_parse h hcall).accepts] at hno
  cases hno

theorem callsRaise_of_compiled {f : Field} (hf : f.Compiled) (P : EvalError → Prop)
    (c : Calculation) (hc : f.calculation = some c) : CallsRaise P c.expr := by
  obtain ⟨resolve, formula, hcompile⟩ := hf c hc
  obtain ⟨e, hparse, rfl⟩ := map_eq_ok.1 hcompile
  exact callsRaise_of_parse hparse P

theorem counted_notNumeric (id : FieldId) (v : String) : Counted (.notNumeric id v) := not_false

theorem counted_require (i : FieldIndex) (id : FieldId) : Raises Counted (require i id) := by
  rw [require]
  split
  · exact .ok _
  · exact .error not_false

theorem counted_scopes {i : FieldIndex} (hi : ∀ id f, i.get? id = some f → f.Compiled)
    (s : Source) (room : Nat) (id : FieldId) : FieldRaises Counted (s.scopes i room) id := by
  induction room using Nat.strongRecOn generalizing s id with
  | ind room ih =>
    rw [Source.scopes_eq]
    apply Source.raises_scope counted_notNumeric (counted_require i id) counted_of_operation
    intro s' _ f hf hcalc
    apply raises_openField counted_of_operation hcalc (callsRaise_of_compiled (hi id f hf) Counted)
      (fun _ => not_false)
    rintro n rfl id' _
    exact ih n (Nat.lt_succ_self n) s' id'

/-- An error of a scope for a field, or for a summary of it. -/
def Scope.Fails (s : Scope) (id : FieldId) (cause : EvalError) : Prop :=
  s.field id = .error cause ∨ ∃ m, s.summary m id = .error cause

theorem Scope.not_fails_numbers (values : Labelled Float) (id : FieldId) (cause : EvalError) :
    ¬ (numbers values).Fails id cause := by
  rintro (h | ⟨m, h⟩)
  · cases h
  · cases m <;> cases h

section
variable {resolve : String → Option FieldId} {formula : String} {e : Expr}
  (h : Formula.parse resolve formula = .ok e)
include h

/-- A wrong number of arguments is an error that the scope had. -/
theorem exists_fails_of_miscounts {s : Scope} {cause : EvalError}
    (he : e.evaluate s = .error cause) (hcount : Miscounts cause) :
    ∃ id ∈ e.reads, s.Fails id cause := by
  let P (cause : EvalError) : Prop := Miscounts cause → ∃ id ∈ e.reads, s.Fails id cause
  have hown (cause : EvalError) (hop : OfOperation cause) : P cause := fun hcount =>
    absurd hcount (counted_of_operation cause hop)
  have hraises : Raises P (e.evaluate s) :=
    related_evaluate_of_calls (stepwise_raises hown) (callsRaise_of_parse h P) fun id hid =>
      fieldRaises_iff.1 ⟨fun _ hfield _ => ⟨id, hid, .inl hfield⟩,
        fun m _ hsummary _ => ⟨id, hid, .inr ⟨m, hsummary⟩⟩⟩
  exact hraises cause he hcount

/-- Whatever a formula is computed over, none of its calls has a wrong number of arguments. An error
that says so comes from the scope, and plain numbers have none, nor have records and groups whose
calculated fields were read from formulas. -/
theorem runs_of_parse :
    (∀ f args, (f, args) ∈ e.calls →
      f ≠ .choose ∧ f.arity.accepts args.length = true ∧ args ≠ []) ∧
    (∀ id ∈ e.reads, ∃ name ∈ Formula.namesIn formula, resolve name = some id) ∧
    (∀ s cause, e.evaluate s = .error cause → Miscounts cause →
      ∃ id ∈ e.reads, s.field id = .error cause ∨ ∃ m, s.summary m id = .error cause) ∧
    (∀ values cause, e.evaluate (numbers values) = .error cause → ¬ Miscounts cause) ∧
    ∀ i : FieldIndex, (∀ id f, i.get? id = some f → f.Compiled) → ∀ (s : Source) depth cause,
      evaluateAt (s.scopes i) depth e = .error cause → ¬ Miscounts cause := by
  refine ⟨?_, ?_, fun s cause => exists_fails_of_miscounts h, ?_, ?_⟩
  · intro f args hcall
    have hfits := Formula.fits_of_parse h hcall
    exact ⟨hfits.ne_choose, hfits.accepts, hfits.ne_nil⟩
  · intro id hid
    exact (Formula.mem_dependencies_of_parse h).1 (Expr.mem_dependencies.2 hid)
  · intro values cause he hcount
    obtain ⟨id, -, hfails⟩ := exists_fails_of_miscounts h he hcount
    exact Scope.not_fails_numbers values id cause hfails
  · intro i hi s depth
    exact related_evaluate_of_calls (stepwise_raises counted_of_operation)
      (callsRaise_of_parse h Counted) fun id _ => fieldRaises_iff.1 (counted_scopes hi s _ id)

end

section Sample

def larger : Expr := .call .max [.field "A", .call .abs [.field "B"]]

def smaller : Field :=
  ⟨"B", "B", .number, some .sum, some ⟨"MIN([A], [C])", .call .min [.field "A", .field "C"]⟩⟩

theorem smaller_compiled : smaller.Compiled := by
  intro c hc
  obtain rfl := Option.some.inj hc
  exact ⟨some, "MIN([A], [C])", by cbv⟩

theorem larger_runs :
    Formula.parse some "MAX([A], ABS([B]))" = .ok larger ∧ smaller.Compiled ∧
    (∀ f args, (f, args) ∈ larger.calls →
      f ≠ .choose ∧ f.arity.accepts args.length = true ∧ args ≠ []) ∧
    (∀ id ∈ larger.reads, ∃ name ∈ Formula.namesIn "MAX([A], ABS([B]))", some name = some id) ∧
    (∀ s cause, larger.evaluate s = .error cause → Miscounts cause →
      ∃ id ∈ larger.reads, s.field id = .error cause ∨ ∃ m, s.summary m id = .error cause) ∧
    (∀ values cause, larger.evaluate (numbers values) = .error cause → ¬ Miscounts cause) ∧
    ∀ (s : Source) depth cause,
      evaluateAt (s.scopes ⟨[smaller]⟩) depth larger = .error cause → ¬ Miscounts cause := by
  have hparse : Formula.parse some "MAX([A], ABS([B]))" = .ok larger := by cbv
  have hindex (id : FieldId) (f : Field) (hf : FieldIndex.get? ⟨[smaller]⟩ id = some f) :
      f.Compiled := by
    obtain rfl := List.mem_singleton.1 (FieldIndex.mem_of_get? hf)
    exact smaller_compiled
  obtain ⟨hcalls, hreads, hscope, hnumbers, hsource⟩ := runs_of_parse hparse
  exact ⟨hparse, smaller_compiled, hcalls, hreads, hscope, hnumbers, hsource _ hindex⟩

end Sample

end Evaluation

end Crosstab
