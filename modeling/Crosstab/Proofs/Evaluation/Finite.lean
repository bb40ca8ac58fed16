import Crosstab.Evaluation.Scopes
import Crosstab.Proofs.Binary64.Finite
import Crosstab.Proofs.Evaluation.Matching

/-!
# Finite results

Arithmetic refuses every result that is infinite or no number, and what else a formula does with
numbers keeps them finite. So a formula has finite results in a scope of finite numbers, as long as
the numbers that are written in it are finite. Nothing checks these: more than 310 digits are read
as an infinite number.
-/

namespace Crosstab.Evaluation

open Formula (Expr)

def Yields {α : Type} (P : α → Prop) (x : Except EvalError α) : Prop := ∀ a, x = .ok a → P a

namespace Yields
variable {α : Type} {P : α → Prop}

theorem ok {a : α} (h : P a) : Yields P (.ok a) := by
  rintro _ ⟨⟩
  exact h

theorem error (cause : EvalError) : Yields P (.error cause) := nofun

theorem ite {c : Prop} [Decidable c] {x y : Except EvalError α} (hx : Yields P x)
    (hy : Yields P y) : Yields P (if c then x else y) := by
  by_cases h : c
  · rwa [if_pos h]
  · rwa [if_neg h]

end Yields

def Scalar.IsFinite (v : Scalar) : Prop := v.toNumber.isFinite = true

theorem Scalar.isFinite_boolean (b : Bool) : (Scalar.boolean b).IsFinite := by
  cases b <;> rfl

structure FiniteScope (s : Scope) : Prop where
  field (id : FieldId) : Yields (fun v => ∀ w ∈ v, Scalar.IsFinite w) (s.field id)
  summary (m : Formula.Summary) (id : FieldId) : Yields (·.isFinite = true) (s.summary m id)

theorem finiteScope_numbers {values : Labelled Float}
    (h : ∀ id x, values.get? id = some x → x.isFinite = true) : FiniteScope (numbers values) := by
  have hvalue (id : FieldId) : ((values.get? id).getD 0.0).isFinite = true := by
    cases hget : values.get? id with
    | none => rfl
    | some x => exact h id x hget
  refine ⟨fun id => .ok fun w hw => ?_, fun m id => ?_⟩
  · obtain ⟨x, hx, rfl⟩ := Option.map_eq_some_iff.1 hw
    exact h id x hx
  · cases m with
    | count => exact .ok (by split <;> rfl)
    | sum | avg | min | max => exact .ok (hvalue id)

/-! ### Operations -/

theorem yields_finite (operator : String) (x : Float) :
    Yields Scalar.IsFinite (finite operator x) := by
  rw [finite]
  split_ifs with h
  · exact .ok h
  · exact .error _

theorem yields_arithmetic (op : Formula.Operator) (x y : Float) :
    Yields Scalar.IsFinite (arithmetic op x y) := by
  cases op with
  | less | greater | lessEqual | greaterEqual => exact .ok (Scalar.isFinite_boolean _)
  | divide | modulo => exact .ite (.error _) (yields_finite _ _)
  | _ => exact yields_finite _ _

/-- What an arithmetic operator comes to, before the result is checked. The other operators come to
no number. -/
def rawResult (op : Formula.Operator) (x y : Float) : Option Float :=
  match op with
  | .add => some (x + y)
  | .subtract => some (x - y)
  | .multiply => some (x * y)
  | .divide => some (x / y)
  | .modulo => some (Binary64.remainder x y)
  | .power => some (Binary64.power x y)
  | _ => none

/-- Arithmetic refuses to divide by zero, and it refuses what is not finite. -/
theorem arithmetic_eq {op : Formula.Operator} {x y z : Float} (h : rawResult op x y = some z) :
    arithmetic op x y =
      if (op = .divide ∨ op = .modulo) ∧ (y == 0.0) = true then .error .divisionByZero
      else if z.isFinite then .ok (.number z)
      else .error (.nonFinite op.symbol) := by
  cases op <;> cases h <;> simp [arithmetic, finite]

theorem evaluate_arithmetic {s : Scope} {op : Formula.Operator} {l r : Expr} {x y z : Float}
    (hl : l.evaluate s = .ok (.number x)) (hr : r.evaluate s = .ok (.number y))
    (h : rawResult op x y = some z) :
    (Expr.binary op l r).evaluate s = arithmetic op x y := by
  cases op <;> cases h <;> simp only [Expr.evaluate, hl, hr] <;> rfl

/-! ### Formulas -/

def SameFinite (x y : Float) : Prop := x = y ∧ x.isFinite = true

theorem related_self {v : Scalar} (h : v.IsFinite) : v.Related SameFinite v := by
  cases v with
  | number x => exact .number ⟨rfl, h⟩
  | boolean b => exact .boolean b

theorem Yields.of_matches {x y : Except EvalError Scalar}
    (h : Matches (Scalar.Related SameFinite) x y) : Yields Scalar.IsFinite x := by
  rintro v rfl
  cases h with
  | ok h =>
    cases h with
    | number h => exact h.2
    | boolean b => exact Scalar.isFinite_boolean b

theorem congruence_sameFinite : Congruence SameFinite where
  zero := ⟨rfl, rfl⟩
  beq := by
    rintro x _ y _ ⟨rfl, -⟩ ⟨rfl, -⟩
    rfl
  arithmetic := by
    rintro op x _ y _ ⟨rfl, -⟩ ⟨rfl, -⟩
    cases hvalue : arithmetic op x y with
    | ok v => exact .ok (related_self (yields_arithmetic op x y v hvalue))
    | error cause => exact .error cause
  neg := by
    rintro x _ ⟨rfl, hx⟩
    exact ⟨rfl, (Binary64.isFinite_neg x).trans hx⟩
  abs := by
    rintro x _ ⟨rfl, hx⟩
    exact ⟨rfl, (Binary64.isFinite_abs x).trans hx⟩
  round := by
    rintro x _ ⟨rfl, hx⟩
    exact ⟨rfl, Binary64.isFinite_roundHalfAway hx⟩
  lesser := by
    rintro x _ y _ ⟨rfl, hx⟩ ⟨rfl, hy⟩
    exact ⟨rfl, Binary64.isFinite_lesser hx hy⟩
  greater := by
    rintro x _ y _ ⟨rfl, hx⟩ ⟨rfl, hy⟩
    exact ⟨rfl, Binary64.isFinite_greater hx hy⟩

theorem FiniteScope.matches_self {s : Scope} (hs : FiniteScope s) (id : FieldId) :
    ScopesMatch SameFinite s s id := by
  constructor
  case field =>
    cases hfield : s.field id with
    | error cause => exact .error cause
    | ok v =>
      refine .ok (related_self ?_)
      cases v with
      | none => rfl
      | some w => exact hs.field id _ hfield w rfl
  case summary =>
    intro m
    cases hsummary : s.summary m id with
    | error cause => exact .error cause
    | ok x => exact .ok ⟨rfl, hs.summary m id x hsummary⟩

/-- A tree has finite results if its numbers and those of the scope are finite. -/
theorem yields_evaluate {s : Scope} (hs : FiniteScope s) {e : Expr}
    (h : ∀ x ∈ e.literals, x.isFinite = true) : Yields Scalar.IsFinite (e.evaluate s) :=
  .of_matches (matches_evaluate congruence_sameFinite (fun x hx => ⟨rfl, h x hx⟩)
    fun id _ => hs.matches_self id)

/-- A formula in which only finite numbers are written has finite results over finite numbers.
A division by zero is refused as such, and every other arithmetic result that is not finite under
the name of the operator. -/
theorem finite_of_parse {resolve : String → Option FieldId} {formula : String} {e : Expr}
    (hparse : Formula.parse resolve formula = .ok e)
    (hnumbers : ∀ x ∈ Formula.numbersIn formula, x.isFinite = true) {s : Scope}
    (hs : FiniteScope s) :
    (∀ v, e.evaluate s = .ok v → v.toNumber.isFinite = true) ∧
    ∀ op l r x y z, l.evaluate s = .ok (.number x) → r.evaluate s = .ok (.number y) →
      rawResult op x y = some z →
      (Expr.binary op l r).evaluate s =
        if (op = .divide ∨ op = .modulo) ∧ (y == 0.0) = true then .error .divisionByZero
        else if z.isFinite then .ok (.number z)
        else .error (.nonFinite op.symbol) := by
  constructor
  · exact yields_evaluate hs fun x hx =>
      hnumbers x (Formula.literals_subset_of_parse hparse hx)
  · intro op l r x y z hl hr hz
    rw [evaluate_arithmetic hl hr hz, arithmetic_eq hz]

section Sample

def third : Expr := .binary .divide (.field "A") (.number 3.0)

def one : Labelled Float := .set .empty "A" 1.0

theorem third_finite :
    Formula.parse some "[A] / 3" = .ok third ∧
      third.evaluate (numbers one) = .ok (.number (1.0 / 3.0)) ∧
      (Scalar.number (1.0 / 3.0)).toNumber.isFinite = true := by
  have htokens : (Formula.lexemes "[A] / 3").map (·.token) =
      [.field "A", .slash, .number 3.0] := by with_unfolding_all rfl
  have hquotient : Formula.Derives some 1 (.chain .product)
      ([.field "A"] ++ Formula.Operator.divide.token :: [.number 3.0]) third :=
    .join rfl (.part (.unsigned (.base (.field rfl)))) (.unsigned (.base (.number 3.0)))
  have hderives : Formula.Derives some 1 (.chain .disjunction)
      ((Formula.lexemes "[A] / 3").map (·.token)) third := by
    rw [htokens]
    exact .part (.part (.part (.part hquotient)))
  have hparse : Formula.parse some "[A] / 3" = .ok third :=
    Formula.parse_of_derives hderives (by decide) (by decide)
  have hnumbers : ∀ x ∈ Formula.numbersIn "[A] / 3", x.isFinite = true := by decide +kernel
  have hscope : FiniteScope (numbers one) := by
    refine finiteScope_numbers fun id x hx => ?_
    rw [one, Labelled.get?_set] at hx
    split_ifs at hx with hid
    · cases hx
      rfl
    · cases hx
  obtain ⟨hfinite, harithmetic⟩ := finite_of_parse hparse hnumbers hscope
  have hvalue : third.evaluate (numbers one) = .ok (.number (1.0 / 3.0)) := by
    rw [third, harithmetic .divide _ _ 1.0 3.0 (1.0 / 3.0) rfl rfl rfl]
    have hthree : ¬((Formula.Operator.divide = .divide ∨ Formula.Operator.divide = .modulo) ∧
        ((3.0 : Float) == 0.0) = true) := by decide +kernel
    rw [if_neg hthree, if_pos (by decide +kernel)]
  exact ⟨hparse, hvalue, hfinite _ hvalue⟩

/-- A number with too many digits is an overflow that neither the reader nor a sign refuses. -/
theorem nines_not_finite :
    Formula.parse some (String.ofList ('-' :: List.replicate 311 '9')) =
        .ok (.negate (.number (1.0 / 0.0))) ∧
      FiniteScope (numbers .empty) ∧
      (Expr.negate (.number (1.0 / 0.0))).evaluate (numbers .empty) =
        .ok (.number (-(1.0 / 0.0))) ∧
      (Scalar.number (-(1.0 / 0.0))).toNumber.isFinite = false := by
  have hdigits : ∀ c ∈ '9' :: List.replicate 310 '9', Decimal.isDigit c = true := by
    rw [← List.replicate_succ]
    intro c hc
    rw [List.eq_of_mem_replicate hc]
    rfl
  refine ⟨?_, finiteScope_numbers nofun, rfl, by decide +kernel⟩
  exact Formula.parse_minus_long hdigits (by decide) (by rw [List.length_replicate])

end Sample

end Crosstab.Evaluation
