import Crosstab.Proofs.Except
import Crosstab.Proofs.Formula.Grammar

/-!
# Reading steps as equations

The tokens that a reading step leaves carry a proof that they are fewer. `run` forgets the proof,
and for `run` every step is an equation between the steps that it is made of.
-/

namespace Crosstab.Formula.Parser
variable (s : Setting)

/-- A reading step with the tokens that it leaves as a plain list. -/
def run {α : Type} (p : Step α) (ts : List Lexeme) : Except ParseError (α × List Lexeme) :=
  (fun r => (r.1, r.2.val)) <$> p ts

theorem length_of_run {α : Type} {p : Step α} {ts rest : List Lexeme} {a : α}
    (h : run p ts = .ok (a, rest)) : rest.length < ts.length := by
  obtain ⟨r, -, hr⟩ := map_eq_ok.1 h
  obtain ⟨-, rfl⟩ := Prod.mk.inj hr
  exact r.2.property

def runClose (ts : List Lexeme) : Except ParseError (List Lexeme) := Subtype.val <$> close s ts

theorem runClose_cons {l : Lexeme} (h : l.token = .rightParen) (rest : List Lexeme) :
    runClose s (l :: rest) = .ok rest := by
  rw [runClose, close, if_pos h]
  rfl

theorem runClose_eq_ok {ts rest : List Lexeme} (h : runClose s ts = .ok rest) :
    ∃ l : Lexeme, ts = l :: rest ∧ l.token = .rightParen := by
  cases ts with
  | nil => cases h
  | cons l after =>
    by_cases hl : l.token = .rightParen
    · rw [runClose_cons s hl] at h
      exact ⟨l, congrArg _ (Except.ok.inj h), hl⟩
    · rw [runClose, close, if_neg hl] at h
      cases h

theorem build_of_ne_choose {f : Function} (hf : f ≠ .choose) (es : List Expr) :
    build f es = .call f es := by
  unfold build
  split
  · exact if_neg hf
  · rfl

theorem depth_build (f : Function) (es : List Expr) :
    (build f es).depth = Expr.depthAll es + 1 := by
  unfold build
  split
  · split <;> simp only [Expr.depth, Expr.depthAll, Nat.max_zero]
  · rfl

section Chains
variable (part : Step Expr) (operator? : Token → Option Operator)

def runTail (left : Expr) (ts : List Lexeme) : Except ParseError (Expr × List Lexeme) :=
  (fun r => (r.1, r.2.val)) <$> chainTail s part operator? left ts

theorem run_chain (ts : List Lexeme) :
    run (chain s part operator?) ts = (do
      let r ← run part ts
      runTail s part operator? r.1 r.2) := by
  simp only [run, runTail, chain, map_eq_pure_bind, bind_assoc, pure_bind]

theorem runTail_nil (left : Expr) : runTail s part operator? left [] = .ok (left, []) := by
  rw [runTail, chainTail]
  rfl

theorem runTail_stop (left : Expr) {l : Lexeme} (h : operator? l.token = none)
    (rest : List Lexeme) :
    runTail s part operator? left (l :: rest) = .ok (left, l :: rest) := by
  rw [runTail, chainTail, h]
  rfl

theorem runTail_step (left : Expr) {l : Lexeme} {op : Operator} (h : operator? l.token = some op)
    (rest : List Lexeme) :
    runTail s part operator? left (l :: rest) = (do
      let r ← run part rest
      let e ← bounded s (.binary op left r.1) r.2
      runTail s part operator? e r.2) := by
  rw [runTail, chainTail, h]
  simp only [run, runTail, map_eq_pure_bind, bind_assoc, pure_bind]

end Chains

section Levels
variable (operand : Step Expr)

def runArguments (ts : List Lexeme) : Except ParseError (List Expr × List Lexeme) :=
  (fun r => (r.1, r.2.val)) <$> arguments s operand ts

def runArgumentsTail (ts : List Lexeme) : Except ParseError (List Expr × List Lexeme) :=
  (fun r => (r.1, r.2.val)) <$> argumentsTail s operand ts

theorem runArguments_none {ts : List Lexeme} (h : current ts = .rightParen) :
    runArguments s operand ts = .ok ([], ts) := by
  rw [runArguments, arguments, if_pos h]
  rfl

theorem runArguments_some {ts : List Lexeme} (h : current ts ≠ .rightParen) :
    runArguments s operand ts = do
      let r ← run (expression s operand) ts
      let q ← runArgumentsTail s operand r.2
      return (r.1 :: q.1, q.2) := by
  rw [runArguments, arguments, if_neg h]
  simp only [run, runArgumentsTail, map_eq_pure_bind, bind_assoc, pure_bind]

theorem runArgumentsTail_nil : runArgumentsTail s operand [] = .ok ([], []) := by
  rw [runArgumentsTail, argumentsTail]
  rfl

theorem runArgumentsTail_comma {l : Lexeme} (h : l.token = .comma) (rest : List Lexeme) :
    runArgumentsTail s operand (l :: rest) = do
      let r ← run (expression s operand) rest
      let q ← runArgumentsTail s operand r.2
      return (r.1 :: q.1, q.2) := by
  rw [runArgumentsTail, argumentsTail, if_pos h]
  simp only [run, runArgumentsTail, map_eq_pure_bind, bind_assoc, pure_bind]

theorem runArgumentsTail_stop {l : Lexeme} (h : l.token ≠ .comma) (rest : List Lexeme) :
    runArgumentsTail s operand (l :: rest) = .ok ([], l :: rest) := by
  rw [runArgumentsTail, argumentsTail, if_neg h]
  rfl

theorem run_call (name : String) (ts : List Lexeme) :
    run (call s operand name) ts = (do
      let f ← function s name ts
      let r ← runArguments s operand ts
      let final ← runClose s r.2
      if f.arity.accepts r.1.length then
        let e ← bounded s (build f r.1) final
        return (e, final)
      else .error (.arityMismatch f.name f.arity r.1.length)) := by
  simp only [run, call, runArguments, runClose, map_eq_pure_bind, bind_assoc, pure_bind]
  refine bind_congr fun f => bind_congr fun r => bind_congr fun final => ?_
  by_cases h : f.arity.accepts r.1.length = true
  · simp only [if_pos h, bind_assoc, pure_bind]
  · rw [if_neg h, if_neg h]
    rfl

theorem run_summary {name : String} {f : Summary} (h : Summary.ofName? name = some f)
    (fieldName : String) (ts : List Lexeme) :
    run (summary s name fieldName) ts = do
      let id ← resolve s fieldName
      let final ← runClose s ts
      return (.summary f id, final) := by
  unfold run summary runClose
  rw [h]
  simp only [map_eq_pure_bind, bind_assoc, pure_bind]

theorem run_application_summary {name fieldName : String} {l : Lexeme}
    (hl : l.token = .quoted fieldName)
    (h : ((Summary.ofName? name).isNone && (Function.ofName? name).isSome) ≠ true)
    (rest : List Lexeme) :
    run (application s operand name) (l :: rest) = run (summary s name fieldName) rest := by
  simp only [run, application, hl, if_neg h, map_eq_pure_bind, bind_assoc, pure_bind]

theorem run_application_quoted {name fieldName : String} {l : Lexeme}
    (hl : l.token = .quoted fieldName) (h : (Summary.ofName? name).isSome) (rest : List Lexeme) :
    run (application s operand name) (l :: rest) = run (summary s name fieldName) rest := by
  refine run_application_summary s operand hl ?_ rest
  rw [← Option.not_isSome, h]
  exact Bool.false_ne_true

theorem summary_of_application {name fieldName : String} {l : Lexeme}
    (hl : l.token = .quoted fieldName) {rest : List Lexeme} {r : Expr × List Lexeme}
    (h : run (application s operand name) (l :: rest) = .ok r) :
    run (summary s name fieldName) rest = .ok r := by
  by_cases hs : ((Summary.ofName? name).isNone && (Function.ofName? name).isSome) = true
  · simp only [run, application, hl, if_pos hs] at h
    cases h
  · rwa [run_application_summary s operand hl hs] at h

theorem run_application_call {name : String} {ts : List Lexeme}
    (h : ∀ fieldName, current ts ≠ .quoted fieldName) :
    run (application s operand name) ts = run (call s operand name) ts := by
  cases ts with
  | nil => rfl
  | cons l rest =>
    cases hl : l.token with
    | quoted fieldName => exact absurd hl (h fieldName)
    | _ => simp only [run, application, hl]

theorem run_connective {l : Lexeme} (h : l.token = .leftParen) (name : String) (place : Nat)
    (rest : List Lexeme) :
    run (connective s operand name place) (l :: rest) = run (call s operand name) rest := by
  simp only [run, connective, if_pos h, map_eq_pure_bind, bind_assoc, pure_bind]

theorem run_word {l : Lexeme} (h : l.token = .leftParen) (name : String) (rest : List Lexeme) :
    run (word s operand name) (l :: rest) = run (application s operand name) rest := by
  simp only [run, word, if_pos h, map_eq_pure_bind, bind_assoc, pure_bind]

section Primary
variable {l : Lexeme} (rest : List Lexeme)

theorem run_primary_number {x : Float} (h : l.token = .number x) :
    run (primary s operand) (l :: rest) = .ok (.number x, rest) := by
  simp only [run, primary, h]
  rfl

theorem run_primary_boolean {b : Bool} (h : l.token = .boolean b) :
    run (primary s operand) (l :: rest) = .ok (.boolean b, rest) := by
  simp only [run, primary, h]
  rfl

theorem run_primary_field {name : String} (h : l.token = .field name) :
    run (primary s operand) (l :: rest) = do
      let id ← resolve s name
      return (.field id, rest) := by
  simp only [run, primary, h, map_eq_pure_bind, bind_assoc, pure_bind]

theorem run_primary_parenthesis (h : l.token = .leftParen) :
    run (primary s operand) (l :: rest) = do
      let r ← run (expression s operand) rest
      let final ← runClose s r.2
      return (r.1, final) := by
  simp only [run, runClose, primary, h, map_eq_pure_bind, bind_assoc, pure_bind]

theorem run_primary_word {name : String} (h : l.token = .word name) :
    run (primary s operand) (l :: rest) = run (word s operand name) rest := by
  simp only [run, primary, h, map_eq_pure_bind, bind_assoc, pure_bind]

theorem run_primary_and (h : l.token = .and) :
    run (primary s operand) (l :: rest) = run (connective s operand "AND" l.start) rest := by
  simp only [run, primary, h, map_eq_pure_bind, bind_assoc, pure_bind]

theorem run_primary_or (h : l.token = .or) :
    run (primary s operand) (l :: rest) = run (connective s operand "OR" l.start) rest := by
  simp only [run, primary, h, map_eq_pure_bind, bind_assoc, pure_bind]

end Primary

def runExponent (base : Expr) : List Lexeme → Except ParseError (Expr × List Lexeme)
  | [] => .ok (base, [])
  | l :: rest =>
    if l.token = .caret then do
      let r ← run operand rest
      let e ← bounded s (.binary .power base r.1) r.2
      return (e, r.2)
    else .ok (base, l :: rest)

theorem run_power (ts : List Lexeme) :
    run (power s operand) ts = (do
      let r ← run (primary s operand) ts
      runExponent s operand r.1 r.2) := by
  simp only [run, power, map_eq_pure_bind, bind_assoc, pure_bind]
  refine bind_congr fun ⟨base, after, hafter⟩ => ?_
  cases after with
  | nil => rfl
  | cons l rest =>
    by_cases h : l.token = .caret
    · simp only [runExponent, run, if_pos h, map_eq_pure_bind, bind_assoc, pure_bind]
    · simp only [runExponent, if_neg h]
      rfl

theorem run_signed_minus {l : Lexeme} (h : l.token = .minus) (rest : List Lexeme) :
    run (signed s operand) (l :: rest) = do
      let r ← run operand rest
      let e ← bounded s (.negate r.1) r.2
      return (e, r.2) := by
  simp only [run, signed, if_pos h, map_eq_pure_bind, bind_assoc, pure_bind]

theorem run_signed_unsigned {ts : List Lexeme} (h : current ts ≠ .minus) :
    run (signed s operand) ts = run (power s operand) ts := by
  cases ts with
  | nil => rfl
  | cons l rest => simp only [run, signed, if_neg (show l.token ≠ .minus from h)]

end Levels

def operator? : Level → Token → Option Operator
  | .disjunction => orOperator?
  | .conjunction => andOperator?
  | .comparison => comparisonOperator?
  | .sum => sumOperator?
  | .product => productOperator?

theorem operator?_token {level : Level} {op : Operator} (h : op.level? = some level) :
    operator? level op.token = some op := by
  cases op <;> cases h <;> rfl

theorem operator?_eq_some {level : Level} {t : Token} {op : Operator}
    (h : operator? level t = some op) : op.level? = some level ∧ t = op.token := by
  cases level <;> cases t <;> cases h <;> exact ⟨rfl, rfl⟩

def step (room : Nat) : Phrase → Step Expr
  | .chain .disjunction => expression s (operand s room)
  | .chain .conjunction => conjunction s (operand s room)
  | .chain .comparison => comparison s (operand s room)
  | .chain .sum => sum s (operand s room)
  | .chain .product => product s (operand s room)
  | .operand => operand s room
  | .power => power s (operand s room)
  | .primary => primary s (operand s room)

theorem step_chain (room : Nat) (level : Level) :
    step s room (.chain level) = chain s (step s room level.part) (operator? level) := by
  cases level <;> rfl

theorem whole_eq (ts : List Lexeme) :
    whole s ts = (do
      let r ← run (step s s.limit (.chain .disjunction)) ts
      match r.2 with
      | [] => return r.1
      | l :: more =>
        if l.token = .rightParen then .error (.unbalancedParens l.start)
        else .error (unexpected s (l :: more))) := by
  simp only [whole, run, map_eq_pure_bind, bind_assoc, pure_bind]
  rfl

end Crosstab.Formula.Parser
