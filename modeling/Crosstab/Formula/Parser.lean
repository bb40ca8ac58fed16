import Crosstab.Formula.Expr
import Crosstab.Formula.Lexer

/-!
# From tokens to trees

Operators bind, from the loosest to the tightest: `OR`, `AND`, comparisons, `+ -`, `* / %`, the
sign, `^`. Those of one level form chains that lean to the left; the right operand of `^` may
have a sign or another `^`.

A reading step takes tokens and returns a tree and the tokens left, fewer than it was given. Two
bounds apply to nesting: the tree may not be higher than a limit, and no more operands than that
may be open inside one another. `operand` counts the second down, and that is why it ends.
-/

namespace Crosstab.Formula

/-- Why a formula is refused. Positions are offsets in characters. -/
inductive ParseError where
  | unexpectedToken (found : String) (position : Nat)
  | unknownField (name : String)
  | unknownFunction (name : String)
  | arityMismatch (function : String) (expected : Arity) (found : Nat)
  | unbalancedParens (position : Nat)
  | nestingTooDeep (limit position : Nat)
  deriving DecidableEq

def ParseError.message : ParseError → String
  | unexpectedToken found position =>
    "unexpected '" ++ found ++ "' at position " ++ Nat.repr position
  | unknownField name => "unknown field: " ++ name
  | unknownFunction name => "unknown function: " ++ name
  | arityMismatch function expected found =>
    function ++ " expects " ++ expected.text ++ " argument(s), found " ++ Nat.repr found
  | unbalancedParens position => "unbalanced parentheses at position " ++ Nat.repr position
  | nestingTooDeep limit position =>
    "formula nests deeper than " ++ Nat.repr limit ++ " levels at position " ++ Nat.repr position

def nestingLimit : Nat := 64

/-- What reading depends on: the ids of field names, the nesting limit, and the offset of the end
of the formula. -/
structure Setting where
  resolve : String → Option FieldId
  limit : Nat
  stop : Nat

abbrev Rest (ts : List Lexeme) := { rest : List Lexeme // rest.length < ts.length }

abbrev Remainder (ts : List Lexeme) := { rest : List Lexeme // rest.length ≤ ts.length }

/-- A reading step that uses up a token at least. -/
abbrev Step (α : Type) := (ts : List Lexeme) → Except ParseError (α × Rest ts)

namespace Parser
variable (s : Setting)

def position : List Lexeme → Nat
  | [] => s.stop
  | l :: _ => l.start

def current : List Lexeme → Token
  | [] => .endOfFormula
  | l :: _ => l.token

def unexpected (ts : List Lexeme) : ParseError :=
  .unexpectedToken (current ts).text (position s ts)

def tooDeep (ts : List Lexeme) : ParseError := .nestingTooDeep s.limit (position s ts)

def bounded (e : Expr) (rest : List Lexeme) : Except ParseError Expr :=
  if s.limit < e.depth then .error (tooDeep s rest) else .ok e

def resolve (name : String) : Except ParseError FieldId :=
  match s.resolve name with
  | some id => .ok id
  | none => .error (.unknownField name)

def close (ts : List Lexeme) : Except ParseError (Rest ts) :=
  match ts with
  | [] => .error (.unbalancedParens s.stop)
  | l :: rest =>
    if l.token = .rightParen then .ok ⟨rest, Nat.lt_succ_self _⟩
    else .error (unexpected s (l :: rest))

section Chains
variable (part : Step Expr) (operator? : Token → Option Operator)

def chainTail (left : Expr) (ts : List Lexeme) : Except ParseError (Expr × Remainder ts) :=
  match ts with
  | [] => .ok (left, ⟨[], Nat.le_refl _⟩)
  | l :: rest =>
    match operator? l.token with
    | none => .ok (left, ⟨l :: rest, Nat.le_refl _⟩)
    | some op => do
      let (right, after) ← part rest
      let e ← bounded s (.binary op left right) after.val
      let (e, final) ← chainTail e after.val
      return (e, ⟨final.val, by
        have := after.property
        have := final.property
        simp only [List.length_cons]
        omega⟩)
termination_by ts.length
decreasing_by
  have := after.property
  simp only [List.length_cons]
  omega

def chain : Step Expr := fun ts => do
  let (left, after) ← part ts
  let (e, final) ← chainTail s part operator? left after.val
  return (e, ⟨final.val, Nat.lt_of_le_of_lt final.property after.property⟩)

end Chains

def orOperator? : Token → Option Operator
  | .or => some .or
  | _ => none

def andOperator? : Token → Option Operator
  | .and => some .and
  | _ => none

def comparisonOperator? : Token → Option Operator
  | .equal => some .equal
  | .notEqual => some .notEqual
  | .less => some .less
  | .greater => some .greater
  | .lessEqual => some .lessEqual
  | .greaterEqual => some .greaterEqual
  | _ => none

def sumOperator? : Token → Option Operator
  | .plus => some .add
  | .minus => some .subtract
  | _ => none

def productOperator? : Token → Option Operator
  | .asterisk => some .multiply
  | .slash => some .divide
  | .percent => some .modulo
  | _ => none

section Levels
variable (operand : Step Expr)

def product : Step Expr := chain s operand productOperator?

def sum : Step Expr := chain s (product s operand) sumOperator?

def comparison : Step Expr := chain s (sum s operand) comparisonOperator?

def conjunction : Step Expr := chain s (comparison s operand) andOperator?

def expression : Step Expr := chain s (conjunction s operand) orOperator?

def argumentsTail (ts : List Lexeme) : Except ParseError (List Expr × Remainder ts) :=
  match ts with
  | [] => .ok ([], ⟨[], Nat.le_refl _⟩)
  | l :: rest =>
    if l.token = .comma then do
      let (e, after) ← expression s operand rest
      let (es, final) ← argumentsTail after.val
      return (e :: es, ⟨final.val, by
        have := after.property
        have := final.property
        simp only [List.length_cons]
        omega⟩)
    else .ok ([], ⟨l :: rest, Nat.le_refl _⟩)
termination_by ts.length
decreasing_by
  have := after.property
  simp only [List.length_cons]
  omega

def arguments (ts : List Lexeme) : Except ParseError (List Expr × Remainder ts) :=
  if current ts = .rightParen then .ok ([], ⟨ts, Nat.le_refl _⟩)
  else do
    let (e, after) ← expression s operand ts
    let (es, final) ← argumentsTail s operand after.val
    return (e :: es, ⟨final.val, Nat.le_of_lt (Nat.lt_of_le_of_lt final.property after.property)⟩)

def build (f : Function) : List Expr → Expr
  | [c, y, n] => if f = .choose then .conditional c y n else .call f [c, y, n]
  | args => .call f args

def function (name : String) (ts : List Lexeme) : Except ParseError Function :=
  match Function.ofName? name with
  | some f => .ok f
  | none =>
    match Summary.ofName? name with
    | some _ => .error (unexpected s ts)
    | none => .error (.unknownFunction name)

def call (name : String) : Step Expr := fun ts => do
  let f ← function s name ts
  let (args, after) ← arguments s operand ts
  let final ← close s after.val
  if f.arity.accepts args.length then
    let e ← bounded s (build f args) final.val
    return (e, ⟨final.val, Nat.lt_of_lt_of_le final.property after.property⟩)
  else .error (.arityMismatch f.name f.arity args.length)

def summary (name fieldName : String) : Step Expr := fun ts =>
  match Summary.ofName? name with
  | none => .error (.unknownFunction name)
  | some f => do
    let id ← resolve s fieldName
    let final ← close s ts
    return (.summary f id, final)

/-- What follows a word and its opening parenthesis: a quoted field or arguments. A function that
is no summary takes no quoted field. -/
def application (name : String) : Step Expr := fun ts =>
  match ts with
  | [] => call s operand name []
  | l :: rest =>
    match l.token with
    | .quoted fieldName =>
      if (Summary.ofName? name).isNone && (Function.ofName? name).isSome then
        .error (unexpected s (l :: rest))
      else do
        let (e, final) ← summary s name fieldName rest
        return (e, ⟨final.val, Nat.lt_succ_of_lt final.property⟩)
    | _ => call s operand name (l :: rest)

/-- A connective in front of an opening parenthesis is the function of that name. -/
def connective (name : String) (place : Nat) : Step Expr := fun ts =>
  match ts with
  | [] => .error (.unexpectedToken name place)
  | l :: rest =>
    if l.token = .leftParen then do
      let (e, final) ← call s operand name rest
      return (e, ⟨final.val, Nat.lt_succ_of_lt final.property⟩)
    else .error (.unexpectedToken name place)

def word (name : String) : Step Expr := fun ts =>
  match ts with
  | [] => .error (.unexpectedToken name s.stop)
  | l :: rest =>
    if l.token = .leftParen then do
      let (e, final) ← application s operand name rest
      return (e, ⟨final.val, Nat.lt_succ_of_lt final.property⟩)
    else .error (.unexpectedToken name l.start)

def primary : Step Expr := fun ts =>
  match ts with
  | [] => .error (unexpected s [])
  | l :: rest =>
    match l.token with
    | .number x => .ok (.number x, ⟨rest, Nat.lt_succ_self _⟩)
    | .boolean b => .ok (.boolean b, ⟨rest, Nat.lt_succ_self _⟩)
    | .field name => do
      let id ← resolve s name
      return (.field id, ⟨rest, Nat.lt_succ_self _⟩)
    | .and => do
      let (e, final) ← connective s operand "AND" l.start rest
      return (e, ⟨final.val, Nat.lt_succ_of_lt final.property⟩)
    | .or => do
      let (e, final) ← connective s operand "OR" l.start rest
      return (e, ⟨final.val, Nat.lt_succ_of_lt final.property⟩)
    | .word name => do
      let (e, final) ← word s operand name rest
      return (e, ⟨final.val, Nat.lt_succ_of_lt final.property⟩)
    | .leftParen => do
      let (e, after) ← expression s operand rest
      let final ← close s after.val
      return (e, ⟨final.val, Nat.lt_succ_of_lt (Nat.lt_trans final.property after.property)⟩)
    | .rightParen => .error (.unbalancedParens l.start)
    | _ => .error (unexpected s (l :: rest))

def power : Step Expr := fun ts => do
  let (base, after) ← primary s operand ts
  match h : after.val with
  | [] => return (base, after)
  | l :: rest =>
    if l.token = .caret then
      let (exponent, final) ← operand rest
      let e ← bounded s (.binary .power base exponent) final.val
      return (e, ⟨final.val, by
        have := after.property
        have := final.property
        simp only [h, List.length_cons] at *
        omega⟩)
    else return (base, after)

def signed : Step Expr := fun ts =>
  match ts with
  | [] => power s operand []
  | l :: rest =>
    if l.token = .minus then do
      let (e, final) ← operand rest
      let e ← bounded s (.negate e) final.val
      return (e, ⟨final.val, Nat.lt_succ_of_lt final.property⟩)
    else power s operand (l :: rest)

end Levels

/-- An operand with room for `room` operands inside one another, itself included. -/
def operand : (room : Nat) → Step Expr
  | 0 => fun ts => .error (tooDeep s ts)
  | room + 1 => signed s (operand room)

def whole (ts : List Lexeme) : Except ParseError Expr := do
  let (e, rest) ← expression s (operand s s.limit) ts
  match rest.val with
  | [] => return e
  | l :: more =>
    if l.token = .rightParen then .error (.unbalancedParens l.start)
    else .error (unexpected s (l :: more))

end Parser

def parseWithin (limit : Nat) (resolve : String → Option FieldId) (formula : String) :
    Except ParseError Expr :=
  Parser.whole ⟨resolve, limit, formula.length⟩ (lexemes formula)

def parse (resolve : String → Option FieldId) (formula : String) : Except ParseError Expr :=
  parseWithin nestingLimit resolve formula

def isWellFormed (resolve : String → Option FieldId) (formula : String) : Bool :=
  (parse resolve formula).isOk

end Crosstab.Formula
