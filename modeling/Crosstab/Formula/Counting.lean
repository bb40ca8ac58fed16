import Crosstab.Formula.Parser

/-!
# Reading with counters

A reader can keep its nesting in counters that it writes as it goes: how many operands are open
inside one another, and how high the tree is that it read last. The first stops it from opening one
operand too many, and the second tells the height of a tree without a look at the tree. What was
written before an error stays written. Beside the two stand the greatest values that they had.
-/

namespace Crosstab.Formula

structure Counters where
  /-- The operands that are open inside one another. -/
  active : Nat
  /-- The height of the tree that was read last. -/
  height : Nat
  /-- The most operands that were open at once. -/
  most : Nat
  /-- The height of the highest tree so far. -/
  highest : Nat

namespace Counters

def zero : Counters := ⟨0, 0, 0, 0⟩

def opened (c : Counters) : Counters :=
  { c with active := c.active + 1, most := max c.most (c.active + 1) }

def closed (c : Counters) : Counters := { c with active := c.active - 1 }

def made (height : Nat) (c : Counters) : Counters := { c with highest := max c.highest height }

def left (height : Nat) (c : Counters) : Counters := { c with height := height }

end Counters

namespace Counting

abbrev Action (α : Type) := ExceptT ParseError (StateM Counters) α

def Action.of {α : Type} (x : Except ParseError α) : Action α := ExceptT.mk (pure x)

abbrev Step (α : Type) := (ts : List Lexeme) → Action (α × Rest ts)

/-! ### Fewer tokens -/

section Rests
variable {l : Lexeme} {rest ts : List Lexeme}

theorem lt_cons (l : Lexeme) (rest : List Lexeme) : rest.length < (l :: rest).length :=
  Nat.lt_succ_self _

theorem le_self (ts : List Lexeme) : ts.length ≤ ts.length := Nat.le_refl _

theorem Rest.lt_cons (final : Rest rest) : final.val.length < (l :: rest).length :=
  Nat.lt_succ_of_lt final.property

theorem Rest.lt_of_remainder (after : Rest ts) (final : Remainder after.val) :
    final.val.length < ts.length :=
  Nat.lt_of_le_of_lt final.property after.property

theorem Rest.le_of_remainder (after : Rest ts) (final : Remainder after.val) :
    final.val.length ≤ ts.length :=
  Nat.le_of_lt (Rest.lt_of_remainder after final)

theorem Rest.lt_cons_of_rest (after : Rest rest) (final : Rest after.val) :
    final.val.length < (l :: rest).length :=
  Nat.lt_succ_of_lt (Nat.lt_trans final.property after.property)

theorem Rest.lt_of_cons (after : Rest ts) (h : after.val = l :: rest) (final : Rest rest) :
    final.val.length < ts.length := by
  have := after.property
  have := final.property
  simp only [h, List.length_cons] at *
  omega

theorem Remainder.lt_of_rest (after : Remainder ts) (final : Rest after.val) :
    final.val.length < ts.length :=
  Nat.lt_of_lt_of_le final.property after.property

end Rests

/-! ### Steps -/

/-- Opens an operand for what is read inside it, and closes it whatever comes of that. -/
def inside {α : Type} (a : Action α) : Action α := fun c =>
  let (result, c') := a c.opened
  (result, c'.closed)

variable (s : Setting)

def node (below : Nat) (rest : List Lexeme) : Action Nat := do
  if s.limit ≤ below then Action.of (.error (Parser.tooDeep s rest))
  else
    modify (·.made (below + 1))
    return below + 1

def leaf {α : Type} (a : α) : Action α := do
  modify fun c => (c.made 1).left 1
  return a

section Chains
variable (part : Step Expr) (operator? : Token → Option Operator)

def chainTail (left : Expr) (height : Nat) (ts : List Lexeme) :
    Action ((Expr × Nat) × Remainder ts) :=
  match ts with
  | [] => return ((left, height), ⟨[], Nat.le_refl _⟩)
  | l :: rest =>
    match operator? l.token with
    | none => return ((left, height), ⟨l :: rest, Nat.le_refl _⟩)
    | some op => do
      let (right, after) ← part rest
      let c ← get
      let height ← node s (max height c.height) after.val
      let (r, final) ← chainTail (.binary op left right) height after.val
      return (r, ⟨final.val, by
        have := after.property
        have := final.property
        simp only [List.length_cons]
        omega⟩)
termination_by ts.length
decreasing_by
  have := after.property
  simp only [List.length_cons]
  omega

def chain : Step Expr := fun ts => do
  let (left, after) ← part ts
  let c ← get
  let (r, final) ← chainTail s part operator? left c.height after.val
  modify (·.left r.2)
  return (r.1, ⟨final.val, Rest.lt_of_remainder after final⟩)

end Chains

section Levels
variable (operand : Step Expr)

def product : Step Expr := chain s operand Parser.productOperator?

def sum : Step Expr := chain s (product s operand) Parser.sumOperator?

def comparison : Step Expr := chain s (sum s operand) Parser.comparisonOperator?

def conjunction : Step Expr := chain s (comparison s operand) Parser.andOperator?

def expression : Step Expr := chain s (conjunction s operand) Parser.orOperator?

def argumentsTail (highest : Nat) (ts : List Lexeme) :
    Action ((List Expr × Nat) × Remainder ts) :=
  match ts with
  | [] => return (([], highest), ⟨[], Nat.le_refl _⟩)
  | l :: rest =>
    if l.token = .comma then do
      let (e, after) ← expression s operand rest
      let c ← get
      let (r, final) ← argumentsTail (max highest c.height) after.val
      return ((e :: r.1, r.2), ⟨final.val, by
        have := after.property
        have := final.property
        simp only [List.length_cons]
        omega⟩)
    else return (([], highest), ⟨l :: rest, Nat.le_refl _⟩)
termination_by ts.length
decreasing_by
  have := after.property
  simp only [List.length_cons]
  omega

def arguments (ts : List Lexeme) : Action ((List Expr × Nat) × Remainder ts) :=
  if Parser.current ts = .rightParen then return (([], 0), ⟨ts, le_self ts⟩)
  else do
    let (e, after) ← expression s operand ts
    let c ← get
    let (r, final) ← argumentsTail s operand c.height after.val
    return ((e :: r.1, r.2), ⟨final.val, Rest.le_of_remainder after final⟩)

def call (name : String) : Step Expr := fun ts => do
  let f ← Action.of (Parser.function s name ts)
  let (r, after) ← arguments s operand ts
  let final ← Action.of (Parser.close s after.val)
  if f.arity.accepts r.1.length then
    let height ← node s r.2 final.val
    modify (·.left height)
    return (Parser.build f r.1, ⟨final.val, Remainder.lt_of_rest after final⟩)
  else Action.of (.error (.arityMismatch f.name f.arity r.1.length))

def summary (name fieldName : String) : Step Expr := fun ts =>
  match Summary.ofName? name with
  | none => Action.of (.error (.unknownFunction name))
  | some f => do
    let id ← Action.of (Parser.resolve s fieldName)
    let final ← Action.of (Parser.close s ts)
    leaf (.summary f id, final)

def application (name : String) : Step Expr := fun ts =>
  match ts with
  | [] => call s operand name []
  | l :: rest =>
    match l.token with
    | .quoted fieldName =>
      if (Summary.ofName? name).isNone && (Function.ofName? name).isSome then
        Action.of (.error (Parser.unexpected s (l :: rest)))
      else do
        let (e, final) ← summary s name fieldName rest
        return (e, ⟨final.val, Rest.lt_cons final⟩)
    | _ => call s operand name (l :: rest)

def connective (name : String) (place : Nat) : Step Expr := fun ts =>
  match ts with
  | [] => Action.of (.error (.unexpectedToken name place))
  | l :: rest =>
    if l.token = .leftParen then do
      let (e, final) ← call s operand name rest
      return (e, ⟨final.val, Rest.lt_cons final⟩)
    else Action.of (.error (.unexpectedToken name place))

def word (name : String) : Step Expr := fun ts =>
  match ts with
  | [] => Action.of (.error (.unexpectedToken name s.stop))
  | l :: rest =>
    if l.token = .leftParen then do
      let (e, final) ← application s operand name rest
      return (e, ⟨final.val, Rest.lt_cons final⟩)
    else Action.of (.error (.unexpectedToken name l.start))

def primary : Step Expr := fun ts =>
  match ts with
  | [] => Action.of (.error (Parser.unexpected s []))
  | l :: rest =>
    match l.token with
    | .number x => leaf (.number x, ⟨rest, lt_cons l rest⟩)
    | .boolean b => leaf (.boolean b, ⟨rest, lt_cons l rest⟩)
    | .field name => do
      let id ← Action.of (Parser.resolve s name)
      leaf (.field id, ⟨rest, lt_cons l rest⟩)
    | .and => do
      let (e, final) ← connective s operand "AND" l.start rest
      return (e, ⟨final.val, Rest.lt_cons final⟩)
    | .or => do
      let (e, final) ← connective s operand "OR" l.start rest
      return (e, ⟨final.val, Rest.lt_cons final⟩)
    | .word name => do
      let (e, final) ← word s operand name rest
      return (e, ⟨final.val, Rest.lt_cons final⟩)
    | .leftParen => do
      let (e, after) ← expression s operand rest
      let final ← Action.of (Parser.close s after.val)
      return (e, ⟨final.val, Rest.lt_cons_of_rest after final⟩)
    | .rightParen => Action.of (.error (.unbalancedParens l.start))
    | _ => Action.of (.error (Parser.unexpected s (l :: rest)))

def power : Step Expr := fun ts => do
  let (base, after) ← primary s operand ts
  match h : after.val with
  | [] => return (base, after)
  | l :: rest =>
    if l.token = .caret then
      let c ← get
      let (exponent, final) ← operand rest
      let c' ← get
      let height ← node s (max c.height c'.height) final.val
      modify (·.left height)
      return (.binary .power base exponent, ⟨final.val, Rest.lt_of_cons after h final⟩)
    else return (base, after)

def signed : Step Expr := fun ts =>
  match ts with
  | [] => power s operand []
  | l :: rest =>
    if l.token = .minus then do
      let (e, final) ← operand rest
      let c ← get
      let height ← node s c.height final.val
      modify (·.left height)
      return (.negate e, ⟨final.val, Rest.lt_cons final⟩)
    else power s operand (l :: rest)

end Levels

/-- An operand. It is the counter that refuses to open one too many; `room` only bounds the
recursion and is not used up before. -/
def operand : (room : Nat) → Step Expr
  | 0 => fun ts => Action.of (.error (Parser.tooDeep s ts))
  | room + 1 => fun ts => do
    let c ← get
    if s.limit ≤ c.active then Action.of (.error (Parser.tooDeep s ts))
    else inside (signed s (operand room) ts)

def whole (ts : List Lexeme) : Action Expr := do
  let (e, rest) ← expression s (operand s s.limit) ts
  match rest.val with
  | [] => return e
  | l :: more =>
    if l.token = .rightParen then Action.of (.error (.unbalancedParens l.start))
    else Action.of (.error (Parser.unexpected s (l :: more)))

end Counting

def countWithin (limit : Nat) (resolve : String → Option FieldId) (formula : String) :
    Except ParseError Expr × Counters :=
  Counting.whole ⟨resolve, limit, formula.length⟩ (lexemes formula) .zero

end Crosstab.Formula
