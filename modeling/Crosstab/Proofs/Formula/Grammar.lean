import Crosstab.Formula.Parser

/-!
# The grammar of formulas

`Derives` says which tokens make up a phrase and which tree the phrase stands for. Chains of one
level lean to the left, because what stands before their last operator is a chain again, and
exponents lean to the right, because they are operands. The number `room` bounds how many operands
are open inside one another: a sign, an exponent, parentheses and arguments open one each. A
formula may be derived with any room.
-/

namespace Crosstab.Formula

/-- The levels of the operators that form chains, from the loosest to the tightest. -/
inductive Level where
  | disjunction
  | conjunction
  | comparison
  | sum
  | product

inductive Phrase where
  | chain (level : Level)
  /-- A power, or an operand with a sign. -/
  | operand
  /-- A primary, perhaps with an exponent. -/
  | power
  | primary

def Level.part : Level → Phrase
  | disjunction => .chain .conjunction
  | conjunction => .chain .comparison
  | comparison => .chain .sum
  | sum => .chain .product
  | product => .operand

def Operator.level? : Operator → Option Level
  | or => some .disjunction
  | and => some .conjunction
  | equal | notEqual | less | greater | lessEqual | greaterEqual => some .comparison
  | add | subtract => some .sum
  | multiply | divide | modulo => some .product
  | power => none

def Operator.token : Operator → Token
  | or => .or
  | and => .and
  | equal => .equal
  | notEqual => .notEqual
  | less => .less
  | greater => .greater
  | lessEqual => .lessEqual
  | greaterEqual => .greaterEqual
  | add => .plus
  | subtract => .minus
  | multiply => .asterisk
  | divide => .slash
  | modulo => .percent
  | power => .caret

/-- A token names a function; a connective names the function that it abbreviates. -/
inductive Names : Token → Function → Prop
  | word (f : Function) : Names (.word f.name) f
  | and : Names .and .and
  | or : Names .or .or

def separated (tss : List (List Token)) : List Token := [Token.comma].intercalate tss

theorem separated_cons (ts : List Token) (tss : List (List Token)) :
    separated (ts :: tss) = ts ++ tss.flatMap (Token.comma :: ·) := by
  induction tss generalizing ts with
  | nil => simp [separated]
  | cons us uss ih =>
    rw [separated, List.intercalate_cons_cons, ← separated, ih us, List.append_assoc]
    rfl

/-- Tokens make up a phrase that stands for a tree. -/
inductive Derives (resolve : String → Option FieldId) :
    (room : Nat) → Phrase → List Token → Expr → Prop
  | part {room : Nat} {level : Level} {ts : List Token} {e : Expr}
      (h : Derives resolve room level.part ts e) : Derives resolve room (.chain level) ts e
  | join {room : Nat} {level : Level} {op : Operator} {ls rs : List Token} {l r : Expr}
      (hop : op.level? = some level) (hl : Derives resolve room (.chain level) ls l)
      (hr : Derives resolve room level.part rs r) :
      Derives resolve room (.chain level) (ls ++ op.token :: rs) (.binary op l r)
  | negation {room : Nat} {ts : List Token} {e : Expr} (h : Derives resolve room .operand ts e) :
      Derives resolve (room + 1) .operand (.minus :: ts) (.negate e)
  | unsigned {room : Nat} {ts : List Token} {e : Expr} (h : Derives resolve room .power ts e) :
      Derives resolve (room + 1) .operand ts e
  | base {room : Nat} {ts : List Token} {e : Expr} (h : Derives resolve room .primary ts e) :
      Derives resolve room .power ts e
  | exponent {room : Nat} {ls rs : List Token} {l r : Expr}
      (hl : Derives resolve room .primary ls l) (hr : Derives resolve room .operand rs r) :
      Derives resolve room .power (ls ++ .caret :: rs) (.binary .power l r)
  | number {room : Nat} (x : Float) : Derives resolve room .primary [.number x] (.number x)
  | boolean {room : Nat} (b : Bool) : Derives resolve room .primary [.boolean b] (.boolean b)
  | field {room : Nat} {name : String} {id : FieldId} (hid : resolve name = some id) :
      Derives resolve room .primary [.field name] (.field id)
  | parenthesized {room : Nat} {ts : List Token} {e : Expr}
      (h : Derives resolve room (.chain .disjunction) ts e) :
      Derives resolve room .primary (.leftParen :: (ts ++ [.rightParen])) e
  | summary {room : Nat} {s : Summary} {word name : String} {id : FieldId}
      (hs : Decimal.lowerAscii word = s.name) (hid : resolve name = some id) :
      Derives resolve room .primary [.word word, .leftParen, .quoted name, .rightParen]
        (.summary s id)
  | call {room : Nat} {head : Token} {f : Function} {args : List (List Token × Expr)}
      (hhead : Names head f) (hf : f ≠ .choose) (harity : f.arity.accepts args.length = true)
      (hargs : ∀ a ∈ args, Derives resolve room (.chain .disjunction) a.1 a.2) :
      Derives resolve room .primary
        (head :: .leftParen :: (separated (args.map Prod.fst) ++ [.rightParen]))
        (.call f (args.map Prod.snd))
  | conditional {room : Nat} {cs ys ns : List Token} {c y n : Expr}
      (hc : Derives resolve room (.chain .disjunction) cs c)
      (hy : Derives resolve room (.chain .disjunction) ys y)
      (hn : Derives resolve room (.chain .disjunction) ns n) :
      Derives resolve room .primary
        (.word Function.choose.name :: .leftParen :: (separated [cs, ys, ns] ++ [.rightParen]))
        (.conditional c y n)

/-- Room only bounds a derivation; more of it does no harm. -/
theorem Derives.mono {resolve : String → Option FieldId} {room room' : Nat} {phrase : Phrase}
    {ts : List Token} {e : Expr} (h : Derives resolve room phrase ts e) (hle : room ≤ room') :
    Derives resolve room' phrase ts e := by
  induction h generalizing room' with
  | part _ ih => exact .part (ih hle)
  | join hop _ _ ihl ihr => exact .join hop (ihl hle) (ihr hle)
  | negation _ ih =>
    obtain ⟨k, rfl⟩ := Nat.exists_eq_add_of_lt hle
    exact .negation (ih (by omega))
  | unsigned _ ih =>
    obtain ⟨k, rfl⟩ := Nat.exists_eq_add_of_lt hle
    exact .unsigned (ih (by omega))
  | base _ ih => exact .base (ih hle)
  | exponent _ _ ihl ihr => exact .exponent (ihl hle) (ihr hle)
  | number x => exact .number x
  | boolean b => exact .boolean b
  | field hid => exact .field hid
  | parenthesized _ ih => exact .parenthesized (ih hle)
  | summary hs hid => exact .summary hs hid
  | call hhead hf harity _ ih => exact .call hhead hf harity fun a ha => ih a ha hle
  | conditional _ _ _ ihc ihy ihn => exact .conditional (ihc hle) (ihy hle) (ihn hle)

/-- Tokens up to the end of a formula spell a tree. -/
def SpellsWithin (resolve : String → Option FieldId) (room : Nat) (ts : List Token) (e : Expr) :
    Prop :=
  ∃ body, ts = body ++ [.endOfFormula] ∧ Derives resolve room (.chain .disjunction) body e

def Spells (resolve : String → Option FieldId) (ts : List Token) (e : Expr) : Prop :=
  ∃ room, SpellsWithin resolve room ts e

end Crosstab.Formula
