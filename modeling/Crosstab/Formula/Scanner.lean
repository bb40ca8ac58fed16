import Crosstab.Formula.Lexer

/-!
# Reading with a state

A formula can be read with a state that is written as characters are taken: the characters that are
left, how many were taken, and where the last token begins. Characters are taken one by one, and the
count goes up with each of them. White space, numbers and words end before the first character that
is none of theirs, which is only looked at. Quotes and brackets end with the closing character,
which is taken too.
-/

namespace Crosstab.Formula

structure Scanner where
  rest : List Char
  /-- How many characters were taken. -/
  offset : Nat
  /-- Where the token begins that was read last. -/
  tokenStart : Nat

namespace Scanner

def start (formula : String) : Scanner := ⟨formula.toList, 0, 0⟩

abbrev Action (α : Type) := StateM Scanner α

def advance (s : Scanner) (cs : List Char) : Scanner :=
  { s with rest := cs, offset := s.offset + 1 }

def peek : Action (Option Char) := fun s => (s.rest.head?, s)

def bump : Action (Option Char) := fun s =>
  match s.rest with
  | [] => (none, s)
  | c :: cs => (some c, s.advance cs)

def bumpWhile (p : Char → Bool) (s : Scanner) : List Char × Scanner :=
  match _h : s.rest with
  | [] => ([], s)
  | c :: cs =>
    if p c then
      let (taken, s') := bumpWhile p (s.advance cs)
      (c :: taken, s')
    else ([], s)
termination_by s.rest.length
decreasing_by rw [_h]; exact Nat.lt_succ_self _

/-- Takes characters up to a closing one and that one too. False if it does not come. -/
def bumpUntil (close : Char) (s : Scanner) : (List Char × Bool) × Scanner :=
  match _h : s.rest with
  | [] => (([], false), s)
  | c :: cs =>
    if c = close then (([], true), s.advance cs)
    else
      let ((taken, closed), s') := bumpUntil close (s.advance cs)
      ((c :: taken, closed), s')
termination_by s.rest.length
decreasing_by rw [_h]; exact Nat.lt_succ_self _

def bumpNumber (pointSeen : Bool) (s : Scanner) : List Char × Scanner :=
  match _h : s.rest with
  | [] => ([], s)
  | c :: cs =>
    if Decimal.isDigit c then
      let (taken, s') := bumpNumber pointSeen (s.advance cs)
      (c :: taken, s')
    else if c = '.' ∧ pointSeen = false then
      let (taken, s') := bumpNumber true (s.advance cs)
      (c :: taken, s')
    else ([], s)
termination_by s.rest.length
decreasing_by all_goals rw [_h]; exact Nat.lt_succ_self _

def pair (second : Char) (paired single : Token) : Action Token := do
  if (← peek) = some second then
    let _ ← bump
    return paired
  else return single

def quoted : Action Token := do
  let (name, _) ← bumpUntil '"'
  return .quoted (String.ofList name)

def field : Action Token := do
  let (name, closed) ← bumpUntil ']'
  if closed then return .field (String.ofList (Text.trimBlank name))
  else return .unclosedField (String.ofList name)

def number (first : Char) : Action Token := do
  let tail ← bumpNumber (first == '.')
  return .ofNumber first (first :: tail)

def word (first : Char) : Action Token := do
  let tail ← bumpWhile Token.continuesWord
  return .ofWord (first :: tail)

def other (c : Char) : Action Token :=
  if Decimal.isDigit c || c == '.' then number c
  else if Token.isLetter c then word c
  else return .illegal c

def startingWith (c : Char) : Action Token :=
  match Token.ofChar? c with
  | some t => return t
  | none =>
    match Token.ofPair? c with
    | some (second, paired, single) => pair second paired single
    | none => if c = '"' then quoted else if c = '[' then field else other c

def token : Option Char → Action Token
  | none => return .endOfFormula
  | some c => startingWith c

def next : Action Token := do
  let _ ← bumpWhile Text.isBlank
  modify fun s => { s with tokenStart := s.offset }
  let c ← bump
  token c

def after (formula : String) : (calls : Nat) → Scanner
  | 0 => start formula
  | k + 1 => (next (after formula k)).2

/-- The token that a call yields, from where it begins up to what is taken with it. The calls are
counted from zero. -/
def call (formula : String) (k : Nat) : Lexeme :=
  let (token, s) := next (after formula k)
  ⟨token, s.tokenStart, s.offset⟩

end Scanner

end Crosstab.Formula
