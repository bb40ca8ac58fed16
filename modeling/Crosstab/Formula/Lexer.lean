import Crosstab.Decimal
import Crosstab.Formula.Token
import Crosstab.Text

/-!
# From characters to tokens

`Token.scan` reads one token and `Cursor.next` places it, after the white space before it. Every
text is a sequence of tokens: what fits none is an illegal character. `lexemes` is the sequence up
to the end of the formula and `tokenize` adds that end.

`scan_length_le` says that reading never gives characters back, so that every token but the end
uses up at least one of them.
-/

namespace Crosstab.Formula

open Decimal (isDigit)

namespace Token

def isLetter (c : Char) : Bool := c.isAlpha || c == '_'

def continuesWord (c : Char) : Bool := isLetter c || isDigit c

def numberTail (pointSeen : Bool) : List Char → List Char × List Char
  | [] => ([], [])
  | c :: cs =>
    if isDigit c then
      let (tail, rest) := numberTail pointSeen cs
      (c :: tail, rest)
    else if c = '.' ∧ pointSeen = false then
      let (tail, rest) := numberTail true cs
      (c :: tail, rest)
    else ([], c :: cs)

def splitAtClose (close : Char) : List Char → Option (List Char × List Char)
  | [] => none
  | c :: cs =>
    if c = close then some ([], cs)
    else (splitAtClose close cs).map fun (inner, rest) => (c :: inner, rest)

def ofNumber (first : Char) (written : List Char) : Token :=
  match Decimal.Numeral.magnitude? false written with
  | some n => .number n.toFloat
  | none => .illegal first

def ofWord (written : List Char) : Token :=
  match String.ofList (written.map Char.toUpper) with
  | "TRUE" => .boolean true
  | "FALSE" => .boolean false
  | "AND" => .and
  | "OR" => .or
  | name => .word name

def ofChar? : Char → Option Token
  | '+' => some .plus
  | '-' => some .minus
  | '*' => some .asterisk
  | '/' => some .slash
  | '%' => some .percent
  | '^' => some .caret
  | '(' => some .leftParen
  | ')' => some .rightParen
  | ',' => some .comma
  | _ => none

/-- The characters that may begin a token of two: the second one, the token of both, and the token
of the first alone. -/
def ofPair? : Char → Option (Char × Token × Token)
  | '=' => some ('=', .equal, .illegal '=')
  | '!' => some ('=', .notEqual, .illegal '!')
  | '&' => some ('&', .and, .illegal '&')
  | '|' => some ('|', .or, .illegal '|')
  | '<' => some ('=', .lessEqual, .less)
  | '>' => some ('=', .greaterEqual, .greater)
  | _ => none

def pair (second : Char) (paired single : Token) : List Char → Token × List Char
  | [] => (single, [])
  | c :: cs => if c = second then (paired, cs) else (single, c :: cs)

/-- A quoted name; one that is never closed ends with the formula. -/
def scanQuoted (cs : List Char) : Token × List Char :=
  match splitAtClose '"' cs with
  | some (inner, rest) => (.quoted (String.ofList inner), rest)
  | none => (.quoted (String.ofList cs), [])

def scanField (cs : List Char) : Token × List Char :=
  match splitAtClose ']' cs with
  | some (inner, rest) => (.field (String.ofList (Text.trimBlank inner)), rest)
  | none => (.unclosedField (String.ofList cs), [])

def scanOther (c : Char) (cs : List Char) : Token × List Char :=
  if isDigit c || c == '.' then
    let tail := numberTail (c == '.') cs
    (ofNumber c (c :: tail.1), tail.2)
  else if isLetter c then
    (ofWord (c :: cs.takeWhile continuesWord), cs.dropWhile continuesWord)
  else (.illegal c, cs)

def scan (c : Char) (cs : List Char) : Token × List Char :=
  match ofChar? c with
  | some token => (token, cs)
  | none =>
    match ofPair? c with
    | some (second, paired, single) => pair second paired single cs
    | none =>
      if c = '"' then scanQuoted cs else if c = '[' then scanField cs else scanOther c cs

theorem numberTail_append (b : Bool) (cs : List Char) :
    (numberTail b cs).1 ++ (numberTail b cs).2 = cs := by
  fun_induction numberTail b cs <;> simp_all

theorem numberTail_length_le (b : Bool) (cs : List Char) :
    (numberTail b cs).2.length ≤ cs.length := by
  have h := congrArg List.length (numberTail_append b cs)
  rw [List.length_append] at h
  omega

theorem splitAtClose_append {close : Char} {cs inner rest : List Char}
    (h : splitAtClose close cs = some (inner, rest)) : inner ++ close :: rest = cs := by
  induction cs generalizing inner with
  | nil => simp [splitAtClose] at h
  | cons c cs ih =>
    rw [splitAtClose] at h
    split at h
    · obtain ⟨rfl, rfl⟩ := Prod.mk.inj (Option.some.inj h)
      simp [*]
    · obtain ⟨⟨i, r⟩, hs, he⟩ := Option.map_eq_some_iff.1 h
      obtain ⟨rfl, rfl⟩ := Prod.mk.inj he
      simp [ih hs]

theorem pair_length_le (second : Char) (paired single : Token) (cs : List Char) :
    (pair second paired single cs).2.length ≤ cs.length := by
  unfold pair
  split
  · simp
  · split <;> simp

theorem dropWhile_length_le (p : Char → Bool) (cs : List Char) :
    (cs.dropWhile p).length ≤ cs.length := by
  have h := congrArg List.length (List.takeWhile_append_dropWhile (p := p) (l := cs))
  rw [List.length_append] at h
  omega

theorem splitAtClose_length_lt {close : Char} {cs inner rest : List Char}
    (h : splitAtClose close cs = some (inner, rest)) : rest.length < cs.length := by
  rw [← splitAtClose_append h, List.length_append, List.length_cons]
  omega

theorem scanQuoted_length_le (cs : List Char) : (scanQuoted cs).2.length ≤ cs.length := by
  unfold scanQuoted
  split
  · exact Nat.le_of_lt (splitAtClose_length_lt ‹_›)
  · exact Nat.zero_le _

theorem scanField_length_le (cs : List Char) : (scanField cs).2.length ≤ cs.length := by
  unfold scanField
  split
  · exact Nat.le_of_lt (splitAtClose_length_lt ‹_›)
  · exact Nat.zero_le _

theorem scanOther_length_le (c : Char) (cs : List Char) :
    (scanOther c cs).2.length ≤ cs.length := by
  unfold scanOther
  split
  · exact numberTail_length_le ..
  · split
    · exact dropWhile_length_le ..
    · exact Nat.le_refl _

theorem scan_length_le (c : Char) (cs : List Char) : (scan c cs).2.length ≤ cs.length := by
  unfold scan
  split
  · exact Nat.le_refl _
  · split
    · exact pair_length_le ..
    · split
      · exact scanQuoted_length_le cs
      · split
        · exact scanField_length_le cs
        · exact scanOther_length_le c cs

end Token

/-- A place in a formula: the characters not yet read and the offset of the first of them. -/
structure Cursor where
  offset : Nat
  rest : List Char

namespace Cursor

def start (formula : String) : Cursor := ⟨0, formula.toList⟩

def resume (c : Cursor) : Nat := c.offset + (c.rest.takeWhile Text.isBlank).length

/-- The next token, and the place after it. At the end of the formula that is the end, again and
again. -/
def next (c : Cursor) : Lexeme × Cursor :=
  match c.rest.dropWhile Text.isBlank with
  | [] => (⟨.endOfFormula, c.resume, c.resume⟩, ⟨c.resume, []⟩)
  | ch :: cs =>
    let (token, rest) := Token.scan ch cs
    let stop := c.resume + (cs.length + 1 - rest.length)
    (⟨token, c.resume, stop⟩, ⟨stop, rest⟩)

def lexemes (c : Cursor) : List Lexeme :=
  match _h : c.rest.dropWhile Text.isBlank with
  | [] => []
  | _ :: _ => c.next.1 :: lexemes c.next.2
termination_by c.rest.length
decreasing_by
  rename_i ch cs
  have hd := Token.dropWhile_length_le Text.isBlank c.rest
  have hs := Token.scan_length_le ch cs
  simp only [next, _h]
  rw [_h, List.length_cons] at hd
  show (Token.scan ch cs).2.length < c.rest.length
  omega

end Cursor

def lexemes (formula : String) : List Lexeme := (Cursor.start formula).lexemes

def endLexeme (formula : String) : Lexeme :=
  ⟨.endOfFormula, formula.length, formula.length⟩

def tokenize (formula : String) : List Lexeme := lexemes formula ++ [endLexeme formula]

end Crosstab.Formula
