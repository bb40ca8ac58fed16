import Crosstab.Json.Basic

/-!
# Reading JSON

Characters become tokens and tokens become a document. Arrays and objects may stand in one another
up to a limit, which also bounds the recursion.
-/

namespace Crosstab.Json

open Decimal (isDigit)

inductive Token where
  | leftBrace
  | rightBrace
  | leftBracket
  | rightBracket
  | comma
  | colon
  /-- A value that is neither an array nor an object. -/
  | atom (j : Json)

namespace Token

def isBlank (c : Char) : Bool := c == ' ' || c == '\t' || c == '\n' || c == '\r'

/-- What a written string is made of: characters and escaped code units of 16 bits. -/
inductive Piece where
  | char (c : Char)
  | unit (n : Nat)

def hexValue? (c : Char) : Option Nat :=
  if isDigit c then some (c.toNat - '0'.toNat)
  else if 'a' ≤ c ∧ c ≤ 'f' then some (c.toNat - 'a'.toNat + 10)
  else if 'A' ≤ c ∧ c ≤ 'F' then some (c.toNat - 'A'.toNat + 10)
  else none

def hexUnit? (a b c d : Char) : Option Nat := do
  let a ← hexValue? a
  let b ← hexValue? b
  let c ← hexValue? c
  let d ← hexValue? d
  return ((a * 16 + b) * 16 + c) * 16 + d

def escaped? : Char → Option Char
  | '"' => some '"'
  | '\\' => some '\\'
  | '/' => some '/'
  | 'b' => some '\x08'
  | 'f' => some '\x0c'
  | 'n' => some '\n'
  | 'r' => some '\r'
  | 't' => some '\t'
  | _ => none

def pieces? : List Char → Option (List Piece × List Char)
  | [] => none
  | '"' :: cs => some ([], cs)
  | '\\' :: 'u' :: a :: b :: c :: d :: cs =>
    match hexUnit? a b c d with
    | some n => (pieces? cs).map fun (ps, rest) => (.unit n :: ps, rest)
    | none => none
  | '\\' :: c :: cs =>
    match escaped? c with
    | some c => (pieces? cs).map fun (ps, rest) => (.char c :: ps, rest)
    | none => none
  | c :: cs =>
    if c.toNat < 0x20 then none else (pieces? cs).map fun (ps, rest) => (.char c :: ps, rest)

def isHighSurrogate (n : Nat) : Bool := 0xD800 ≤ n && n < 0xDC00

def isLowSurrogate (n : Nat) : Bool := 0xDC00 ≤ n && n < 0xE000

/-- The characters of a string. Surrogates have to come in pairs. -/
def join? : List Piece → Option (List Char)
  | [] => some []
  | .char c :: ps => (join? ps).map (c :: ·)
  | .unit high :: .unit low :: ps =>
    if isHighSurrogate high then
      if isLowSurrogate low then
        (join? ps).map (Char.ofNat (0x10000 + (high - 0xD800) * 0x400 + (low - 0xDC00)) :: ·)
      else none
    else if isLowSurrogate high then none
    else (join? (.unit low :: ps)).map (Char.ofNat high :: ·)
  | .unit n :: ps =>
    if isHighSurrogate n || isLowSurrogate n then none
    else (join? ps).map (Char.ofNat n :: ·)

def inNumber (c : Char) : Bool :=
  isDigit c || c == '-' || c == '+' || c == '.' || c == 'e' || c == 'E'

def digits? (cs : List Char) : Option (List Char) :=
  if (cs.takeWhile isDigit).isEmpty then none else some (cs.dropWhile isDigit)

def isNumber (cs : List Char) : Bool :=
  let cs := match cs with
    | '-' :: ds => ds
    | _ => cs
  let whole := match cs with
    | '0' :: ds => some ds
    | _ => digits? cs
  let fraction := whole.bind fun cs => match cs with
    | '.' :: ds => digits? ds
    | _ => some cs
  let exponent := fraction.bind fun cs => match cs with
    | c :: ds =>
      if c = 'e' ∨ c = 'E' then digits? (Decimal.takeSign ds).2 else some cs
    | [] => some []
  exponent.any (·.isEmpty)

def scan? (c : Char) (cs : List Char) : Option (Token × List Char) :=
  match c with
  | '\x7b' => some (.leftBrace, cs)
  | '\x7d' => some (.rightBrace, cs)
  | '[' => some (.leftBracket, cs)
  | ']' => some (.rightBracket, cs)
  | ',' => some (.comma, cs)
  | ':' => some (.colon, cs)
  | '"' => do
    let (ps, rest) ← pieces? cs
    let inner ← join? ps
    return (.atom (.string (String.ofList inner)), rest)
  | _ =>
    if c = 'n' ∧ ['u', 'l', 'l'].isPrefixOf cs then some (.atom .null, cs.drop 3)
    else if c = 't' ∧ ['r', 'u', 'e'].isPrefixOf cs then some (.atom (.boolean true), cs.drop 3)
    else if c = 'f' ∧ ['a', 'l', 's', 'e'].isPrefixOf cs then
      some (.atom (.boolean false), cs.drop 4)
    else
      let literal := c :: cs.takeWhile inNumber
      if isNumber literal then
        some (.atom (.number (String.ofList literal)), cs.dropWhile inNumber)
      else none

def scanAll? : (room : Nat) → List Char → Option (List Token)
  | room, cs =>
    match cs.dropWhile isBlank, room with
    | [], _ => some []
    | _ :: _, 0 => none
    | c :: cs, room + 1 => do
      let (token, rest) ← scan? c cs
      let tokens ← scanAll? room rest
      return token :: tokens

end Token

abbrev Rest (ts : List Token) := { rest : List Token // rest.length < ts.length }

abbrev Step (α : Type) := (ts : List Token) → Option (α × Rest ts)

def series {α : Type} (item : Step α) (isClosing : Token → Bool) (ts : List Token) :
    Option (List α × Rest ts) :=
  match item ts with
  | none => none
  | some (a, ⟨[], _⟩) => none
  | some (a, ⟨t :: rest, h⟩) =>
    if isClosing t then some ([a], ⟨rest, Nat.lt_trans (Nat.lt_succ_self _) h⟩)
    else
      match t with
      | .comma =>
        match series item isClosing rest with
        | some (as, final) =>
          some (a :: as, ⟨final.val, by
            have := final.property
            simp only [List.length_cons] at h
            omega⟩)
        | none => none
      | _ => none
termination_by ts.length
decreasing_by
  simp only [List.length_cons] at h
  omega

def items {α : Type} (item : Step α) (isClosing : Token → Bool) : Step (List α) := fun ts =>
  match ts with
  | [] => none
  | t :: rest =>
    if isClosing t then some ([], ⟨rest, Nat.lt_succ_self _⟩)
    else series item isClosing (t :: rest)

def Token.isRightBracket : Token → Bool
  | .rightBracket => true
  | _ => false

def Token.isRightBrace : Token → Bool
  | .rightBrace => true
  | _ => false

def member (value : Step Json) : Step (String × Json) := fun ts =>
  match ts with
  | .atom (.string name) :: .colon :: rest =>
    (value rest).map fun (j, final) =>
      ((name, j), ⟨final.val, Nat.lt_trans final.property (by
        simp only [List.length_cons]
        omega)⟩)
  | _ => none

def atom : Step Json := fun ts =>
  match ts with
  | .atom j :: rest => some (j, ⟨rest, Nat.lt_succ_self _⟩)
  | _ => none

def composite (inner : Step Json) : Step Json := fun ts =>
  match ts with
  | .leftBracket :: rest =>
    (items inner Token.isRightBracket rest).map fun (js, final) =>
      (.array js, ⟨final.val, Nat.lt_succ_of_lt final.property⟩)
  | .leftBrace :: rest =>
    (items (member inner) Token.isRightBrace rest).map fun (ms, final) =>
      (.object ms, ⟨final.val, Nat.lt_succ_of_lt final.property⟩)
  | ts => atom ts

def value : (room : Nat) → Step Json
  | 0 => atom
  | room + 1 => composite (value room)

def nestingLimit : Nat := 127

def read? (s : String) : Option Json := do
  let cs := s.toList
  let ts ← Token.scanAll? cs.length cs
  let (j, rest) ← value nestingLimit ts
  if rest.val.isEmpty then some j else none

end Crosstab.Json
