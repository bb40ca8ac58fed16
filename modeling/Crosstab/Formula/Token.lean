import Crosstab.Decimal

/-!
# Tokens of formulas

A token is the smallest part of a formula. `Token.text` is how a message shows it; a `Lexeme` is a
token with its place in the formula, counted in characters.
-/

namespace Crosstab.Formula

inductive Token where
  | number (x : Float)
  /-- A quoted name. -/
  | quoted (name : String)
  | boolean (b : Bool)
  /-- A bare word, in upper case. -/
  | word (name : String)
  /-- A name in brackets, without the white space at its ends. -/
  | field (name : String)
  | plus
  | minus
  | asterisk
  | slash
  | percent
  | caret
  | equal
  | notEqual
  | less
  | greater
  | lessEqual
  | greaterEqual
  | and
  | or
  | leftParen
  | rightParen
  | comma
  | endOfFormula
  /-- A character that begins no token. -/
  | illegal (c : Char)
  /-- A bracket that is never closed, with all that follows it. -/
  | unclosedField (rest : String)
  deriving DecidableEq

def booleanText (b : Bool) : String := if b then "TRUE" else "FALSE"

def Token.text : Token → String
  | .number x => numberText x
  | .quoted name => "\"" ++ name ++ "\""
  | .boolean b => booleanText b
  | .word name => name
  | .field name => "[" ++ name ++ "]"
  | .plus => "+"
  | .minus => "-"
  | .asterisk => "*"
  | .slash => "/"
  | .percent => "%"
  | .caret => "^"
  | .equal => "=="
  | .notEqual => "!="
  | .less => "<"
  | .greater => ">"
  | .lessEqual => "<="
  | .greaterEqual => ">="
  | .and => "AND"
  | .or => "OR"
  | .leftParen => "("
  | .rightParen => ")"
  | .comma => ","
  | .endOfFormula => "end of formula"
  | .illegal c => String.singleton c
  | .unclosedField rest => "[" ++ rest

/-- A token and the characters it is written with: from offset `start` up to `stop`. -/
structure Lexeme where
  token : Token
  start : Nat
  stop : Nat
  deriving DecidableEq

end Crosstab.Formula
