import Crosstab.Decimal

/-!
# JSON documents

Records, layouts and reports travel as JSON. A number is kept as it is written, so that nothing of it
is lost before somebody asks for its value.
-/

namespace Crosstab

inductive Json where
  | null
  | boolean (b : Bool)
  | number (literal : String)
  | string (s : String)
  | array (items : List Json)
  | object (members : List (String × Json))
  deriving Inhabited

namespace Json

def ofNat (n : Nat) : Json := number (Nat.repr n)

def ofText? : Option String → Json
  | some s => string s
  | none => null

def ofTexts (ss : List String) : Json := array (ss.map string)

/-- The member with a name; of several, the last. -/
def member? (name : String) : Json → Option Json
  | object ms => (ms.reverse.find? (·.1 = name)).map (·.2)
  | _ => none

def toFloat? : Json → Option Float
  | number literal => (Decimal.Numeral.read? literal.toList).map (·.toFloat)
  | _ => none

def toNat? : Json → Option Nat
  | number literal =>
    if literal.toList.all Decimal.isDigit then some (Decimal.digitsValue literal.toList) else none
  | _ => none

def toString? : Json → Option String
  | string s => some s
  | _ => none

def toBool? : Json → Option Bool
  | boolean b => some b
  | _ => none

def toList? : Json → Option (List Json)
  | array items => some items
  | _ => none

def toMembers? : Json → Option (List (String × Json))
  | object ms => some ms
  | _ => none

end Json

end Crosstab
