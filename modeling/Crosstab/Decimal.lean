import Crosstab.Binary64

/-!
# Decimal numbers

Every real number in the rounding interval of a double reads back as that double. `shortest` looks
at the decimal grids of one, two, three, … digits: the first grid with a point in the interval
wins, of two points on it the nearer, and of two equally near ones the upper. Numbers are written
with these digits; a `Style` says when an exponent is written and how a whole number ends.

`Numeral.read?` reads an optional sign, digits with an optional point, and an optional exponent;
`number?` also takes the names of the values that are no real numbers. Nothing but the number may
stand in the text.
-/

namespace Crosstab.Decimal

/-! ### The shortest decimal of a double -/

open Binary64 (twoTo leastPower)

def tenTo (n : Nat) : Nat := Nat.pow 10 n

def digitCount (n : Nat) : Nat := if h : n = 0 then 0 else digitCount (n / 10) + 1
termination_by n
decreasing_by omega

structure Scaled where
  digits : Nat
  exponent : Int
  deriving DecidableEq, Repr

def Scaled.normalize (d : Scaled) : Scaled :=
  if h : d.digits ≠ 0 ∧ d.digits % 10 = 0 then
    normalize ⟨d.digits / 10, d.exponent + 1⟩
  else d
termination_by d.digits
decreasing_by exact Nat.div_lt_self (Nat.pos_of_ne_zero h.1) (by decide)

/-- An interval of positive rationals around a middle, all over one denominator. The ends belong to
it when `closed` holds. -/
structure Interval where
  low : Nat
  middle : Nat
  high : Nat
  denominator : Nat
  closed : Bool

/-- The reals that round to `units * 2 ^ power`, for `units > 0`. The ends go to the double with
even units. Below the least units of a power, above the least power, the grid is twice as fine. -/
def Interval.ofUnits (units : Nat) (power : Int) : Interval :=
  let up := twoTo (power - 2).toNat
  let below := if units = twoTo 52 ∧ leastPower < power then 1 else 2
  { low := (4 * units - below) * up
    middle := 4 * units * up
    high := (4 * units + 2) * up
    denominator := twoTo (2 - power).toNat
    closed := units % 2 = 0 }

namespace Interval
variable (i : Interval)

def rescale (exponent : Int) : Interval :=
  let up := tenTo (-exponent).toNat
  { i with
    low := i.low * up
    middle := i.middle * up
    high := i.high * up
    denominator := i.denominator * tenTo exponent.toNat }

def contains (n : Nat) : Bool :=
  let n := n * i.denominator
  if i.closed then i.low ≤ n ∧ n ≤ i.high else i.low < n ∧ n < i.high

/-- The whole number in the interval that is nearest to the middle, if any: one of the two
neighbours of the middle. -/
def nearest? : Option Nat :=
  let floor := i.middle / i.denominator
  let down := i.contains floor
  let up := i.contains (floor + 1)
  if down && up then
    if 2 * (i.middle - floor * i.denominator) < i.denominator then some floor else some (floor + 1)
  else if down then some floor
  else if up then some (floor + 1)
  else none

def leadingExponent : Int :=
  if i.denominator ≤ i.middle then (digitCount (i.middle / i.denominator) : Int) - 1
  else -(digitCount ((i.denominator - 1) / i.middle) : Int)

def shortestFrom (digits : Nat) : (grids : Nat) → Option Scaled
  | 0 => none
  | grids + 1 =>
    let exponent := i.leadingExponent - (digits - 1 : Nat)
    match (i.rescale exponent).nearest? with
    | some n => some ⟨n, exponent⟩
    | none => shortestFrom (digits + 1) grids

end Interval

/-- The shortest decimal that reads back as `units * 2 ^ power`. Seventeen digits always suffice. -/
def shortest (units : Nat) (power : Int) : Scaled :=
  if units = 0 then ⟨0, 0⟩
  else (((Interval.ofUnits units power).shortestFrom 1 17).getD ⟨0, 0⟩).normalize

/-! ### The text of a number -/

structure Style where
  /-- Decimal exponents of the leading digit that are written positionally. -/
  positional : Int → Bool
  /-- What a whole number written positionally ends in. -/
  wholeEnd : String
  deriving Inhabited

/-- Keys, labels and messages never use an exponent, and a whole number has no point. -/
def plain : Style := ⟨fun _ => true, ""⟩

/-- Numbers in JSON documents use an exponent from `1e16` on and below `1e-5`. -/
def document : Style := ⟨fun e => -5 ≤ e ∧ e < 16, ".0"⟩

def zeros (n : Nat) : String := String.ofList (List.replicate n '0')

def Style.fixed (style : Style) (digits : String) (exponent : Int) : String :=
  let point := (digits.length : Int) + exponent
  if 0 ≤ exponent then digits ++ zeros exponent.toNat ++ style.wholeEnd
  else if 0 < point then
    String.ofList (digits.toList.take point.toNat) ++ "." ++
      String.ofList (digits.toList.drop point.toNat)
  else "0." ++ zeros (-point).toNat ++ digits

def scientific (digits : String) (exponent : Int) : String :=
  match digits.toList with
  | [] => ""
  | c :: cs =>
    let fraction := if cs = [] then "" else "." ++ String.ofList cs
    String.singleton c ++ fraction ++ "e" ++ toString (exponent + cs.length)

def Style.write (style : Style) (d : Scaled) : String :=
  let digits := toString d.digits
  if style.positional (d.exponent + (digits.length : Int) - 1) then style.fixed digits d.exponent
  else scientific digits d.exponent

def Style.text (style : Style) (x : Float) : String :=
  match Binary64.Reading.ofFloat x with
  | .nan => "NaN"
  | .infinite negative => if negative then "-inf" else "inf"
  | .finite negative units power =>
    (if negative then "-" else "") ++ style.write (shortest units power)

/-! ### Reading -/

def isDigit (c : Char) : Bool := '0' ≤ c && c ≤ '9'

def digitsValue (cs : List Char) : Nat := cs.foldl (fun n c => 10 * n + (c.toNat - '0'.toNat)) 0

structure Numeral where
  negative : Bool
  digits : Nat
  exponent : Int
  deriving DecidableEq, Repr

/-- An optional sign and the rest; true for a minus. -/
def takeSign : List Char → Bool × List Char
  | '-' :: cs => (true, cs)
  | '+' :: cs => (false, cs)
  | cs => (false, cs)

def exponent? : List Char → Option Int
  | [] => some 0
  | c :: cs =>
    if c = 'e' ∨ c = 'E' then
      let (negative, ds) := takeSign cs
      if ds ≠ [] ∧ ds.all isDigit then
        some (if negative then -(digitsValue ds : Int) else digitsValue ds)
      else none
    else none

def Numeral.magnitude? (negative : Bool) (cs : List Char) : Option Numeral :=
  let whole := cs.takeWhile isDigit
  let rest := cs.dropWhile isDigit
  let (fraction, rest) := match rest with
    | '.' :: ds => (ds.takeWhile isDigit, ds.dropWhile isDigit)
    | _ => ([], rest)
  if whole = [] ∧ fraction = [] then none
  else
    (exponent? rest).map fun e =>
      ⟨negative, digitsValue (whole ++ fraction), e - (fraction.length : Int)⟩

def Numeral.read? (cs : List Char) : Option Numeral :=
  let (negative, rest) := takeSign cs
  magnitude? negative rest

/-- The nearest double. Beyond 310 digits before the point it is infinite and below 330 zeros
after it is zero, whatever the digits. -/
def Numeral.toFloat (n : Numeral) : Float :=
  let order := (digitCount n.digits : Int) + n.exponent
  let magnitude : Float :=
    if n.digits = 0 ∨ order < -330 then 0.0
    else if 310 < order then 1.0 / 0.0
    else Float.ofScientific n.digits (n.exponent < 0) n.exponent.natAbs
  if n.negative then -magnitude else magnitude

def lowerAscii (s : String) : String := String.ofList (s.toList.map Char.toLower)

/-- The number that a text spells: a numeral, or `inf`, `infinity` or `nan` in any case with an
optional sign. -/
def number? (s : String) : Option Float :=
  let (negative, name) := takeSign s.toList
  let name := lowerAscii (String.ofList name)
  if name = "nan" then some (0.0 / 0.0)
  else if name = "inf" ∨ name = "infinity" then
    some (if negative then -(1.0 / 0.0) else 1.0 / 0.0)
  else (Numeral.read? s.toList).map Numeral.toFloat

end Crosstab.Decimal

namespace Crosstab

def numberText (x : Float) : String := Decimal.plain.text x

end Crosstab
