/-!
# Doubles read exactly

A finite double is a whole number of units of a power of two. `Reading.ofFloat` reads off the sign,
the number of units and the power; `compose` goes back. The two operations that need exact whole
number arithmetic, the remainder of a division and rounding to a whole number, are stated on
readings. A power is the platform's, but for the powers of zero and the power 0.
-/

namespace Crosstab.Binary64

def twoTo (n : Nat) : Nat := Nat.pow 2 n

/-- The real number that a double stands for: not a number, an infinity, or
`± units * 2 ^ power`. -/
inductive Reading where
  | nan
  | infinite (negative : Bool)
  | finite (negative : Bool) (units : Nat) (power : Int)
  deriving DecidableEq, Repr

def leastPower : Int := -1074

/-- Subnormal doubles (exponent field 0) share the power of the smallest normal ones and have no
leading bit. -/
def Reading.ofFloat (x : Float) : Reading :=
  let bits := x.toBits.toNat
  let negative := decide (twoTo 63 ≤ bits)
  let field := bits / twoTo 52 % twoTo 11
  let fraction := bits % twoTo 52
  if field = 2047 then
    if fraction = 0 then .infinite negative else .nan
  else if field = 0 then .finite negative fraction leastPower
  else .finite negative (fraction + twoTo 52) (leastPower + (field - 1 : Nat))

def bitLength (n : Nat) : Nat := if n = 0 then 0 else n.log2 + 1

/-- The double `± units * 2 ^ power`, for `units < 2 ^ 53` and `leastPower ≤ power ≤ 971`: the
units are shifted left until the leading bit is in place or the least power is reached. -/
def compose (negative : Bool) (units : Nat) (power : Int) : Float :=
  let shift := min (53 - bitLength units) (power - leastPower).toNat
  let units := units * twoTo shift
  let field := (power - leastPower).toNat - shift + 1
  let magnitude := if units < twoTo 52 then units else field * twoTo 52 + (units - twoTo 52)
  Float.ofBits (UInt64.ofNat (magnitude + if negative then twoTo 63 else 0))

/-- The remainder of dividing `x` by `y` with the quotient cut toward zero. It has the sign of `x`
and is exact. There is none for an infinite `x` or for `y = 0`. -/
def remainder (x y : Float) : Float :=
  match Reading.ofFloat x, Reading.ofFloat y with
  | .nan, _ => x
  | _, .nan => y
  | .infinite _, _ => 0.0 / 0.0
  | .finite .., .infinite _ => x
  | .finite negative a p, .finite _ b q =>
    if b = 0 then 0.0 / 0.0
    else
      let power := min p q
      compose negative (a * twoTo (p - power).toNat % (b * twoTo (q - power).toNat)) power

def roundHalfAway (x : Float) : Float :=
  match Reading.ofFloat x with
  | .finite negative units power =>
    if 0 ≤ power then x
    else
      let half := twoTo ((-power).toNat - 1)
      compose negative ((units + half) / (2 * half)) 0
  | _ => x

/-- The smaller of two doubles. A value that is not a number is passed over, and of two equal
values, such as the two zeros, the second is taken. -/
def lesser (x y : Float) : Float := if y.isNaN then x else if x < y then x else y

def greater (x y : Float) : Float := if y.isNaN then x else if y < x then x else y

def isOdd (x : Float) : Bool :=
  match Reading.ofFloat x with
  | .finite _ units power =>
    power ≤ 0 && units % twoTo (-power).toNat = 0 && units / twoTo (-power).toNat % 2 = 1
  | _ => false

/-- The power of two doubles. Everything to the power 0 is 1. A zero to a positive power is a zero
and to a negative one infinite; it keeps its sign if the exponent is an odd whole number, and is
positive otherwise. -/
def power (x y : Float) : Float :=
  if y == 0.0 then 1.0
  else if x == 0.0 then
    if y.isNaN then y
    else
      let zero := if isOdd y then x else 0.0
      if y < 0.0 then 1.0 / zero else zero
  else Float.pow x y

def compare? (x y : Float) : Option Ordering :=
  if x < y then some .lt else if x == y then some .eq else if y < x then some .gt else none

end Crosstab.Binary64
