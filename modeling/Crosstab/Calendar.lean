import Crosstab.Decimal
import Crosstab.Text

/-!
# Calendar dates

A `Date` is a day of the proleptic Gregorian calendar, so that two dates are equal exactly when
year, month and day are. Dates are keyed and shown day first and recorded year first.

A `Pattern` lists what stands in a written date. Records hold dates year first, with white space
allowed around the parts. Text is read year first, day first, or as a point in time, of which the
written day is kept.
-/

namespace Crosstab

/-! ### Dates -/

namespace Calendar

def isLeap (year : Int) : Bool := year % 4 = 0 ∧ (year % 100 ≠ 0 ∨ year % 400 = 0)

def daysIn (year : Int) : (month : Nat) → Nat
  | 1 | 3 | 5 | 7 | 8 | 10 | 12 => 31
  | 4 | 6 | 9 | 11 => 30
  | 2 => if isLeap year then 29 else 28
  | _ => 0

def firstYear : Int := -262143

def lastYear : Int := 262142

def IsDay (year : Int) (month day : Nat) : Prop :=
  firstYear ≤ year ∧ year ≤ lastYear ∧ 1 ≤ day ∧ day ≤ daysIn year month

instance (year : Int) (month day : Nat) : Decidable (IsDay year month day) := by
  unfold IsDay; infer_instance

end Calendar

structure Date where
  year : Int
  month : Nat
  day : Nat
  valid : Calendar.IsDay year month day
  deriving DecidableEq

namespace Date

def ofNumbers? (year : Int) (month day : Nat) : Option Date :=
  if h : Calendar.IsDay year month day then some ⟨year, month, day, h⟩ else none

theorem ofNumbers?_eq_some (d : Date) : ofNumbers? d.year d.month d.day = some d :=
  dif_pos d.valid

def compare (a b : Date) : Ordering :=
  (Ord.compare a.year b.year).then
    ((Ord.compare a.month b.month).then (Ord.compare a.day b.day))

def padded (width n : Nat) : String :=
  let digits := Nat.repr n
  String.ofList (List.replicate (width - digits.length) '0') ++ digits

/-- Four digits or more; a year outside `0 … 9999` has a sign. -/
def yearText (year : Int) : String :=
  let sign := if year < 0 then "-" else if 9999 < year then "+" else ""
  sign ++ padded 4 year.natAbs

def text (d : Date) : String :=
  padded 2 d.day ++ "/" ++ padded 2 d.month ++ "/" ++ yearText d.year

def isoText (d : Date) : String :=
  yearText d.year ++ "-" ++ padded 2 d.month ++ "-" ++ padded 2 d.day

end Date

end Crosstab

/-! ### Reading -/

namespace Crosstab.Calendar

open Decimal (isDigit digitsValue)

/-- A part of a written date. White space may stand before each number. -/
inductive Part where
  | year
  | month
  | day
  | mark (c : Char)
  /-- White space, or none. -/
  | blanks
  deriving DecidableEq

abbrev Pattern := List Part

/-- The year first, with white space allowed anywhere but before the year's own digits. -/
def recorded : Pattern :=
  [.year, .blanks, .mark '-', .month, .blanks, .mark '-', .day, .blanks]

def yearFirst : Pattern := [.year, .mark '-', .month, .mark '-', .day]

def dayFirst : Pattern := [.day, .mark '/', .month, .mark '/', .year]

structure Numbers where
  year : Int := 0
  month : Nat := 0
  day : Nat := 0

def number? (most : Nat) (cs : List Char) : Option (Nat × List Char) :=
  let digits := (cs.takeWhile isDigit).take most
  if digits = [] then none else some (digitsValue digits, cs.drop digits.length)

/-- A year has at most four digits, or a sign and any number of them. -/
def year? (cs : List Char) : Option (Int × List Char) :=
  match cs with
  | '-' :: ds => (number? ds.length ds).map fun (n, rest) => (-(n : Int), rest)
  | '+' :: ds => (number? ds.length ds).map fun (n, rest) => ((n : Int), rest)
  | _ => (number? 4 cs).map fun (n, rest) => ((n : Int), rest)

def Pattern.readFrom? (numbers : Numbers) : Pattern → List Char → Option Numbers
  | [], [] => some numbers
  | [], _ :: _ => none
  | .year :: parts, cs =>
    match year? (cs.dropWhile Text.isBlank) with
    | some (n, rest) => readFrom? { numbers with year := n } parts rest
    | none => none
  | .month :: parts, cs =>
    match number? 2 (cs.dropWhile Text.isBlank) with
    | some (n, rest) => readFrom? { numbers with month := n } parts rest
    | none => none
  | .day :: parts, cs =>
    match number? 2 (cs.dropWhile Text.isBlank) with
    | some (n, rest) => readFrom? { numbers with day := n } parts rest
    | none => none
  | .mark _ :: _, [] => none
  | .mark c :: parts, d :: ds => if c = d then readFrom? numbers parts ds else none
  | .blanks :: parts, cs => readFrom? numbers parts (cs.dropWhile Text.isBlank)

def Pattern.read? (pattern : Pattern) (cs : List Char) : Option Date :=
  (pattern.readFrom? {} cs).bind fun n => Date.ofNumbers? n.year n.month n.day

def digits? (width : Nat) (cs : List Char) : Option (Nat × List Char) :=
  let digits := cs.take width
  if digits.length = width ∧ digits.all isDigit then some (digitsValue digits, cs.drop width)
  else none

def mark? (c : Char) : List Char → Option (List Char)
  | d :: ds => if c = d then some ds else none
  | [] => none

def fraction? : List Char → Option (List Char)
  | '.' :: cs => if (cs.takeWhile isDigit) = [] then none else some (cs.dropWhile isDigit)
  | cs => some cs

/-- A distance from universal time: `Z`, or a sign, hours and minutes, of less than a day. It ends
the text. -/
def zone? : List Char → Option Unit
  | [] => none
  | c :: cs =>
    if c = 'Z' ∨ c = 'z' then if cs = [] then some () else none
    else if c = '+' ∨ c = '-' ∨ c = '−' then do
      let (hours, cs) ← digits? 2 cs
      let cs ← mark? ':' cs
      let (minutes, cs) ← digits? 2 cs
      if hours ≤ 23 ∧ minutes ≤ 59 ∧ cs = [] then some () else none
    else none

/-- Hours, minutes and seconds, of which the last may be a leap second, and the zone. -/
def clock? (cs : List Char) : Option Unit := do
  let (hours, cs) ← digits? 2 cs
  let cs ← mark? ':' cs
  let (minutes, cs) ← digits? 2 cs
  let cs ← mark? ':' cs
  let (seconds, cs) ← digits? 2 cs
  if hours ≤ 23 ∧ minutes ≤ 59 ∧ seconds ≤ 60 then
    let cs ← fraction? cs
    zone? cs
  else none

def timestamp? (cs : List Char) : Option Date := do
  let (year, cs) ← digits? 4 cs
  let cs ← mark? '-' cs
  let (month, cs) ← digits? 2 cs
  let cs ← mark? '-' cs
  let (day, cs) ← digits? 2 cs
  match cs with
  | [] => none
  | c :: cs =>
    if c = 'T' ∨ c = 't' ∨ c = ' ' then
      let _ ← clock? cs
      Date.ofNumbers? year month day
    else none

end Crosstab.Calendar

namespace Crosstab.Date

def ofRecorded? (s : String) : Option Date := Calendar.Pattern.read? Calendar.recorded s.toList

def ofText? (s : String) : Option Date :=
  let cs := Text.trimBlank s.toList
  (Calendar.yearFirst.read? cs).or ((Calendar.dayFirst.read? cs).or (Calendar.timestamp? cs))

end Crosstab.Date
