import Interchange.Decimal.Numeral
import Interchange.Text.Blank

/-!
Dates of the proleptic Gregorian calendar, read from `year-month-day` and written with two digits for
months and days and four for the years from 0 to 9999; other years carry a sign.
-/

namespace Interchange.Calendar

structure Date where
  year : Int
  month : Nat
  day : Nat
  deriving DecidableEq, Repr

def isLeapYear (year : Int) : Bool := year % 4 == 0 && (year % 100 != 0 || year % 400 == 0)

def daysInMonth (year : Int) (month : Nat) : Nat :=
  if month = 2 then (if isLeapYear year then 29 else 28)
  else if month = 4 || month = 6 || month = 9 || month = 11 then 30
  else 31

/-- The days that can be named. -/
def Date.isValid (d : Date) : Bool :=
  -262143 ≤ d.year && d.year ≤ 262142 && 1 ≤ d.month && d.month ≤ 12 && 1 ≤ d.day &&
    d.day ≤ daysInMonth d.year d.month

/-- Reads a number of at most `width` digits off the front. -/
def takeNumber (width : Nat) (cs : List Char) : Option (Nat × List Char) :=
  let digits := (cs.take width).takeWhile Char.isDigit
  if digits.isEmpty then none else some (Decimal.ofDigits digits, cs.drop digits.length)

/-- Reads a number of at most two digits behind white space. -/
def takeField (cs : List Char) : Option (Nat × List Char) := takeNumber 2 (Text.trimLeft cs)

/-- Reads one character off the front. -/
def takeMark (mark : Char) : List Char → Option (List Char)
  | c :: rest => if c = mark then some rest else none
  | [] => none

/-- Reads a year behind white space: at most four digits, or a sign and any number of them. -/
def takeYear (cs : List Char) : Option (Int × List Char) :=
  match Text.trimLeft cs with
  | '-' :: rest => (takeNumber rest.length rest).map fun (n, after) => (-(n : Int), after)
  | '+' :: rest => (takeNumber rest.length rest).map fun (n, after) => ((n : Int), after)
  | rest => (takeNumber 4 rest).map fun (n, after) => ((n : Int), after)

/-- Reads a date; nothing may follow it. -/
def Date.read (cs : List Char) : Option Date := do
  let (year, cs) ← takeYear cs
  let (month, cs) ← takeField (← takeMark '-' cs)
  let (day, cs) ← takeField (← takeMark '-' cs)
  let date : Date := ⟨year, month, day⟩
  if cs.isEmpty && date.isValid then some date else none

/-- Years from 0 to 9999 have four digits; others have a sign and at least four digits. -/
def yearText (year : Int) : String :=
  if 0 ≤ year && year ≤ 9999 then Decimal.padZeros 4 year.toNat
  else (if year < 0 then "-" else "+") ++ Decimal.padZeros 4 year.natAbs

def Date.text (d : Date) : String :=
  yearText d.year ++ "-" ++ Decimal.padZeros 2 d.month ++ "-" ++
    Decimal.padZeros 2 d.day

end Interchange.Calendar
