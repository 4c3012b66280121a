/-!
Numbers as they are written: digits, with a sign, a point and an exponent where the form admits them.
Only the ten digits of ASCII count.
-/

namespace Interchange.Decimal

/-- The number that a digit stands for. -/
def digit (c : Char) : Nat := c.toNat - '0'.toNat

/-- The number that digits stand for. -/
def ofDigits (digits : List Char) : Nat := digits.foldl (fun n c => n * 10 + digit c) 0

/-- Digits and nothing else, at least one of them. -/
def isDigits (cs : List Char) : Bool := !cs.isEmpty && cs.all Char.isDigit

/-- Takes one sign off the front; the first part tells whether it was a minus. -/
def splitSign : List Char → Bool × List Char
  | '-' :: rest => (true, rest)
  | '+' :: rest => (false, rest)
  | rest => (false, rest)

/-- Zeros in front, up to a width. -/
def padZeros (width n : Nat) : String :=
  let digits := toString n
  String.ofList (List.replicate (width - digits.length) '0') ++ digits

/-- Spaces in front, up to a width. -/
def padSpaces (width n : Nat) : String :=
  let digits := toString n
  String.ofList (List.replicate (width - digits.length) ' ') ++ digits

/-- Reads a whole number: an optional sign, then digits. -/
def readInteger (cs : List Char) : Option Int :=
  let (negative, digits) := splitSign cs
  if isDigits digits then some (if negative then -(ofDigits digits : Int) else ofDigits digits)
  else none

/-- The whole numbers of 64 bits with a sign. -/
def isInt64 (n : Int) : Bool := -0x8000000000000000 ≤ n && n < 0x8000000000000000

/-- The whole numbers of 32 bits with a sign. -/
def isInt32 (n : Int) : Bool := -0x80000000 ≤ n && n < 0x80000000

/-- A written number: `significand · 10 ^ exponent`, below zero if `negative` says so. -/
structure Numeral where
  negative : Bool
  significand : Nat
  exponent : Int
  deriving DecidableEq, Repr

/-- Reads the exponent behind a significand: nothing, or a letter, an optional sign and digits. -/
def readExponent : List Char → Option Int
  | [] => some 0
  | c :: rest => if c = 'e' || c = 'E' then readInteger rest else none

/-- Reads a number with an optional sign, a point somewhere among its digits and an optional
exponent. -/
def readNumeral (cs : List Char) : Option Numeral :=
  let (negative, body) := splitSign cs
  let whole := body.takeWhile Char.isDigit
  let (fraction, rest) :=
    match body.dropWhile Char.isDigit with
    | '.' :: rest => (rest.takeWhile Char.isDigit, rest.dropWhile Char.isDigit)
    | rest => ([], rest)
  if whole.isEmpty && fraction.isEmpty then none
  else (readExponent rest).map fun e =>
    ⟨negative, ofDigits (whole ++ fraction), e - fraction.length⟩

end Interchange.Decimal
