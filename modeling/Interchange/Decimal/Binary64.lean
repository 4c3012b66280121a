import Interchange.Decimal.Numeral
import Interchange.Decimal.Rounding

/-!
The finite numbers of the binary format of 64 bits, held exactly. A written number becomes the nearest
of them, ties to the even significand; too large a number becomes none.
-/

namespace Interchange.Decimal

/-- `significand · 2 ^ exponent`, below zero if `negative` says so; zero has both signs. The
significand has 53 bits, or fewer at the least exponent. -/
structure Binary64 where
  negative : Bool
  significand : Nat
  exponent : Int
  deriving DecidableEq, Repr

namespace Binary64

def leastExponent : Int := -1074

def greatestExponent : Int := 971

/-- The least significand of 53 bits. -/
def leastNormal : Nat := 0x10000000000000

def zero (negative : Bool) : Binary64 := ⟨negative, 0, leastExponent⟩

/-- The largest `k` with `2 ^ k ≤ num / den`. -/
def floorLog (num den : Nat) : Int :=
  let k : Int := (Nat.log2 num : Int) - Nat.log2 den
  let (n, d) := scaleByTwo num den (-k)
  if d ≤ n then k else k - 1

/-- The number nearest to `num / den`. -/
def ofRatio (negative : Bool) (num den : Nat) : Option Binary64 :=
  if num = 0 then some (zero negative)
  else
    let e := max (floorLog num den - 52) leastExponent
    let (n, d) := scaleByTwo num den (-e)
    let m := roundToEven n d
    let (m, e) := if m = 2 * leastNormal then (leastNormal, e + 1) else (m, e)
    if greatestExponent < e then none else some ⟨negative, m, e⟩

/-- The number nearest to a written one. Numbers that are far too large or far too small are told by
their decimal length alone. -/
def ofNumeral (n : Numeral) : Option Binary64 :=
  if n.significand = 0 then some (zero n.negative)
  else
    let magnitude := ((toString n.significand).length : Int) + n.exponent
    if 310 < magnitude then none
    else if magnitude < -330 then some (zero n.negative)
    else
      let (num, den) := scaleByTen n.significand 1 n.exponent
      ofRatio n.negative num den

def read (cs : List Char) : Option Binary64 := (readNumeral cs).bind ofNumeral

/-- The size of a number as a quotient. -/
def ratio (b : Binary64) : Nat × Nat := scaleByTwo b.significand 1 b.exponent

/-- The nearest whole number; a half goes away from zero. -/
def round (b : Binary64) : Int :=
  let (num, den) := b.ratio
  let n : Int := roundUp num den
  if b.negative then -n else n

/-- The word of 64 bits that stands for a number. -/
def toBits (b : Binary64) : Nat :=
  let sign := if b.negative then 0x8000000000000000 else 0
  if b.significand < leastNormal then sign + b.significand
  else sign + (b.exponent - leastExponent + 1).toNat * leastNormal + (b.significand - leastNormal)

/-- A minus in front of the numbers that have one, zero included. -/
def sign (b : Binary64) : String := if b.negative then "-" else ""

/-- The number with `places` digits behind the point, rounded exactly, a half to the even digit. -/
def fixed (places : Nat) (b : Binary64) : String :=
  let (num, den) := b.ratio
  let n := roundToEven (num * Nat.pow 10 places) den
  b.sign ++ toString (n / Nat.pow 10 places) ++ "." ++ padZeros places (n % Nat.pow 10 places)

end Binary64

end Interchange.Decimal
