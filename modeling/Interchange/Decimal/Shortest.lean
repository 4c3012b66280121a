import Interchange.Decimal.Binary64

/-!
The shortest decimal digits that read back as a given number, and its text without an exponent.
-/

namespace Interchange.Decimal

namespace Binary64

/-- Whether `n · 10 ^ k` reads back as `b`: it lies between the halfway points to the neighbours of
`b`, which count themselves if the significand is even. -/
def readsBack (b : Binary64) (n : Nat) (k : Int) : Bool :=
  let m := b.significand
  let (num, den) := scaleByTen n 1 k
  let (num, den) := scaleByTwo num den (2 - b.exponent)
  let narrow := m = leastNormal && leastExponent < b.exponent
  let low := (if narrow then 4 * m - 1 else 4 * m - 2) * den
  let high := (4 * m + 2) * den
  if m % 2 = 0 then low ≤ num && num ≤ high else low < num && num < high

/-- The multiple of `10 ^ k` next to `b` that reads back as `b`, the nearer of two. -/
def onGrid (b : Binary64) (k : Int) : Option Nat :=
  let (num, den) := b.ratio
  let (num, den) := scaleByTen num den (-k)
  let below := num / den
  let above := below + 1
  let nearer := if 2 * (num % den) ≤ den then [below, above] else [above, below]
  nearer.find? (b.readsBack · k)

/-- The coarsest grid from `10 ^ k` downwards that holds a number that reads back as `b`. -/
def searchGrid (b : Binary64) (k : Int) : Nat → Nat × Int
  | 0 => (0, k)
  | fuel + 1 =>
    match b.onGrid k with
    | some n => (n, k)
    | none => b.searchGrid (k - 1) fuel

/-- The least `k` that is sure to have `b < 10 ^ k`. -/
def decimalLength (b : Binary64) : Int :=
  let (num, den) := b.ratio
  if den ≤ num then (toString (num / den)).length
  else 1 - ((toString (den / num)).length : Int)

/-- The shortest digits, with the power of ten of the last one; seventeen digits always suffice. -/
def shortestDigits (b : Binary64) : Nat × Int := b.searchGrid (b.decimalLength + 1) 24

def shortest (b : Binary64) : String :=
  if b.significand = 0 then b.sign ++ "0"
  else
    let (n, k) := b.shortestDigits
    if 0 ≤ k then b.sign ++ toString (n * Nat.pow 10 k.toNat)
    else
      let scale := Nat.pow 10 (-k).toNat
      b.sign ++ toString (n / scale) ++ "." ++ padZeros (-k).toNat (n % scale)

end Binary64

end Interchange.Decimal
