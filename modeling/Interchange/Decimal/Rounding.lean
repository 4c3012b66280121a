/-!
Rounding a quotient of natural numbers to a whole number.
-/

namespace Interchange.Decimal

/-- The nearest whole number to `num / den`; a half goes to the even neighbour. -/
def roundToEven (num den : Nat) : Nat :=
  let q := num / den
  let r := num % den
  if 2 * r < den then q else if den < 2 * r then q + 1 else if q % 2 = 0 then q else q + 1

/-- The nearest whole number to `num / den`; a half goes up. -/
def roundUp (num den : Nat) : Nat := (2 * num + den) / (2 * den)

theorem roundToEven_one (num : Nat) : roundToEven num 1 = num := by
  simp [roundToEven, Nat.mod_one]

theorem roundToEven_le {num den : Nat} : roundToEven num den ≤ num / den + 1 := by
  unfold roundToEven
  dsimp only
  split
  · omega
  split
  · omega
  split <;> omega

theorem le_roundToEven {num den : Nat} : num / den ≤ roundToEven num den := by
  unfold roundToEven
  dsimp only
  split
  · omega
  split
  · omega
  split <;> omega

/-- A power of two in the numerator or the denominator of a quotient. -/
def scaleByTwo (num den : Nat) (e : Int) : Nat × Nat :=
  if 0 ≤ e then (num * Nat.pow 2 e.toNat, den) else (num, den * Nat.pow 2 (-e).toNat)

/-- A power of ten in the numerator or the denominator of a quotient. -/
def scaleByTen (num den : Nat) (e : Int) : Nat × Nat :=
  if 0 ≤ e then (num * Nat.pow 10 e.toNat, den) else (num, den * Nat.pow 10 (-e).toNat)

end Interchange.Decimal
