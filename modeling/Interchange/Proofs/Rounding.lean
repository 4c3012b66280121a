import Mathlib
import Interchange.Decimal.Binary64

/-!
# Whole numbers in the binary format

The binary format of 64 bits does not hold all whole numbers of 64 bits. A whole number that is read into it
becomes the nearest of those that it holds (`Binary64.round_ofRatio`, `isNearest_nearest`), and there is one such
number only (`IsNearest.unique`).
-/

namespace Interchange.Decimal

/-! ## The nearest number -/

/-- The whole numbers of the format, however large: those that are written with 53 bits and zeros behind them. -/
def IsBinary (n : Int) : Prop :=
  ∃ significand exponent : Nat, significand < 2 ^ 53 ∧ n.natAbs = significand * 2 ^ exponent

/-- The number of the format that is nearest to a whole number. Of two that are as near, it is the one with the
even significand: a multiple of twice their distance. -/
structure IsNearest (n m : Int) : Prop where
  isBinary : IsBinary m
  le : ∀ k, IsBinary k → (n - m).natAbs ≤ (n - k).natAbs
  even : ∀ k, IsBinary k → k ≠ m → (n - k).natAbs = (n - m).natAbs → 2 * (k - m).natAbs ∣ m.natAbs

variable {n m k : Int} {num den x : Nat}

theorem IsNearest.unique (h : IsNearest n m) (h' : IsNearest n k) : k = m := by
  refine Decidable.byContradiction fun hne => ?_
  have hsame : (n - k).natAbs = (n - m).natAbs := Nat.le_antisymm (h'.le m h.isBinary) (h.le k h'.isBinary)
  have hm := h.even k h'.isBinary hne hsame
  have hk := h'.even m h.isBinary (Ne.symm hne) hsame.symm
  have hdistance : (m - k).natAbs = (k - m).natAbs := by omega
  rw [hdistance] at hk
  -- twice their distance divides both, and so their distance
  have hdvd : ((2 * (k - m).natAbs : Nat) : Int) ∣ k - m :=
    Int.dvd_sub (Int.ofNat_dvd_left.2 hk) (Int.ofNat_dvd_left.2 hm)
  have hle := Nat.le_of_dvd (by omega) (Int.ofNat_dvd_left.1 hdvd)
  omega

/-! ## Rounding to multiples -/

/-- Rounding finds the nearest multiple, compared with any number that is not between the two multiples at hand;
and one that is as near is the neighbour of an even multiple. -/
theorem roundToEven_near (hden : 0 < den) (hx : x ≤ num / den * den ∨ (num / den + 1) * den ≤ x) :
    ((num : Int) - (roundToEven num den * den : Nat)).natAbs ≤ ((num : Int) - x).natAbs ∧
      (x ≠ roundToEven num den * den →
        ((num : Int) - x).natAbs = ((num : Int) - (roundToEven num den * den : Nat)).natAbs →
          ((x : Int) - (roundToEven num den * den : Nat)).natAbs = den ∧ 2 ∣ roundToEven num den) := by
  have hsplit : num / den * den + num % den = num := Nat.div_add_mod' num den
  have hlt : num % den < den := Nat.mod_lt num hden
  have hnext : (num / den + 1) * den = num / den * den + den := Nat.succ_mul _ _
  rw [hnext] at hx
  have hcases : roundToEven num den * den = num / den * den ∧ (2 * (num % den) < den ∨
        2 * (num % den) = den ∧ 2 ∣ roundToEven num den) ∨
      roundToEven num den * den = num / den * den + den ∧ (den < 2 * (num % den) ∨
        2 * (num % den) = den ∧ 2 ∣ roundToEven num den) := by
    unfold roundToEven
    dsimp only
    split
    · exact Or.inl ⟨rfl, Or.inl ‹_›⟩
    split
    · exact Or.inr ⟨hnext, Or.inl ‹_›⟩
    split
    · exact Or.inl ⟨rfl, Or.inr ⟨by omega, by omega⟩⟩
    · exact Or.inr ⟨hnext, Or.inr ⟨by omega, by omega⟩⟩
  generalize roundToEven num den = r at hcases ⊢
  generalize num / den * den = low at *
  generalize num % den = rest at *
  generalize r * den = near at *
  omega

/-! ## The nearest number of the format -/

/-- The last place of a number with 53 bits: numbers with fewer bits are whole. -/
def lastPlace (n : Nat) : Nat := 2 ^ (n.log2 - 52)

/-- The number that a natural number is rounded to. -/
def nearestNat (n : Nat) : Nat := roundToEven n (lastPlace n) * lastPlace n

/-- The number that a whole number is rounded to. -/
def nearest (n : Int) : Int := if n < 0 then -(nearestNat n.natAbs : Int) else nearestNat n.natAbs

theorem lastPlace_pos (n : Nat) : 0 < lastPlace n := Nat.two_pow_pos _

theorem lt_mul_lastPlace (n : Nat) : n < 2 ^ 53 * lastPlace n := by
  calc
    n < 2 ^ (n.log2 + 1) := Nat.lt_log2_self
    _ ≤ 2 ^ (53 + (n.log2 - 52)) := Nat.pow_le_pow_right (by decide) (by omega)
    _ = 2 ^ 53 * lastPlace n := Nat.pow_add 2 53 _

theorem isBinary_nearestNat (n : Nat) : IsBinary (nearestNat n) := by
  have hlt : n / lastPlace n < 2 ^ 53 := Nat.div_lt_of_lt_mul (by rw [Nat.mul_comm]; exact lt_mul_lastPlace n)
  have hle : roundToEven n (lastPlace n) ≤ n / lastPlace n + 1 := roundToEven_le
  rw [IsBinary, Int.natAbs_natCast]
  by_cases hcarry : roundToEven n (lastPlace n) = 2 ^ 53
  · refine ⟨2 ^ 52, n.log2 - 52 + 1, by decide, ?_⟩
    rw [nearestNat, hcarry, lastPlace, Nat.pow_succ 2 (n.log2 - 52)]
    omega
  · exact ⟨_, n.log2 - 52, by omega, rfl⟩

/-- Between two neighbours there is no number of the format. -/
theorem outside_of_isBinary (n : Nat) (hx : IsBinary x) :
    x ≤ n / lastPlace n * lastPlace n ∨ (n / lastPlace n + 1) * lastPlace n ≤ x := by
  obtain ⟨significand, exponent, hlt, hvalue⟩ := hx
  rw [Int.natAbs_natCast] at hvalue
  subst hvalue
  by_cases hexponent : n.log2 - 52 ≤ exponent
  · -- a multiple of the last place
    have hmultiple : significand * 2 ^ exponent = significand * 2 ^ (exponent - (n.log2 - 52)) * lastPlace n := by
      rw [lastPlace, Nat.mul_assoc, ← Nat.pow_add]
      congr 2
      omega
    rw [hmultiple]
    rcases Nat.lt_or_ge (n / lastPlace n) (significand * 2 ^ (exponent - (n.log2 - 52))) with h | h
    · exact Or.inr (Nat.mul_le_mul_right _ h)
    · exact Or.inl (Nat.mul_le_mul_right _ h)
  · -- below all numbers with as many bits
    have hne : n ≠ 0 := by
      rintro rfl
      exact hexponent (Nat.zero_le _)
    have hplaces : 2 ^ 52 * lastPlace n ≤ n := by
      calc
        2 ^ 52 * lastPlace n = 2 ^ (52 + (n.log2 - 52)) := (Nat.pow_add 2 52 _).symm
        _ ≤ 2 ^ n.log2 := Nat.pow_le_pow_right (by decide) (by omega)
        _ ≤ n := Nat.log2_self_le hne
    refine Or.inl ?_
    calc
      significand * 2 ^ exponent ≤ 2 ^ 53 * 2 ^ exponent := Nat.mul_le_mul_right _ (Nat.le_of_lt hlt)
      _ = 2 ^ 52 * 2 ^ (exponent + 1) := by rw [Nat.pow_succ]; omega
      _ ≤ 2 ^ 52 * lastPlace n := Nat.mul_le_mul_left _ (Nat.pow_le_pow_right (by decide) (by omega))
      _ ≤ n / lastPlace n * lastPlace n :=
        Nat.mul_le_mul_right _ ((Nat.le_div_iff_mul_le (lastPlace_pos n)).2 hplaces)

theorem IsBinary.natAbs (h : IsBinary n) : IsBinary n.natAbs := h

theorem natAbs_nearest (n : Int) : (nearest n).natAbs = nearestNat n.natAbs := by
  unfold nearest
  split
  · rw [Int.natAbs_neg, Int.natAbs_natCast]
  · rw [Int.natAbs_natCast]

/-- A number is rounded by its size, and keeps its sign. -/
theorem nearest_cases (n : Int) : n ≤ 0 ∧ nearest n = -(nearestNat n.natAbs : Int) ∨
    0 ≤ n ∧ nearest n = nearestNat n.natAbs := by
  rcases Int.lt_or_le n 0 with h | h
  · exact Or.inl ⟨Int.le_of_lt h, if_pos h⟩
  · exact Or.inr ⟨h, if_neg (Int.not_lt.2 h)⟩

theorem natAbs_sub_nearest (n : Int) :
    (n - nearest n).natAbs = ((n.natAbs : Int) - (nearest n).natAbs).natAbs := by
  rcases nearest_cases n with ⟨hsign, hvalue⟩ | ⟨hsign, hvalue⟩
  · rw [hvalue]
    omega
  · rw [hvalue]
    omega

/-- Numbers no farther away than zero lie on one side of zero, and are as far apart as their sizes. -/
theorem natAbs_sub_natAbs (hk : (n - k).natAbs ≤ n.natAbs) (hm : (n - m).natAbs ≤ n.natAbs) :
    ((k.natAbs : Int) - m.natAbs).natAbs = (k - m).natAbs := by omega

theorem isNearest_nearest (n : Int) : IsNearest n (nearest n) := by
  have hnear : ∀ k, IsBinary k → _ := fun k hk =>
    roundToEven_near (lastPlace_pos n.natAbs) (outside_of_isBinary n.natAbs hk.natAbs)
  have hvalue : roundToEven n.natAbs (lastPlace n.natAbs) * lastPlace n.natAbs = nearestNat n.natAbs := rfl
  simp only [hvalue, ← natAbs_nearest, ← natAbs_sub_nearest] at hnear
  have hzero : (n - nearest n).natAbs ≤ n.natAbs := by
    have hle := (hnear 0 ⟨0, 0, by decide, rfl⟩).1
    omega
  constructor
  · have hbinary := isBinary_nearestNat n.natAbs
    rwa [← natAbs_nearest] at hbinary
  · intro k hk
    calc
      (n - nearest n).natAbs ≤ ((n.natAbs : Int) - k.natAbs).natAbs := (hnear k hk).1
      _ ≤ (n - k).natAbs := by omega
  · intro k hk hne hsame
    have hside : (n - k).natAbs ≤ n.natAbs := hsame ▸ hzero
    have hapart := natAbs_sub_natAbs hside hzero
    have hdistance : ((n.natAbs : Int) - k.natAbs).natAbs = (n - k).natAbs :=
      natAbs_sub_natAbs (by simp) hside
    have hsizes : k.natAbs ≠ (nearest n).natAbs := fun h => hne (by omega)
    obtain ⟨hplace, heven⟩ := (hnear k hk).2 hsizes (hdistance.trans hsame)
    rw [← hapart, hplace, natAbs_nearest]
    exact Nat.mul_dvd_mul_right heven _

/-- A number of the format stays as it is. -/
theorem nearest_eq_self_iff : nearest n = n ↔ IsBinary n := by
  have hnearest := isNearest_nearest n
  constructor
  · intro h
    have hbinary := hnearest.isBinary
    rwa [h] at hbinary
  · intro h
    have hle := hnearest.le n h
    omega

theorem isBinary_of_le (h : n.natAbs ≤ 2 ^ 53) : IsBinary n := by
  rcases Nat.lt_or_eq_of_le h with h | h
  · exact ⟨n.natAbs, 0, h, by omega⟩
  · exact ⟨2 ^ 52, 1, by decide, by omega⟩

/-! ## Reading into the format -/

theorem roundUp_mul (hden : 0 < den) : roundUp (num * den) den = num := by
  have hdouble : 2 * (num * den) + den = den + 2 * den * num := by rw [Nat.mul_comm num, Nat.mul_assoc]; omega
  rw [roundUp, hdouble, Nat.add_mul_div_left _ _ (by omega), Nat.div_eq_of_lt (by omega), Nat.zero_add]

theorem scaleByTwo_natCast (exponent : Nat) : scaleByTwo num den exponent = (num * 2 ^ exponent, den) := by
  rw [scaleByTwo, if_pos (Int.natCast_nonneg exponent), Int.toNat_natCast]
  rfl

theorem scaleByTwo_neg (places : Nat) : scaleByTwo num den (-places) = (num, den * 2 ^ places) := by
  rcases Nat.eq_zero_or_pos places with rfl | hplaces
  · simp [scaleByTwo]
  · rw [scaleByTwo, if_neg (by omega), Int.neg_neg, Int.toNat_natCast]
    rfl

namespace Binary64

variable {negative : Bool} {significand exponent places : Nat}

/-- A whole number, perhaps with zeros behind it. -/
theorem round_whole : (Binary64.mk negative significand exponent).round =
    if negative then -((significand * 2 ^ exponent : Nat) : Int) else (significand * 2 ^ exponent : Nat) := by
  have hround : roundUp (significand * 2 ^ exponent * 1) 1 = significand * 2 ^ exponent := roundUp_mul Nat.one_pos
  rw [Nat.mul_one] at hround
  simp only [round, ratio, scaleByTwo_natCast, hround]

/-- A whole number with zeros behind the point. -/
theorem round_scaled : (Binary64.mk negative (num * 2 ^ places) (-places)).round =
    if negative then -(num : Int) else num := by
  have hround : roundUp (num * 2 ^ places) (2 ^ places) = num := roundUp_mul (Nat.two_pow_pos places)
  simp only [round, ratio, scaleByTwo_neg, Nat.one_mul, hround]

theorem floorLog_one (hn : num ≠ 0) : floorLog num 1 = num.log2 := by
  have hlog : Nat.log2 1 = 0 := by decide
  have hle : (scaleByTwo num 1 (-(num.log2 : Int))).2 ≤ (scaleByTwo num 1 (-(num.log2 : Int))).1 := by
    rw [scaleByTwo_neg, Nat.one_mul]
    exact Nat.log2_self_le hn
  unfold floorLog
  rw [hlog, Int.natCast_zero, Int.sub_zero]
  exact if_pos hle

theorem round_zero : (zero negative).round = 0 := by
  have hscaled : ∀ places : Nat, (Binary64.mk negative 0 (-places)).round = 0 := fun places => by
    have hround : (Binary64.mk negative (0 * 2 ^ places) (-places)).round = _ := round_scaled
    rw [Nat.zero_mul] at hround
    exact hround.trans (by cases negative <;> rfl)
  exact hscaled 1074

/-- A whole number of few bits is held as it is. -/
theorem ofRatio_of_few (hn : num ≠ 0) (hfew : num.log2 ≤ 52) : ofRatio negative num 1 =
    some ⟨negative, num * 2 ^ (52 - num.log2), -(52 - num.log2 : Nat)⟩ := by
  have hmax : max ((num.log2 : Int) - 52) leastExponent = -(52 - num.log2 : Nat) := by
    rw [leastExponent]
    omega
  have hlt : num * 2 ^ (52 - num.log2) < 2 * leastNormal := by
    calc
      num * 2 ^ (52 - num.log2) < 2 ^ (num.log2 + 1) * 2 ^ (52 - num.log2) :=
        Nat.mul_lt_mul_of_pos_right Nat.lt_log2_self (Nat.two_pow_pos _)
      _ = 2 ^ (num.log2 + 1 + (52 - num.log2)) := (Nat.pow_add 2 _ _).symm
      _ = 2 ^ 53 := by congr 1; omega
  have hgreatest : ¬greatestExponent < -((52 - num.log2 : Nat) : Int) := by
    rw [greatestExponent]
    omega
  simp only [ofRatio, if_neg hn, floorLog_one hn, hmax, Int.neg_neg, scaleByTwo_natCast, roundToEven_one,
    if_neg (Nat.ne_of_lt hlt), if_neg hgreatest]

/-- A whole number of many bits is rounded to its last place. -/
theorem ofRatio_of_many (hn : num ≠ 0) (hmany : 52 ≤ num.log2) (hlog : num.log2 < 64) :
    ∃ significand exponent : Nat, ofRatio negative num 1 = some ⟨negative, significand, exponent⟩ ∧
      significand * 2 ^ exponent = nearestNat num := by
  have hmax : max ((num.log2 : Int) - 52) leastExponent = (num.log2 - 52 : Nat) := by
    rw [leastExponent]
    omega
  have hplace : 1 * 2 ^ (num.log2 - 52) = lastPlace num := Nat.one_mul _
  have hgreatest : ∀ exponent : Int, exponent ≤ 12 → ¬greatestExponent < exponent := fun exponent h => by
    rw [greatestExponent]
    omega
  simp only [ofRatio, if_neg hn, floorLog_one hn, hmax, scaleByTwo_neg, hplace]
  by_cases hcarry : roundToEven num (lastPlace num) = 2 * leastNormal
  · refine ⟨leastNormal, num.log2 - 52 + 1, ?_, ?_⟩
    · simp only [if_pos hcarry]
      exact if_neg (hgreatest _ (by omega))
    · rw [nearestNat, hcarry, lastPlace, Nat.pow_succ, Nat.mul_comm 2 leastNormal, Nat.mul_assoc, Nat.mul_comm 2]
  · refine ⟨roundToEven num (lastPlace num), num.log2 - 52, ?_, rfl⟩
    simp only [if_neg hcarry]
    exact if_neg (hgreatest _ (by omega))

/-- A whole number of 64 bits is read as the nearest one of the format. -/
theorem round_ofRatio (hn : num < 2 ^ 64) : ∃ b, ofRatio negative num 1 = some b ∧
    b.round = if negative then -(nearestNat num : Int) else nearestNat num := by
  by_cases hzero : num = 0
  · subst hzero
    exact ⟨zero negative, rfl, round_zero.trans (by cases negative <;> rfl)⟩
  · rcases Nat.lt_or_ge 52 num.log2 with hmany | hfew
    · have hlog : num.log2 < 64 := (Nat.log2_lt hzero).2 hn
      obtain ⟨significand, exponent, hb, hvalue⟩ := ofRatio_of_many hzero (Nat.le_of_lt hmany) hlog
      exact ⟨_, hb, by rw [round_whole, hvalue]⟩
    · have hexact : nearestNat num = num := by
        rw [nearestNat, lastPlace, Nat.sub_eq_zero_of_le hfew, Nat.pow_zero, roundToEven_one, Nat.mul_one]
      exact ⟨_, ofRatio_of_few hzero hfew, by rw [round_scaled, hexact]⟩

theorem floorLog_le {log : Nat} (h : num < 2 ^ (log + 1) * den) : floorLog num den ≤ log := by
  have hlog : num.log2 ≤ log + 1 + den.log2 := by
    by_cases hzero : num = 0
    · rw [hzero, Nat.log2_zero]
      exact Nat.zero_le _
    · refine Nat.le_of_lt_succ ((Nat.log2_lt hzero).2 ?_)
      calc
        num < 2 ^ (log + 1) * den := h
        _ < 2 ^ (log + 1) * 2 ^ (den.log2 + 1) := Nat.mul_lt_mul_of_pos_left Nat.lt_log2_self (Nat.two_pow_pos _)
        _ = 2 ^ (log + 1 + den.log2 + 1) := (Nat.pow_add 2 _ _).symm
  rcases Nat.lt_or_eq_of_le hlog with hlt | heq
  · unfold floorLog
    dsimp only
    split <;> omega
  · -- the power of two for which the logarithms allow is too large
    have hpower : -((num.log2 : Int) - den.log2) = -((log + 1 : Nat) : Int) := by omega
    have hgreater : ¬den * 2 ^ (log + 1) ≤ num := by
      rw [Nat.mul_comm]
      exact Nat.not_le.2 h
    simp only [floorLog, hpower, scaleByTwo_neg, if_neg hgreater]
    omega

/-- A quotient below the greatest numbers of the format has a place in it. -/
theorem isSome_ofRatio {log : Nat} (hlog : log ≤ 1022) (h : num < 2 ^ (log + 1) * den) :
    (ofRatio negative num den).isSome = true := by
  have hfloor : floorLog num den ≤ log := floorLog_le h
  have hexponent : max (floorLog num den - 52) leastExponent ≤ 970 := by
    rw [leastExponent]
    omega
  unfold ofRatio
  split
  · rfl
  · dsimp only
    split
    · rw [if_neg (by rw [greatestExponent]; omega)]
      rfl
    · rw [if_neg (by rw [greatestExponent]; omega)]
      rfl

end Binary64

end Interchange.Decimal
