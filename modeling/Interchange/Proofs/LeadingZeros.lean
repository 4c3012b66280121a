import Interchange.Proofs.Lookups
import Interchange.Proofs.WholeNumbers

/-!
# Leading zeros

The transform for whole numbers writes digits without the zeros in front of them, as long as their number has 64
bits; more digits are handed back with their zeros (`TransformTable.apply_digits`).
-/

namespace Interchange

open Text (Agree)

namespace Decimal

variable {ds : List Char} {c : Char}

/-! ## Digits and their number -/

/-- Digits without the zeros in front of them; of zeros alone, one is left. -/
def withoutLeadingZeros (ds : List Char) : List Char :=
  if ds.all (· == '0') then ['0'] else ds.dropWhile (· == '0')

theorem ofDigits_eq_zero_iff (hds : ∀ c ∈ ds, c.isDigit = true) : ofDigits ds = 0 ↔ ds.all (· == '0') = true := by
  induction ds using List.reverseRecOn with
  | nil => simp [ofDigits]
  | append_singleton ds c ih =>
      obtain ⟨hfront, hc⟩ := List.forall_mem_append.1 hds
      have hzero : digit c = 0 ↔ c = '0' := by
        refine ⟨fun h => ?_, fun h => h ▸ rfl⟩
        have hchar := (digit_lt_ten (hc c (List.mem_singleton_self c))).2
        rw [← hchar, h]
        rfl
      rw [ofDigits_concat, List.all_append, Bool.and_eq_true, ← ih hfront]
      simp only [List.all_cons, List.all_nil, Bool.and_true, beq_iff_eq, ← hzero]
      omega

/-- The digits of the number that digits stand for are those digits without the zeros in front. -/
theorem toDigits_ofDigits (hds : ∀ c ∈ ds, c.isDigit = true) :
    Nat.toDigits 10 (ofDigits ds) = withoutLeadingZeros ds := by
  induction ds using List.reverseRecOn with
  | nil => simp [ofDigits, withoutLeadingZeros]
  | append_singleton ds c ih =>
      obtain ⟨hfront, hc⟩ := List.forall_mem_append.1 hds
      obtain ⟨hlt, hchar⟩ := digit_lt_ten (hc c (List.mem_singleton_self c))
      have hlast : Nat.toDigits 10 (digit c) = [c] := by rw [Nat.toDigits_of_lt_base hlt, hchar]
      rw [ofDigits_concat]
      by_cases hzero : ds.all (· == '0') = true
      · -- the last digit is all that is left
        rw [(ofDigits_eq_zero_iff hfront).2 hzero, Nat.mul_zero, Nat.zero_add, hlast, withoutLeadingZeros,
          List.dropWhile_append_of_pos (List.all_eq_true.1 hzero), List.all_append, hzero]
        by_cases hc : c = '0' <;> simp [hc]
      · have hpos : 0 < ofDigits ds := Nat.pos_of_ne_zero (mt (ofDigits_eq_zero_iff hfront).1 hzero)
        have hrest : ds.dropWhile (· == '0') ≠ [] := by
          rw [Ne, List.dropWhile_eq_nil_iff, ← List.all_eq_true]
          exact hzero
        have hmore : ¬(ds ++ [c]).all (· == '0') = true := fun h => hzero (by
          rw [List.all_append, Bool.and_eq_true] at h
          exact h.1)
        rw [← Nat.toDigits_append_toDigits (by decide) hpos hlt, ih hfront, hlast, withoutLeadingZeros,
          if_neg hzero, withoutLeadingZeros, if_neg hmore, List.dropWhile_append, if_neg (by simpa using hrest)]

/-- How many digits are left tells how large the number is. -/
theorem length_withoutLeadingZeros_le_iff (hds : ∀ c ∈ ds, c.isDigit = true) {k : Nat} (hk : 0 < k) :
    (withoutLeadingZeros ds).length ≤ k ↔ ofDigits ds < 10 ^ k := by
  rw [← toDigits_ofDigits hds, Nat.length_toDigits_le_iff (by decide) hk]

/-! ## Reading and writing whole numbers -/

theorem readInteger_digits (hne : ds ≠ []) (hds : ∀ c ∈ ds, c.isDigit = true) :
    readInteger ds = some (ofDigits ds) := by
  have hdigits : isDigits ds = true := by simpa [isDigits, hne] using hds
  rw [readInteger, splitSign_digits hds]
  simp [hdigits]

theorem readInteger_minus (hne : ds ≠ []) (hds : ∀ c ∈ ds, c.isDigit = true) :
    readInteger ('-' :: ds) = some (-(ofDigits ds : Int)) := by
  have hdigits : isDigits ds = true := by simpa [isDigits, hne] using hds
  simp [readInteger, splitSign, hdigits]

theorem toString_ofDigits (hds : ∀ c ∈ ds, c.isDigit = true) :
    toString (ofDigits ds : Int) = String.ofList (withoutLeadingZeros ds) := by
  rw [← String.toList_inj, toList_toString, String.toList_ofList, if_neg (by omega), Int.natAbs_natCast,
    toDigits_ofDigits hds]

/-- Behind a minus, zeros alone are written as one zero without the minus. -/
theorem toString_neg_ofDigits (hds : ∀ c ∈ ds, c.isDigit = true) : toString (-(ofDigits ds : Int)) =
    String.ofList (if ds.all (· == '0') then ['0'] else '-' :: withoutLeadingZeros ds) := by
  rw [← String.toList_inj, toList_toString, String.toList_ofList, Int.natAbs_neg, Int.natAbs_natCast,
    toDigits_ofDigits hds]
  by_cases hzero : ds.all (· == '0') = true
  · have hnumber : ofDigits ds = 0 := (ofDigits_eq_zero_iff hds).2 hzero
    rw [if_neg (by omega), if_pos hzero, withoutLeadingZeros, if_pos hzero]
  · have hnumber : ofDigits ds ≠ 0 := mt (ofDigits_eq_zero_iff hds).1 hzero
    rw [if_pos (by omega), if_neg hzero]

end Decimal

/-! ## The transform -/

namespace TransformTable

open Decimal (ofDigits withoutLeadingZeros isInt64)

variable {t : TransformTable} {name : String} {f : Transform} {ds cs : List Char} {c : Char} {n : Int}

/-- Names that agree find the same transform. -/
theorem find_congr {other : String} (h : Agree name other) : t.find name = t.find other := by
  rw [find, find, Text.asciiLower_trim_eq_iff.2 h]

theorem find_integer (h : Agree name "remove_leading_zeros" ∨ Agree name "parse_integer") :
    standard.find name = some Transform.integer := by
  rcases h with h | h
  · exact (find_congr h).trans (find_builtIn (by simp [builtIns]))
  · exact (find_congr h).trans (find_builtIn (by simp [builtIns]))

theorem apply_of_find (hfind : t.find name = some f) {value : String} (hvalue : Text.isBlankText value = false) :
    t.apply name value = match f value with | .ok result => result | .error _ => value := by
  rw [apply, hvalue, tryApply, hfind, Option.map_some]
  cases f value <;> rfl

/-- What becomes of a text that is read as a whole number. -/
theorem apply_integer (hfind : t.find name = some Transform.integer) (hc : c ∈ cs)
    (hcs : ∀ d ∈ cs, Text.isBlank d = false) (hread : Decimal.readInteger cs = some n) :
    t.apply name (String.ofList cs) = if isInt64 n then toString n else String.ofList cs := by
  have hvalue : Text.isBlankText (String.ofList cs) = false := by
    rw [Text.isBlankText, String.toList_ofList, List.all_eq_false]
    exact ⟨c, hc, by simp [hcs c hc]⟩
  have htrim : Text.trimChars cs = cs := (Path.Trimmed.of_forall hcs).trimChars
  rw [apply_of_find hfind hvalue, Transform.integer, String.toList_ofList, htrim, hread]
  cases h : isInt64 n <;> simp [h]

/-- The transform for whole numbers, under each of its names, hands digits back without the zeros in front of them,
and keeps a minus unless there are zeros alone, if the number has 64 bits; otherwise it hands back what it got.
Numbers of up to 18 digits behind the zeros have 64 bits, and numbers of 20 digits or more have not. -/
theorem apply_digits (hname : Agree name "remove_leading_zeros" ∨ Agree name "parse_integer") (hne : ds ≠ [])
    (hds : ∀ c ∈ ds, c.isDigit = true) :
    standard.apply name (String.ofList ds) =
      String.ofList (if ofDigits ds < 2 ^ 63 then withoutLeadingZeros ds else ds) ∧
    standard.apply name (String.ofList ('-' :: ds)) =
      String.ofList (if ofDigits ds ≤ 2 ^ 63 then
        if ds.all (· == '0') then ['0'] else '-' :: withoutLeadingZeros ds else '-' :: ds) ∧
    ((withoutLeadingZeros ds).length ≤ 18 → ofDigits ds < 2 ^ 63) ∧
    (20 ≤ (withoutLeadingZeros ds).length → 2 ^ 63 < ofDigits ds) := by
  have hfind := find_integer hname
  have hblank : ∀ c ∈ ds, Text.isBlank c = false := fun c hc =>
    Path.isBlank_of_isWordChar (Path.isWordChar_of_isDigit (hds c hc))
  obtain ⟨first, hfirst⟩ := List.exists_mem_of_ne_nil ds hne
  refine ⟨?_, ?_, fun h => ?_, fun h => ?_⟩
  · have hfits : isInt64 (ofDigits ds) = true ↔ ofDigits ds < 2 ^ 63 := by
      simp only [isInt64, Bool.and_eq_true, decide_eq_true_eq]
      omega
    rw [apply_integer hfind hfirst hblank (Decimal.readInteger_digits hne hds), Decimal.toString_ofDigits hds]
    simp only [hfits]
    split <;> rfl
  · have hfits : isInt64 (-(ofDigits ds : Int)) = true ↔ ofDigits ds ≤ 2 ^ 63 := by
      simp only [isInt64, Bool.and_eq_true, decide_eq_true_eq]
      omega
    have hminus : ∀ c ∈ '-' :: ds, Text.isBlank c = false := List.forall_mem_cons.2 ⟨by decide, hblank⟩
    rw [apply_integer hfind List.mem_cons_self hminus (Decimal.readInteger_minus hne hds),
      Decimal.toString_neg_ofDigits hds]
    simp only [hfits]
    split <;> rfl
  · have hlt := (Decimal.length_withoutLeadingZeros_le_iff hds (by decide)).1 h
    omega
  · have hle := mt (Decimal.length_withoutLeadingZeros_le_iff hds (k := 19) (by decide)).2 (by omega)
    omega

/-- The number of a shipping unit, with and without a minus. -/
theorem apply_digits_shippingUnit : Agree "Parse_Integer " "parse_integer" ∧
    "00340123450000000018".toList ≠ [] ∧ (∀ c ∈ "00340123450000000018".toList, c.isDigit = true) ∧
    standard.apply "Parse_Integer " "00340123450000000018" = "340123450000000018" ∧
    standard.apply "Parse_Integer " (String.ofList ('-' :: "00340123450000000018".toList)) =
      "-340123450000000018" := by
  have hname : Agree "Parse_Integer " "parse_integer" := by
    unfold Agree
    decide
  have hne : "00340123450000000018".toList ≠ [] := by decide
  have hdigits : ∀ c ∈ "00340123450000000018".toList, c.isDigit = true := List.all_eq_true.1 (by decide)
  obtain ⟨hplain, hminus, -, -⟩ := apply_digits (Or.inr hname) hne hdigits
  rw [String.ofList_toList] at hplain
  exact ⟨hname, hne, hdigits, hplain.trans (by decide), hminus.trans (by decide)⟩

/-- The first number beyond 64 bits is handed back with the zero in front of it. -/
theorem apply_tooLong : standard.apply "remove_leading_zeros" "09223372036854775808" = "09223372036854775808" ∧
    standard.apply "parse_integer" "-00009223372036854775809" = "-00009223372036854775809" := by
  decide

end TransformTable

end Interchange
