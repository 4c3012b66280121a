import Interchange.Proofs.Splitting
import Interchange.Proofs.WholeNumbers

/-!
# Digits in groups

A number with points between groups of three digits and a comma in front of its fraction is read as the number
without the points (`Value.readNumber_grouped`). Without a comma, a lone point is taken for the one in front of a
fraction, so the points go only where there are two or more.
-/

namespace Interchange

open Text (isBlank)
open Interchange.Path (Trimmed)

/-! ## Numerals with a fraction -/

namespace Decimal

variable {negative : Bool} {cs ds fs : List Char}

/-- Digits on both sides of a point, behind an optional sign. -/
theorem readNumeral_fraction (hsign : splitSign cs = (negative, ds ++ '.' :: fs)) (hne : ds ≠ [])
    (hds : ∀ c ∈ ds, c.isDigit = true) (hfs : ∀ c ∈ fs, c.isDigit = true) :
    readNumeral cs = some ⟨negative, ofDigits (ds ++ fs), -fs.length⟩ := by
  have hpoint : ¬Char.isDigit '.' = true := by decide
  have htake : (ds ++ '.' :: fs).takeWhile Char.isDigit = ds := by
    rw [List.takeWhile_append_of_pos hds, List.takeWhile_cons_of_neg hpoint, List.append_nil]
  have hdrop : (ds ++ '.' :: fs).dropWhile Char.isDigit = '.' :: fs := by
    rw [List.dropWhile_append_of_pos hds, List.dropWhile_cons_of_neg hpoint]
  have htakeFraction : fs.takeWhile Char.isDigit = fs := List.takeWhile_eq_self_iff.2 hfs
  have hdropFraction : fs.dropWhile Char.isDigit = [] := List.dropWhile_eq_nil_iff.2 hfs
  simp [readNumeral, hsign, htake, hdrop, htakeFraction, hdropFraction, hne, readExponent]

theorem scaleByTen_neg {num den : Nat} (places : Nat) :
    scaleByTen num den (-places) = (num, den * 10 ^ places) := by
  rcases Nat.eq_zero_or_pos places with rfl | hplaces
  · simp [scaleByTen]
  · rw [scaleByTen, if_neg (by omega), Int.neg_neg, Int.toNat_natCast]
    rfl

theorem ten_pow_le (k : Nat) : 10 ^ (3 * k) ≤ 2 ^ (10 * k) := by
  rw [Nat.pow_mul, Nat.pow_mul]
  exact Nat.pow_le_pow_left (by decide) k

/-- A number with up to 300 digits in front of the point has a place in the binary format. -/
theorem Binary64.isSome_ofNumeral {k : Nat} (hne : ds ≠ []) (hds : ∀ c ∈ ds, c.isDigit = true)
    (hfs : ∀ c ∈ fs, c.isDigit = true) (hk : k ≤ 100) (hlength : ds.length ≤ 3 * k) :
    (ofNumeral ⟨negative, ofDigits (ds ++ fs), -fs.length⟩).isSome = true := by
  have hlt := ofDigits_lt (List.forall_mem_append.2 ⟨hds, hfs⟩)
  have hwidth : (toString (ofDigits (ds ++ fs))).length ≤ ds.length + fs.length := by
    have hpos := List.length_pos_iff.2 hne
    rw [List.length_append] at hlt
    exact (Nat.length_repr_le_iff (by omega)).2 hlt
  have hvalue : ofDigits (ds ++ fs) < 2 ^ (10 * k + 1) * (1 * 10 ^ fs.length) := by
    calc
      ofDigits (ds ++ fs) < 10 ^ ds.length * 10 ^ fs.length := by
        rw [← Nat.pow_add, ← List.length_append]
        exact hlt
      _ ≤ 10 ^ (3 * k) * 10 ^ fs.length := Nat.mul_le_mul_right _ (Nat.pow_le_pow_right (by decide) hlength)
      _ ≤ 2 ^ (10 * k) * 10 ^ fs.length := Nat.mul_le_mul_right _ (ten_pow_le k)
      _ ≤ 2 ^ (10 * k + 1) * 10 ^ fs.length :=
        Nat.mul_le_mul_right _ (Nat.pow_le_pow_right (by decide) (Nat.le_succ _))
      _ = 2 ^ (10 * k + 1) * (1 * 10 ^ fs.length) := by rw [Nat.one_mul]
  unfold ofNumeral
  split
  · rfl
  · dsimp only
    rw [if_neg (by omega), scaleByTen_neg]
    split
    · rfl
    · exact isSome_ofRatio (by omega) hvalue

end Decimal

/-! ## Groups -/

namespace Value

open Decimal (Binary64 ofDigits)

/-- Digits with points between groups of three, counted from the back. -/
def grouped : List Char → List Char
  | [] => []
  | c :: rest => if 0 < rest.length ∧ rest.length % 3 = 0 then c :: '.' :: grouped rest else c :: grouped rest

variable {c : Char} {cs ds fs before after : List Char} {negative : Bool}

theorem mem_grouped (hc : c ∈ grouped ds) : c = '.' ∨ c ∈ ds := by
  induction ds with
  | nil => exact Or.inr hc
  | cons d ds ih =>
      rw [grouped] at hc
      split at hc
      · rcases List.mem_cons.1 hc with rfl | hc
        · exact Or.inr List.mem_cons_self
        · exact (List.mem_cons.1 hc).elim Or.inl fun hc => (ih hc).imp_right (List.mem_cons_of_mem d)
      · rcases List.mem_cons.1 hc with rfl | hc
        · exact Or.inr List.mem_cons_self
        · exact (ih hc).imp_right (List.mem_cons_of_mem d)

theorem filter_grouped (hds : '.' ∉ ds) : (grouped ds).filter (· != '.') = ds := by
  induction ds with
  | nil => rfl
  | cons d ds ih =>
      rw [List.mem_cons, not_or] at hds
      have hd : (d != '.') = true := bne_iff_ne.2 (Ne.symm hds.1)
      rw [grouped]
      split
      · simp [hd, ih hds.2]
      · simp [hd, ih hds.2]

/-- There are as many points as full groups behind the first digit. -/
theorem count_grouped (hds : '.' ∉ ds) : (grouped ds).count '.' = (ds.length - 1) / 3 := by
  induction ds with
  | nil => rfl
  | cons d ds ih =>
      rw [List.mem_cons, not_or] at hds
      have hcount : (d :: ds).length - 1 = ds.length := rfl
      rw [grouped, hcount]
      split
      · rw [List.count_cons_of_ne (Ne.symm hds.1), List.count_cons_self, ih hds.2]
        omega
      · rw [List.count_cons_of_ne (Ne.symm hds.1), ih hds.2]
        omega

example : grouped "1234567".toList = "1.234.567".toList := by decide

/-! ## Taking the marks out -/

/-- The sign in front of a number, which only a number below zero has. -/
def sign (negative : Bool) : List Char := if negative then ['-'] else []

theorem mem_sign (hc : c ∈ sign negative) : c = '-' := by
  cases negative with
  | true => exact List.mem_singleton.1 hc
  | false => exact absurd hc List.not_mem_nil

theorem digit_ne_mark (hc : c.isDigit = true) : c ≠ '.' ∧ c ≠ ',' ∧ isBlank c = false := by
  refine ⟨fun h => ?_, fun h => ?_, Path.isBlank_of_isWordChar (Path.isWordChar_of_isDigit hc)⟩
  · rw [h] at hc
    exact absurd hc (by decide)
  · rw [h] at hc
    exact absurd hc (by decide)

theorem mem_signed (hds : ∀ c ∈ ds, c.isDigit = true) (hc : c ∈ sign negative ++ ds) :
    c ≠ '.' ∧ c ≠ ',' ∧ isBlank c = false := by
  rcases List.mem_append.1 hc with hc | hc
  · rw [mem_sign hc]
    decide
  · exact digit_ne_mark (hds c hc)

/-- Points between its groups bring no comma and no white space into a number. -/
theorem mem_signed_grouped (hds : ∀ c ∈ ds, c.isDigit = true) (hc : c ∈ sign negative ++ grouped ds) :
    c ≠ ',' ∧ isBlank c = false := by
  rcases List.mem_append.1 hc with hc | hc
  · rw [mem_sign hc]
    decide
  · rcases mem_grouped hc with rfl | hc
    · decide
    · exact (digit_ne_mark (hds c hc)).2

theorem notMem_point (hds : ∀ c ∈ ds, c.isDigit = true) : '.' ∉ ds := fun h => (digit_ne_mark (hds _ h)).1 rfl

theorem filter_signed_grouped (hds : ∀ c ∈ ds, c.isDigit = true) :
    (sign negative ++ grouped ds).filter (· != '.') = sign negative ++ ds := by
  have hsign : (sign negative).filter (· != '.') = sign negative := by cases negative <;> rfl
  rw [List.filter_append, hsign, filter_grouped (notMem_point hds)]

theorem plainNumber_padded (hbefore : ∀ c ∈ before, isBlank c = true) (hafter : ∀ c ∈ after, isBlank c = true) :
    plainNumber (before ++ (cs ++ after)) = plainNumber cs := by
  rw [plainNumber, plainNumber, Path.trimChars_blanks_append hbefore, Path.trimChars_append_blanks hafter]

/-- A number with one point at most and no comma is only trimmed. -/
theorem plainNumber_plain (hpoints : cs.count '.' ≤ 1) (hcomma : ',' ∉ cs) : plainNumber cs = Text.trimChars cs := by
  have hsublist : (Text.trimChars cs).Sublist cs := Path.trimChars_sublist cs
  have hmiddle : ',' ∉ Text.trimChars cs := fun h => hcomma (hsublist.mem h)
  have hcount : (Text.trimChars cs).count '.' ≤ 1 := Nat.le_trans (hsublist.count_le '.') hpoints
  rw [plainNumber, if_neg (by simpa using hmiddle), if_neg (Nat.not_lt.2 hcount)]

/-- A comma becomes the point, whatever points there were. -/
theorem plainNumber_comma (hds : ∀ c ∈ ds, c.isDigit = true) (hfs : ∀ c ∈ fs, c.isDigit = true) :
    plainNumber (sign negative ++ grouped ds ++ ',' :: fs) = sign negative ++ ds ++ '.' :: fs := by
  have htrimmed : Trimmed (sign negative ++ grouped ds ++ ',' :: fs) := by
    refine .of_forall (List.forall_mem_append.2 ⟨fun c hc => (mem_signed_grouped hds hc).2, ?_⟩)
    exact List.forall_mem_cons.2 ⟨by decide, fun c hc => (digit_ne_mark (hfs c hc)).2.2⟩
  have hfraction : (',' :: fs).filter (· != '.') = ',' :: fs := by
    refine List.filter_eq_self.2 (List.forall_mem_cons.2 ⟨by decide, fun c hc => ?_⟩)
    exact bne_iff_ne.2 (digit_ne_mark (hfs c hc)).1
  -- the comma between the digits is the only one
  have hkeep : ∀ cs : List Char, ',' ∉ cs → (cs.map fun c => if c = ',' then '.' else c) = cs := fun cs hcs =>
    (List.map_congr_left fun c hc => if_neg fun h : c = ',' => hcs (h ▸ hc)).trans (List.map_id _)
  have hwhole : ',' ∉ sign negative ++ ds := fun h => (mem_signed hds h).2.1 rfl
  rw [plainNumber, htrimmed.trimChars, if_pos (by simp), List.filter_append, filter_signed_grouped hds, hfraction,
    List.map_append, hkeep _ hwhole, List.map_cons, if_pos rfl,
    hkeep fs fun h => (digit_ne_mark (hfs _ h)).2.1 rfl]

/-- Two points or more go, and where there is none there is nothing to take out. -/
theorem plainNumber_points (hds : ∀ c ∈ ds, c.isDigit = true) (hpoints : (grouped ds).count '.' ≠ 1) :
    plainNumber (sign negative ++ grouped ds) = sign negative ++ ds := by
  have htrimmed : Trimmed (sign negative ++ grouped ds) := .of_forall fun c hc => (mem_signed_grouped hds hc).2
  have hcomma : ',' ∉ sign negative ++ grouped ds := fun h => (mem_signed_grouped hds h).1 rfl
  have hsign : (sign negative).count '.' = 0 := by cases negative <;> rfl
  rw [plainNumber, htrimmed.trimChars, if_neg (by simpa using hcomma), List.count_append, hsign, Nat.zero_add]
  split
  · exact filter_signed_grouped hds
  · have hnone : '.' ∉ grouped ds := List.count_eq_zero.1 (by omega)
    have hgrouped : (grouped ds).filter (· != '.') = grouped ds :=
      List.filter_eq_self.2 fun c hc => bne_iff_ne.2 fun h => hnone (h ▸ hc)
    rw [← hgrouped, filter_grouped (notMem_point hds)]

/-! ## Reading -/

theorem splitSign_sign (hc : c.isDigit = true) (rest : List Char) :
    Decimal.splitSign (sign negative ++ c :: rest) = (negative, c :: rest) := by
  cases negative with
  | true => rfl
  | false => exact Decimal.splitSign_cons hc

/-- The number that a plain spelling stands for. -/
theorem read_signed (hne : ds ≠ []) (hds : ∀ c ∈ ds, c.isDigit = true) (hfs : ∀ c ∈ fs, c.isDigit = true)
    (negative : Bool) :
    Binary64.read (sign negative ++ ds ++ '.' :: fs) =
      Binary64.ofNumeral ⟨negative, ofDigits (ds ++ fs), -fs.length⟩ ∧
    Binary64.read (sign negative ++ ds) = Binary64.ofNumeral ⟨negative, ofDigits ds, 0⟩ := by
  obtain ⟨c, rest, rfl⟩ := List.exists_cons_of_ne_nil hne
  have hc := hds c List.mem_cons_self
  refine ⟨?_, ?_⟩
  · have hsign : Decimal.splitSign (sign negative ++ (c :: rest) ++ '.' :: fs) =
        (negative, c :: rest ++ '.' :: fs) := by
      rw [List.append_assoc, List.cons_append, splitSign_sign hc]
    rw [Binary64.read, Decimal.readNumeral_fraction hsign hne hds hfs, Option.bind_some]
  · rw [Binary64.read, Decimal.readNumeral_digits (splitSign_sign hc rest) hne hds, Option.bind_some]

/-- A plain spelling has no marks to take out. -/
theorem plainNumber_signed (hds : ∀ c ∈ ds, c.isDigit = true) (hfs : ∀ c ∈ fs, c.isDigit = true) :
    plainNumber (sign negative ++ ds ++ '.' :: fs) = sign negative ++ ds ++ '.' :: fs := by
  have hmarks : ∀ c ∈ sign negative ++ ds ++ '.' :: fs, c ≠ ',' ∧ isBlank c = false := by
    refine List.forall_mem_append.2 ⟨fun c hc => (mem_signed hds hc).2, List.forall_mem_cons.2 ⟨by decide, ?_⟩⟩
    exact fun c hc => (digit_ne_mark (hfs c hc)).2
  have hcount : (sign negative ++ ds ++ '.' :: fs).count '.' = 1 := by
    rw [List.count_append, List.count_cons_self, List.count_eq_zero.2 (notMem_point hfs),
      List.count_eq_zero.2 fun h => (mem_signed hds h).1 rfl]
  have htrimmed : Trimmed (sign negative ++ ds ++ '.' :: fs) := .of_forall fun c hc => (hmarks c hc).2
  rw [plainNumber_plain (Nat.le_of_eq hcount) fun h => (hmarks _ h).1 rfl, htrimmed.trimChars]

/-- A number with points between groups of three digits and a comma in front of its fraction, with or without a minus
and in whatever white space, is the plain number with the points taken out and a point for the comma. It is read as
that number, and one with up to 300 digits in front of the comma is always read. Without a comma the points are taken
out unless there is just one; there are as many as full groups behind the first digit. Whatever has one point at most
and no comma is only trimmed. -/
theorem readNumber_grouped (hne : ds ≠ []) (hds : ∀ c ∈ ds, c.isDigit = true) (hfs : ∀ c ∈ fs, c.isDigit = true)
    (hbefore : ∀ c ∈ before, isBlank c = true) (hafter : ∀ c ∈ after, isBlank c = true) (negative : Bool) :
    (plainNumber (before ++ (sign negative ++ grouped ds ++ ',' :: fs ++ after)) =
        sign negative ++ ds ++ '.' :: fs ∧
      readNumber (String.ofList (before ++ (sign negative ++ grouped ds ++ ',' :: fs ++ after))) =
        readNumber (String.ofList (sign negative ++ ds ++ '.' :: fs)) ∧
      readNumber (String.ofList (sign negative ++ ds ++ '.' :: fs)) =
        Binary64.ofNumeral ⟨negative, ofDigits (ds ++ fs), -fs.length⟩ ∧
      (ds.length ≤ 300 → (readNumber (String.ofList (sign negative ++ ds ++ '.' :: fs))).isSome = true)) ∧
    ((grouped ds).count '.' ≠ 1 →
      plainNumber (before ++ (sign negative ++ grouped ds ++ after)) = sign negative ++ ds ∧
      readNumber (String.ofList (before ++ (sign negative ++ grouped ds ++ after))) =
        Binary64.ofNumeral ⟨negative, ofDigits ds, 0⟩) ∧
    (grouped ds).count '.' = (ds.length - 1) / 3 ∧
    ∀ cs : List Char, cs.count '.' ≤ 1 → ',' ∉ cs → plainNumber cs = Text.trimChars cs := by
  obtain ⟨hfraction, hwhole⟩ := read_signed hne hds hfs negative
  have hplain : readNumber (String.ofList (sign negative ++ ds ++ '.' :: fs)) =
      Binary64.ofNumeral ⟨negative, ofDigits (ds ++ fs), -fs.length⟩ := by
    rw [readNumber, String.toList_ofList, plainNumber_signed hds hfs, hfraction]
  have hcomma : plainNumber (before ++ (sign negative ++ grouped ds ++ ',' :: fs ++ after)) =
      sign negative ++ ds ++ '.' :: fs := by
    rw [plainNumber_padded hbefore hafter, plainNumber_comma hds hfs]
  refine ⟨⟨hcomma, ?_, hplain, fun hlength => ?_⟩, fun hpoints => ?_, count_grouped (notMem_point hds),
    fun cs hpoints hnone => plainNumber_plain hpoints hnone⟩
  · rw [hplain, readNumber, String.toList_ofList, hcomma, hfraction]
  · rw [hplain]
    exact Binary64.isSome_ofNumeral hne hds hfs (Nat.le_refl 100) hlength
  · have hpoint : plainNumber (before ++ (sign negative ++ grouped ds ++ after)) = sign negative ++ ds := by
      rw [plainNumber_padded hbefore hafter, plainNumber_points hds hpoints]
    refine ⟨hpoint, ?_⟩
    rw [readNumber, String.toList_ofList, hpoint, hwhole]

theorem readNumber_grouped_million : "1234567".toList ≠ [] ∧ (∀ c ∈ "1234567".toList, c.isDigit = true) ∧
    (∀ c ∈ "89".toList, c.isDigit = true) ∧ (∀ c ∈ ['\u00a0'], isBlank c = true) ∧ (∀ c ∈ [' '], isBlank c = true) ∧
    plainNumber "\u00a0-1.234.567,89 ".toList = "-1234567.89".toList ∧
    readNumber "\u00a0-1.234.567,89 " = readNumber "-1234567.89" ∧
    (readNumber "-1234567.89").isSome = true ∧ plainNumber "\u00a0-1.234.567 ".toList = "-1234567".toList := by
  have hne : "1234567".toList ≠ [] := by decide
  have hds : ∀ c ∈ "1234567".toList, c.isDigit = true := List.all_eq_true.1 (by decide)
  have hfs : ∀ c ∈ "89".toList, c.isDigit = true := List.all_eq_true.1 (by decide)
  have hbefore : ∀ c ∈ ['\u00a0'], isBlank c = true := List.all_eq_true.1 (by decide)
  have hafter : ∀ c ∈ [' '], isBlank c = true := List.all_eq_true.1 (by decide)
  obtain ⟨⟨hcomma, hread, -, hsome⟩, hpoints, -, -⟩ := readNumber_grouped hne hds hfs hbefore hafter true
  exact ⟨hne, hds, hfs, hbefore, hafter, hcomma, hread, hsome (by decide), (hpoints (by decide)).1⟩

end Value

end Interchange
