import Interchange.Calendar.Clock
import Interchange.Proofs.WholeNumbers

/-!
# Dates and times that are read back

A valid date is read back from its text, whatever the width and the sign of its year (`Calendar.Date.read_text`), and
so is a valid time, the sixty-first second of a minute included (`Calendar.Clock.read_text`).
-/

namespace Interchange

open Text (isBlank trimLeft)
open Interchange.Path (isDigit_of_mem_toDigits)

variable {n width k : Nat} {c : Char} {cs ds rest : List Char}

/-! ## Numbers with zeros in front -/

namespace Decimal

theorem toList_padZeros : (padZeros width n).toList =
    List.replicate (width - (Nat.toDigits 10 n).length) '0' ++ Nat.toDigits 10 n := by
  have hdigits : (toString n).toList = Nat.toDigits 10 n := Nat.toList_repr
  rw [padZeros, String.toList_append, String.toList_ofList, hdigits, ← String.length_toList, hdigits]

theorem ofDigits_zeros : ofDigits (List.replicate k '0' ++ ds) = ofDigits ds := by
  induction k with
  | zero => rfl
  | succ k ih => exact ih

theorem ofDigits_padZeros : ofDigits (padZeros width n).toList = n := by
  rw [toList_padZeros, ofDigits_zeros, ofDigits_toDigits]

theorem isDigit_of_mem_padZeros : ∀ c ∈ (padZeros width n).toList, c.isDigit = true := by
  intro c hc
  rw [toList_padZeros, List.mem_append] at hc
  rcases hc with hc | hc
  · rw [List.eq_of_mem_replicate hc]
    decide
  · exact isDigit_of_mem_toDigits c hc

theorem padZeros_ne_nil : (padZeros width n).toList ≠ [] := by
  rw [toList_padZeros]
  exact List.append_ne_nil_of_right_ne_nil _ Nat.toDigits_ne_nil

theorem length_padZeros_le (hwidth : 0 < width) (hn : n < 10 ^ width) : (padZeros width n).toList.length ≤ width := by
  have hdigits := (Nat.length_toDigits_le_iff (b := 10) (by decide) hwidth).2 hn
  rw [toList_padZeros, List.length_append, List.length_replicate]
  omega

end Decimal

namespace Calendar

open Decimal (ofDigits padZeros isDigit_of_mem_padZeros padZeros_ne_nil ofDigits_padZeros length_padZeros_le)

/-! ## Reading off the front -/

theorem isBlank_of_isDigit (hc : c.isDigit = true) : isBlank c = false :=
  Path.isBlank_of_isWordChar (Path.isWordChar_of_isDigit hc)

theorem trimLeft_cons (hc : isBlank c = false) : trimLeft (c :: cs) = c :: cs :=
  List.dropWhile_cons_of_neg (by simp [hc])

theorem trimLeft_digits (hne : ds ≠ []) (hds : ∀ c ∈ ds, c.isDigit = true) : trimLeft (ds ++ rest) = ds ++ rest := by
  obtain ⟨c, ds, rfl⟩ := List.exists_cons_of_ne_nil hne
  exact trimLeft_cons (isBlank_of_isDigit (hds c List.mem_cons_self))

theorem takeNumber_append (hne : ds ≠ []) (hds : ∀ c ∈ ds, c.isDigit = true) (hlength : ds.length ≤ width)
    (hrest : ∀ c ∈ rest.head?, c.isDigit = false) : takeNumber width (ds ++ rest) = some (ofDigits ds, rest) := by
  have htake : ((ds ++ rest).take width).takeWhile Char.isDigit = ds := by
    rw [List.take_append, List.take_of_length_le hlength, List.takeWhile_append_of_pos hds]
    cases rest with
    | nil => simp
    | cons c rest =>
        have hc := hrest c rfl
        cases width - ds.length <;> simp [hc]
  have hempty : ds.isEmpty = false := by simpa using hne
  rw [takeNumber, htake, hempty, List.drop_left]
  rfl

theorem takeNumber_padZeros {places : Nat} (hlength : (padZeros places n).toList.length ≤ width)
    (hrest : ∀ c ∈ rest.head?, c.isDigit = false) :
    takeNumber width ((padZeros places n).toList ++ rest) = some (n, rest) := by
  rw [takeNumber_append padZeros_ne_nil isDigit_of_mem_padZeros hlength hrest, ofDigits_padZeros]

theorem takeField_padZeros (hn : n < 100) (hrest : ∀ c ∈ rest.head?, c.isDigit = false) :
    takeField ((padZeros 2 n).toList ++ rest) = some (n, rest) := by
  rw [takeField, trimLeft_digits padZeros_ne_nil isDigit_of_mem_padZeros,
    takeNumber_padZeros (length_padZeros_le (by decide) hn) hrest]

theorem takeMark_cons : takeMark c (c :: cs) = some cs := if_pos rfl

/-- A year without a sign is read off at most four digits. -/
theorem takeYear_digits (hne : ds ≠ []) (hds : ∀ c ∈ ds, c.isDigit = true) :
    takeYear (ds ++ rest) = (takeNumber 4 (ds ++ rest)).map fun (n, after) => ((n : Int), after) := by
  rw [takeYear, trimLeft_digits hne hds]
  obtain ⟨c, ds, rfl⟩ := List.exists_cons_of_ne_nil hne
  have hc := hds c List.mem_cons_self
  split
  · rename_i heq
    obtain ⟨rfl, _⟩ := List.cons.inj heq
    exact absurd hc (by decide)
  · rename_i heq
    obtain ⟨rfl, _⟩ := List.cons.inj heq
    exact absurd hc (by decide)
  · rfl

theorem takeYear_yearText {year : Int} (hrest : ∀ c ∈ rest.head?, c.isDigit = false) :
    takeYear ((yearText year).toList ++ rest) = some (year, rest) := by
  -- behind a sign, any number of digits is read
  have hsigned : ∀ n : Nat, takeNumber ((padZeros 4 n).toList ++ rest).length ((padZeros 4 n).toList ++ rest) =
      some (n, rest) := fun n => takeNumber_padZeros (by simp) hrest
  by_cases hplain : 0 ≤ year ∧ year ≤ 9999
  · have hlength : (padZeros 4 year.toNat).toList.length ≤ 4 := length_padZeros_le (by decide) (by omega)
    have hyear : (year.toNat : Int) = year := Int.toNat_of_nonneg hplain.1
    rw [yearText, if_pos (by simpa using hplain), takeYear_digits padZeros_ne_nil isDigit_of_mem_padZeros,
      takeNumber_padZeros hlength hrest]
    simp only [Option.map_some, hyear]
  · rw [yearText, if_neg (by simpa using hplain), String.toList_append]
    by_cases hnegative : year < 0
    · have hyear : -(year.natAbs : Int) = year := by omega
      rw [if_pos hnegative]
      change takeYear ('-' :: ((padZeros 4 year.natAbs).toList ++ rest)) = _
      rw [takeYear, trimLeft_cons (by decide)]
      simp only [hsigned, Option.map_some, hyear]
    · have hyear : (year.natAbs : Int) = year := by omega
      rw [if_neg hnegative]
      change takeYear ('+' :: ((padZeros 4 year.natAbs).toList ++ rest)) = _
      rw [takeYear, trimLeft_cons (by decide)]
      simp only [hsigned, Option.map_some, hyear]

/-! ## Dates -/

theorem head?_mark (hc : c.isDigit = false) : ∀ d ∈ (c :: rest).head?, d.isDigit = false := by
  simpa using hc

theorem daysInMonth_le (year : Int) (month : Nat) : daysInMonth year month ≤ 31 := by
  unfold daysInMonth
  split_ifs <;> decide

theorem isBlank_of_mem_padZeros : ∀ c ∈ (padZeros width n).toList, isBlank c = false := fun c hc =>
  isBlank_of_isDigit (isDigit_of_mem_padZeros c hc)

theorem isBlank_of_mem_yearText {year : Int} : ∀ c ∈ (yearText year).toList, isBlank c = false := by
  rw [yearText]
  split_ifs
  · exact isBlank_of_mem_padZeros
  · rw [String.toList_append]
    exact List.forall_mem_cons.2 ⟨by decide, isBlank_of_mem_padZeros⟩
  · rw [String.toList_append]
    exact List.forall_mem_cons.2 ⟨by decide, isBlank_of_mem_padZeros⟩

/-- Neither do two fields with a mark in front of each bring white space in. -/
theorem isBlank_of_mem_marked {first : List Char} {mark : Char} {m n : Nat}
    (hfirst : ∀ c ∈ first, isBlank c = false) (hmark : isBlank mark = false) :
    ∀ c ∈ first ++ mark :: ((padZeros 2 m).toList ++ mark :: ((padZeros 2 n).toList ++ [])), isBlank c = false := by
  intro c hc
  simp only [List.append_nil, List.mem_append, List.mem_cons] at hc
  rcases hc with hc | rfl | hc | rfl | hc
  · exact hfirst c hc
  · exact hmark
  · exact isBlank_of_mem_padZeros c hc
  · exact hmark
  · exact isBlank_of_mem_padZeros c hc

namespace Date

variable {d : Date}

theorem toList_text (d : Date) : d.text.toList = (yearText d.year).toList ++
    '-' :: ((padZeros 2 d.month).toList ++ '-' :: ((padZeros 2 d.day).toList ++ [])) := by
  simp [text]

theorem read_text (h : d.isValid = true) : Date.read d.text.toList = some d := by
  have hvalid := h
  simp only [isValid, Bool.and_eq_true, decide_eq_true_eq] at h
  have hday : d.day ≤ 31 := h.2.trans (daysInMonth_le d.year d.month)
  have hmark : '-'.isDigit = false := by decide
  have hlast : takeField ((padZeros 2 d.day).toList ++ []) = some (d.day, []) :=
    takeField_padZeros (by omega) (by simp)
  rw [Date.read, toList_text, takeYear_yearText (head?_mark hmark)]
  simp only [Option.bind_eq_bind, Option.bind_some, takeMark_cons,
    takeField_padZeros (n := d.month) (by omega) (head?_mark hmark), hlast]
  simp [hvalid]

theorem isValid_of_read (h : Date.read cs = some d) : d.isValid = true := by
  simp only [Date.read, Option.bind_eq_bind, Option.bind_eq_some_iff] at h
  obtain ⟨_, _, _, _, _, _, _, _, _, _, h⟩ := h
  split at h
  · rename_i hvalid
    cases h
    exact (Bool.and_eq_true_iff.1 hvalid).2
  · cases h

theorem isBlank_of_mem_text : ∀ c ∈ d.text.toList, isBlank c = false := by
  rw [toList_text]
  exact isBlank_of_mem_marked isBlank_of_mem_yearText (by decide)

end Date

/-! ## Times -/

namespace Clock

variable {clock : Clock}

theorem toList_text (clock : Clock) : clock.text.toList = (padZeros 2 clock.hour).toList ++
    ':' :: ((padZeros 2 clock.minute).toList ++ ':' :: ((padZeros 2 clock.second).toList ++ [])) := by
  simp [text]

theorem read_text (h : clock.isValid = true) : Clock.read clock.text.toList = some clock := by
  have hvalid := h
  simp only [isValid, Bool.and_eq_true, decide_eq_true_eq] at h
  have hmark : ':'.isDigit = false := by decide
  have hlast : takeField ((padZeros 2 clock.second).toList ++ []) = some (clock.second, []) :=
    takeField_padZeros (by omega) (by simp)
  rw [Clock.read, toList_text, takeField_padZeros (by omega) (head?_mark hmark)]
  simp only [Option.bind_eq_bind, Option.bind_some, takeMark_cons,
    takeField_padZeros (n := clock.minute) (by omega) (head?_mark hmark), hlast]
  simp [hvalid]

theorem isValid_of_read (h : Clock.read cs = some clock) : clock.isValid = true := by
  simp only [Clock.read, Option.bind_eq_bind, Option.bind_eq_some_iff] at h
  obtain ⟨_, _, _, _, _, _, _, _, _, _, h⟩ := h
  split at h
  · rename_i hvalid
    cases h
    exact (Bool.and_eq_true_iff.1 hvalid).2
  · cases h

theorem isBlank_of_mem_text : ∀ c ∈ clock.text.toList, isBlank c = false := by
  rw [toList_text]
  exact isBlank_of_mem_marked isBlank_of_mem_padZeros (by decide)

end Clock

end Calendar

end Interchange
