import Mathlib.Data.List.Forall2
import Interchange.Text.Blank

/-!
# Names up to case and white space

Two names agree when, without the white space around them, they differ at most in the case of letters of
ASCII. It does not matter to which case they are brought.
-/

namespace Interchange.Text

/-- Names that are the same up to case and the white space around them. -/
def Agree (a b : String) : Prop :=
  List.Forall₂ (fun c d => c.toLower = d.toLower) (trimChars a.toList) (trimChars b.toList)

theorem toNat_toUpper (c : Char) :
    c.toUpper.toNat = if 97 ≤ c.toNat ∧ c.toNat ≤ 122 then c.toNat - 32 else c.toNat := by
  have hletter : ('a'.val ≤ c.val ∧ c.val ≤ 'z'.val) ↔ 97 ≤ c.toNat ∧ c.toNat ≤ 122 := Iff.rfl
  unfold Char.toUpper
  by_cases h : 97 ≤ c.toNat ∧ c.toNat ≤ 122
  · rw [dif_pos (hletter.2 h), if_pos h]
    show (c.val + ('A'.val - 'a'.val)).toNat = c.val.toNat - 32
    have hval : c.val.toNat = c.toNat := rfl
    have hshift : ('A'.val - 'a'.val).toNat = 4294967264 := by decide
    rw [UInt32.toNat_add]
    omega
  · rw [dif_neg (mt hletter.1 h), if_neg h]

theorem toNat_toLower (c : Char) :
    c.toLower.toNat = if 65 ≤ c.toNat ∧ c.toNat ≤ 90 then c.toNat + 32 else c.toNat := by
  have hletter : (c.val ≥ 'A'.val ∧ c.val ≤ 'Z'.val) ↔ 65 ≤ c.toNat ∧ c.toNat ≤ 90 := Iff.rfl
  unfold Char.toLower
  by_cases h : 65 ≤ c.toNat ∧ c.toNat ≤ 90
  · rw [dif_pos (hletter.2 h), if_pos h]
    show (c.val + ('a'.val - 'A'.val)).toNat = c.val.toNat + 32
    have hval : c.val.toNat = c.toNat := rfl
    have hshift : ('a'.val - 'A'.val).toNat = 32 := by decide
    rw [UInt32.toNat_add]
    omega
  · rw [dif_neg (mt hletter.1 h), if_neg h]

theorem toUpper_eq_iff {c d : Char} : c.toUpper = d.toUpper ↔ c.toLower = d.toLower := by
  rw [← Char.toNat_inj, ← Char.toNat_inj, toNat_toUpper, toNat_toUpper, toNat_toLower, toNat_toLower]
  split <;> split <;> split <;> split <;> omega

theorem asciiUpper_trim_eq_iff {a b : String} :
    asciiUpper (trim a) = asciiUpper (trim b) ↔ Agree a b := by
  simp only [asciiUpper, trim, String.toList_ofList, String.ofList_inj, Agree]
  rw [← List.forall₂_eq_eq_eq, List.forall₂_map_left_iff, List.forall₂_map_right_iff]
  simp only [toUpper_eq_iff]

theorem asciiLower_trim_eq_iff {a b : String} :
    asciiLower (trim a) = asciiLower (trim b) ↔ Agree a b := by
  simp only [asciiLower, trim, String.toList_ofList, String.ofList_inj, Agree]
  rw [← List.forall₂_eq_eq_eq, List.forall₂_map_left_iff, List.forall₂_map_right_iff]

theorem isBlank_toLower (c : Char) : isBlank c.toLower = isBlank c := by
  have hcode := toNat_toLower c
  rw [Bool.eq_iff_iff]
  simp only [isBlank, Bool.or_eq_true, Bool.and_eq_true, beq_iff_eq, decide_eq_true_eq]
  split at hcode <;> omega

end Interchange.Text

namespace Interchange

/-! ## Tables by name -/

/-- In a table where an entry takes the place of the one that has its key, a key finds that entry or what it found
before. -/
theorem find?_replace {α : Type} (entries : List (String × α)) (entry : String × α) (key : String) :
    (entries.filter (·.1 != entry.1) ++ [entry]).find? (·.1 == key) =
      if entry.1 = key then some entry else entries.find? (·.1 == key) := by
  rw [List.find?_append, List.find?_filter]
  by_cases h : entry.1 = key
  · have hnone : entries.find? (fun e => decide ((e.1 != entry.1) = true ∧ (e.1 == key) = true)) = none := by
      simp [List.find?_eq_none, h]
    rw [hnone, if_pos h, Option.none_or, List.find?_cons_of_pos (by simpa using h)]
  · -- what is taken out of the table has another key
    have hkey : (fun e : String × α => decide ((e.1 != entry.1) = true ∧ (e.1 == key) = true)) = (·.1 == key) := by
      funext e
      rw [Bool.eq_iff_iff, decide_eq_true_iff, bne_iff_ne, beq_iff_eq]
      exact and_iff_right_of_imp fun he hown => h (hown.symm.trans he)
    rw [hkey, if_neg h, List.find?_cons_of_neg (by simpa using h), List.find?_nil, Option.or_none]

end Interchange
