import Interchange.Proofs.Calendar
import Interchange.Proofs.LeadingZeros

/-!
# Transforms that are applied twice

Dates, times, whole numbers, statuses and trimmed texts are already in the form into which their transforms bring
them: applying such a transform to what it gave changes nothing (`TransformTable.apply_apply`).
-/

namespace Interchange

open Text (Agree trimChars isBlankText)
open Calendar (Date Clock)
open Interchange.Path (Trimmed)

namespace Transform

variable {v : String} {p m : Char} {pattern cs : List Char} {i : Nat}

/-! ## Results that stay -/

/-- What a transform gives is given again for this result. -/
def Settles (f : Transform) : Prop := ∀ v r, f v = .ok r → f r = .ok r

theorem settles_trim : Settles fun v => .ok (Text.trim v) := by
  rintro v _ ⟨⟩
  simp only [Text.trim, String.toList_ofList, Path.trimChars_trimChars]

theorem settles_date : date.Settles := by
  intro v r h
  unfold date at h
  split at h
  · rename_i d hread
    obtain rfl := Except.ok.inj h
    have htrim : trimChars d.text.toList = d.text.toList := (Trimmed.of_forall Date.isBlank_of_mem_text).trimChars
    rw [date, htrim, Date.read_text (Date.isValid_of_read hread)]
  · cases h

theorem settles_time : time.Settles := by
  intro v r h
  unfold time at h
  split at h
  · rename_i clock hread
    obtain rfl := Except.ok.inj h
    have htrim : trimChars clock.text.toList = clock.text.toList :=
      (Trimmed.of_forall Clock.isBlank_of_mem_text).trimChars
    rw [time, htrim, Clock.read_text (Clock.isValid_of_read hread)]
  · cases h

theorem readInteger_toString (n : Int) : Decimal.readInteger (toString n).toList = some n := by
  have hdigits : ∀ c ∈ Nat.toDigits 10 n.natAbs, c.isDigit = true := Path.isDigit_of_mem_toDigits
  rw [toList_toString]
  split
  · rw [Decimal.readInteger_minus Nat.toDigits_ne_nil hdigits, Decimal.ofDigits_toDigits]
    exact congrArg some (by omega)
  · rw [Decimal.readInteger_digits Nat.toDigits_ne_nil hdigits, Decimal.ofDigits_toDigits]
    exact congrArg some (by omega)

theorem settles_integer : integer.Settles := by
  intro v r h
  unfold integer at h
  split at h
  · rename_i n hread
    split at h
    · rename_i hn
      obtain rfl := Except.ok.inj h
      rw [integer, trimChars_toString, readInteger_toString]
      exact if_pos hn
    · cases h
  · cases h

theorem settles_status : status.Settles := by
  intro v r h
  have hkept := h
  unfold status at h
  split at h
  all_goals cases h
  · decide
  · decide
  · decide
  · decide
  · exact hkept

/-! ## Shapes -/

/-- A text of a shape has a character at each place of the pattern: the one that stands there, or a digit. -/
theorem getElem?_of_hasShape (h : hasShape pattern cs = true) (hp : pattern[i]? = some p) :
    ∃ c : Char, cs[i]? = some c ∧ if p = 'd' then c.isDigit = true else c = p := by
  rw [hasShape, Bool.and_eq_true, beq_iff_eq, List.all_eq_true] at h
  obtain ⟨hlength, hall⟩ := h
  have hi : i < cs.length := hlength ▸ (List.getElem?_eq_some_iff.1 hp).1
  refine ⟨cs[i], List.getElem?_eq_getElem hi, ?_⟩
  have hmem : (p, cs[i]) ∈ pattern.zip cs :=
    List.mem_of_getElem? (List.getElem?_zip_eq_some.2 ⟨hp, List.getElem?_eq_getElem hi⟩)
  have hplace : (if p = 'd' then cs[i].isDigit else p == cs[i]) = true := hall _ hmem
  by_cases hd : p = 'd'
  · simpa only [if_pos hd] using hplace
  · rw [if_neg hd] at hplace ⊢
    exact (beq_iff_eq.1 hplace).symm

/-- Month, day and year with a mark between them. -/
def IsMonthFirst (cs : List Char) : Prop :=
  hasShape "dd/dd/dddd".toList cs = true ∨ hasShape "dd-dd-dddd".toList cs = true

theorem getElem?_of_marked (h : hasShape pattern cs = true)
    (hpattern : pattern = ['d', 'd', m, 'd', 'd', m, 'd', 'd', 'd', 'd']) (hmark : m ≠ 'd') :
    cs[2]? = some m ∧ ∃ c : Char, cs[8]? = some c ∧ c.isDigit = true := by
  subst hpattern
  obtain ⟨c, hc, heq⟩ := getElem?_of_hasShape (i := 2) (p := m) h rfl
  rw [if_neg hmark] at heq
  exact ⟨heq ▸ hc, getElem?_of_hasShape (i := 8) (p := 'd') h rfl⟩

theorem getElem?_of_isMonthFirst (h : IsMonthFirst cs) :
    (∃ c : Char, cs[2]? = some c ∧ c.isDigit = false) ∧ ∃ c : Char, cs[8]? = some c ∧ c.isDigit = true := by
  rcases h with h | h
  · obtain ⟨hmark, hdigit⟩ := getElem?_of_marked (m := '/') h (by decide) (by decide)
    exact ⟨⟨'/', hmark, by decide⟩, hdigit⟩
  · obtain ⟨hmark, hdigit⟩ := getElem?_of_marked (m := '-') h (by decide) (by decide)
    exact ⟨⟨'-', hmark, by decide⟩, hdigit⟩

theorem reorderDate_of_isMonthFirst (h : IsMonthFirst v.toList) : reorderDate v =
    .ok (String.ofList (v.toList.drop 6 ++ '-' :: v.toList.take 2 ++ '-' :: (v.toList.drop 3).take 2)) :=
  if_pos (Bool.or_eq_true_iff.2 h)

theorem reorderDate_of_not_isMonthFirst (h : ¬IsMonthFirst v.toList) : reorderDate v = .ok v :=
  if_neg fun hshape => h (Bool.or_eq_true_iff.1 hshape)

/-- A date with the year in front has a digit of the year where others have their first mark. -/
theorem settles_reorderDate : reorderDate.Settles := by
  intro v r h
  by_cases hshape : IsMonthFirst v.toList
  · rw [reorderDate_of_isMonthFirst hshape] at h
    obtain rfl := Except.ok.inj h
    refine reorderDate_of_not_isMonthFirst fun hagain => ?_
    obtain ⟨-, c, hc, hdigit⟩ := getElem?_of_isMonthFirst hshape
    obtain ⟨⟨mark, hmark, hnodigit⟩, -⟩ := getElem?_of_isMonthFirst hagain
    have hlength : 8 < v.toList.length := (List.getElem?_eq_some_iff.1 hc).1
    rw [String.toList_ofList, List.append_assoc, List.getElem?_append_left (by rw [List.length_drop]; omega),
      List.getElem?_drop, hc, Option.some.injEq] at hmark
    exact absurd (hmark ▸ hdigit) (by simp [hnodigit])
  · have hkept := reorderDate_of_not_isMonthFirst hshape
    obtain rfl := Except.ok.inj (hkept.symm.trans h)
    exact hkept

end Transform

/-! ## Applying twice -/

namespace TransformTable

variable {t : TransformTable} {name key : String} {f : Transform}

theorem apply_of_blank {v : String} (hblank : isBlankText v = true) : t.apply name v = v := by
  rw [apply, hblank, if_pos rfl]

/-- A text that a transform gives for itself stays. -/
theorem apply_of_settled (hfind : t.find name = some f) {r : String} (hr : f r = .ok r) : t.apply name r = r := by
  cases hblank : isBlankText r with
  | true => exact apply_of_blank hblank
  | false => rw [apply_of_find hfind hblank, hr]

theorem apply_apply_of_find (hfind : t.find name = some f) (hf : f.Settles) (v : String) :
    t.apply name (t.apply name v) = t.apply name v := by
  cases hblank : isBlankText v with
  | true =>
      have hsame : t.apply name v = v := apply_of_blank hblank
      rw [hsame, hsame]
  | false =>
      have happly := apply_of_find hfind hblank
      cases hresult : f v with
      | ok r =>
          rw [hresult] at happly
          rw [happly]
          exact apply_of_settled hfind (hf v r hresult)
      | error e =>
          rw [hresult] at happly
          rw [happly, happly]

/-- The names of the transforms that settle what they give. -/
def settlingNames : List String := ["trim", "date_format", "format_date", "time_format", "format_time",
  "remove_leading_zeros", "parse_integer", "status_code", "map_status", "date"]

theorem exists_find_settles (hkey : key ∈ settlingNames) : ∃ f, standard.find key = some f ∧ f.Settles := by
  suffices h : ∃ f, NamedTransform.mk key f ∈ builtIns ∧ f.Settles by
    obtain ⟨f, hentry, hf⟩ := h
    exact ⟨f, find_builtIn hentry, hf⟩
  simp only [settlingNames, List.mem_cons, List.not_mem_nil, or_false] at hkey
  rcases hkey with rfl | rfl | rfl | rfl | rfl | rfl | rfl | rfl | rfl | rfl
  · exact ⟨_, by simp [builtIns], Transform.settles_trim⟩
  · exact ⟨_, by simp [builtIns], Transform.settles_date⟩
  · exact ⟨_, by simp [builtIns], Transform.settles_date⟩
  · exact ⟨_, by simp [builtIns], Transform.settles_time⟩
  · exact ⟨_, by simp [builtIns], Transform.settles_time⟩
  · exact ⟨_, by simp [builtIns], Transform.settles_integer⟩
  · exact ⟨_, by simp [builtIns], Transform.settles_integer⟩
  · exact ⟨_, by simp [builtIns], Transform.settles_status⟩
  · exact ⟨_, by simp [builtIns], Transform.settles_status⟩
  · exact ⟨_, by simp [builtIns], Transform.settles_reorderDate⟩

/-- The transforms that trim, write dates, times and whole numbers in full, name a status or put a date into order
change nothing when they are applied, under any spelling of their names, to what they gave before: to their result,
or to a value that they left alone because it is blank or because they refused it. They always give one or the
other. -/
theorem apply_apply (hkey : key ∈ settlingNames) (hname : Agree name key) (v : String) :
    standard.apply name (standard.apply name v) = standard.apply name v ∧
    (isBlankText v = true ∧ standard.apply name v = v ∨
      ∃ answer, standard.tryApply name v = some answer ∧
        match answer with
        | .ok r => standard.apply name v = r
        | .error _ => standard.apply name v = v) := by
  obtain ⟨f, hfind, hf⟩ := exists_find_settles hkey
  rw [← find_congr hname] at hfind
  refine ⟨apply_apply_of_find hfind hf v, ?_⟩
  cases hblank : isBlankText v with
  | true => exact Or.inl ⟨rfl, apply_of_blank hblank⟩
  | false =>
      have happly := apply_of_find hfind hblank
      refine Or.inr ⟨f v, by rw [tryApply, hfind, Option.map_some], ?_⟩
      cases hresult : f v <;> simpa only [hresult] using happly

/-- A year of five digits, and a leap second. -/
theorem apply_apply_fiveDigits : "date_format" ∈ settlingNames ∧ Agree " Date_Format" "date_format" ∧
    standard.apply " Date_Format" " +12345-6-7" = "+12345-06-07" ∧
    standard.apply " Date_Format" "+12345-06-07" = "+12345-06-07" ∧
    standard.apply "format_time" "23:59:60" = "23:59:60" ∧
    standard.apply "format_time" (standard.apply "format_time" "7:5:60 ") = "07:05:60" := by
  have hdate : "date_format" ∈ settlingNames := by decide
  have htime : "format_time" ∈ settlingNames := by decide
  have hname : Agree " Date_Format" "date_format" ∧ Agree "format_time" "format_time" := by
    unfold Agree
    decide
  have hresult : standard.apply " Date_Format" " +12345-6-7" = "+12345-06-07" := by decide
  have hagain := (apply_apply hdate hname.1 " +12345-6-7").1
  rw [hresult] at hagain
  have htwice := (apply_apply htime hname.2 "7:5:60 ").1
  exact ⟨hdate, hname.1, hresult, hagain, by decide, htwice.trans (by decide)⟩

end TransformTable

end Interchange
