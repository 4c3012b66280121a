import Mathlib.Data.List.Basic
import Interchange.Proofs.Canonical

/-!
# Texts by their words

Folding white space keeps the words of a text and whether white space stands at its ends, and nothing else
(`Text.collapse_by_words`).
-/

namespace Interchange.Text

variable {c d : Char} {cs w : List Char} {b : Bool}

/-! ## Words -/

/-- The words of a text: the pieces between its white space. -/
def wordsOf (cs : List Char) : List (List Char) := (cs.splitOnP isBlank).filter (!·.isEmpty)

/-- Whether the first character is white space. -/
def startsBlank (cs : List Char) : Bool := cs.head?.any isBlank

/-- Whether the last character is white space. -/
def endsBlank (cs : List Char) : Bool := cs.getLast?.any isBlank

/-- The induction on a text that tells where its words begin, go on and end. -/
theorem word_induction {motive : List Char → Prop} (nil : motive [])
    (blank : ∀ c cs, isBlank c = true → motive cs → motive (c :: cs))
    (single : ∀ c, isBlank c = false → motive [c])
    (last : ∀ c d cs, isBlank c = false → isBlank d = true → motive (d :: cs) → motive (c :: d :: cs))
    (inner : ∀ c d cs, isBlank c = false → isBlank d = false → motive (d :: cs) → motive (c :: d :: cs))
    (cs : List Char) : motive cs := by
  induction cs with
  | nil => exact nil
  | cons c cs ih =>
      cases hc : isBlank c with
      | true => exact blank c cs hc ih
      | false =>
          cases cs with
          | nil => exact single c hc
          | cons d cs =>
              cases hd : isBlank d with
              | true => exact last c d cs hc hd ih
              | false => exact inner c d cs hc hd ih

@[simp] theorem wordsOf_nil : wordsOf [] = [] := rfl

theorem wordsOf_blank (hc : isBlank c = true) : wordsOf (c :: cs) = wordsOf cs := by
  rw [wordsOf, List.splitOnP_cons_eq_if_modifyHead, if_pos hc]
  rfl

theorem wordsOf_single (hc : isBlank c = false) : wordsOf [c] = [[c]] := by
  simp [wordsOf, List.splitOnP_cons_eq_if_modifyHead, hc]

theorem wordsOf_last (hc : isBlank c = false) (hd : isBlank d = true) :
    wordsOf (c :: d :: cs) = [c] :: wordsOf (d :: cs) := by
  rw [wordsOf_blank hd]
  simp [wordsOf, List.splitOnP_cons_eq_if_modifyHead, hc, hd]

theorem wordsOf_inner (cs : List Char) (hc : isBlank c = false) (hd : isBlank d = false) :
    ∃ word words, wordsOf (d :: cs) = word :: words ∧ wordsOf (c :: d :: cs) = (c :: word) :: words := by
  obtain ⟨piece, pieces, hpieces⟩ := List.exists_cons_of_ne_nil (List.splitOnP_ne_nil isBlank cs)
  simp [wordsOf, List.splitOnP_cons_eq_if_modifyHead, hc, hd, hpieces]

theorem of_mem_wordsOf (hw : w ∈ wordsOf cs) : w ≠ [] ∧ ∀ c ∈ w, isBlank c = false := by
  induction cs using word_induction generalizing w with
  | nil => cases hw
  | blank c cs hc ih => exact ih (wordsOf_blank hc ▸ hw)
  | single c hc =>
      rw [wordsOf_single hc, List.mem_singleton] at hw
      simp [hw, hc]
  | last c d cs hc hd ih =>
      rw [wordsOf_last hc hd, List.mem_cons] at hw
      rcases hw with rfl | hw
      · simp [hc]
      · exact ih hw
  | inner c d cs hc hd ih =>
      obtain ⟨word, words, hold, hnew⟩ := wordsOf_inner cs hc hd
      rw [hnew, List.mem_cons] at hw
      rcases hw with rfl | hw
      · exact ⟨List.cons_ne_nil _ _, List.forall_mem_cons.2 ⟨hc, (ih (hold ▸ List.mem_cons_self)).2⟩⟩
      · exact ih (hold ▸ List.mem_cons_of_mem _ hw)

theorem endsBlank_of_wordsOf_nil (h : wordsOf cs = []) : endsBlank cs = startsBlank cs := by
  have hblank : ∀ c ∈ cs, isBlank c = true := by
    induction cs using word_induction with
    | nil => simp
    | blank c cs hc ih => exact List.forall_mem_cons.2 ⟨hc, ih (wordsOf_blank hc ▸ h)⟩
    | single c hc => simp [wordsOf_single hc] at h
    | last c d cs hc hd ih => simp [wordsOf_last hc hd] at h
    | inner c d cs hc hd ih =>
        obtain ⟨word, words, -, hnew⟩ := wordsOf_inner cs hc hd
        simp [hnew] at h
  cases cs with
  | nil => rfl
  | cons c cs =>
      rw [startsBlank, endsBlank, List.head?_cons, List.getLast?_eq_some_getLast (List.cons_ne_nil c cs),
        Option.any_some, Option.any_some, hblank _ (List.getLast_mem _), hblank c List.mem_cons_self]

/-! ## Folding white space -/

/-- A space or nothing. -/
def spaceIf (b : Bool) : List Char := if b then [' '] else []

theorem collapseFrom_letter (hc : isBlank c = false) : collapseFrom b (c :: cs) = c :: collapseFrom false cs := by
  rw [collapseFrom, hc, if_neg Bool.false_ne_true]

theorem collapseFrom_blank (hc : isBlank c = true) :
    collapseFrom b (c :: cs) = spaceIf (!b) ++ collapseFrom true cs := by
  rw [collapseFrom, if_pos hc]
  cases b <;> rfl

theorem startsBlank_cons : startsBlank (c :: cs) = isBlank c := rfl

theorem endsBlank_cons (h : cs ≠ []) : endsBlank (c :: cs) = endsBlank cs := by
  rw [endsBlank, endsBlank, List.getLast?_cons_of_ne_nil h]

theorem startsBlank_collapseFrom (cs : List Char) : startsBlank (collapseFrom false cs) = startsBlank cs := by
  cases cs with
  | nil => rfl
  | cons c cs =>
      cases hc : isBlank c with
      | true =>
          have hspace : isBlank ' ' = true := by decide
          rw [collapseFrom_blank hc, startsBlank_cons, hc]
          exact hspace
      | false => rw [collapseFrom_letter hc, startsBlank_cons, startsBlank_cons]

theorem wordsOf_collapseFrom (cs : List Char) : wordsOf (collapseFrom b cs) = wordsOf cs := by
  have hspace : isBlank ' ' = true := by decide
  induction cs using word_induction generalizing b with
  | nil => rfl
  | blank c cs hc ih =>
      rw [collapseFrom_blank hc, wordsOf_blank hc]
      cases b with
      | true => exact ih
      | false => exact (wordsOf_blank hspace).trans ih
  | single c hc => rw [collapseFrom_letter hc, collapseFrom]
  | last c d cs hc hd ih =>
      have hrest : collapseFrom false (d :: cs) = ' ' :: collapseFrom true cs := collapseFrom_blank hd
      rw [collapseFrom_letter hc, wordsOf_last hc hd, ← ih (b := false), hrest, wordsOf_last hc hspace]
  | inner c d cs hc hd ih =>
      have hrest : collapseFrom false (d :: cs) = d :: collapseFrom false cs := collapseFrom_letter hd
      obtain ⟨word, words, hold, hnew⟩ := wordsOf_inner cs hc hd
      obtain ⟨word', words', hold', hnew'⟩ := wordsOf_inner (collapseFrom false cs) hc hd
      have hsame : word' :: words' = word :: words := by rw [← hold', ← hrest, ih, hold]
      obtain ⟨rfl, rfl⟩ := List.cons.inj hsame
      rw [collapseFrom_letter hc, hrest, hnew, hnew']

theorem intercalate_cons_head {sep word : List Char} {words : List (List Char)} :
    sep.intercalate ((c :: word) :: words) = c :: sep.intercalate (word :: words) := by
  cases words with
  | nil => simp only [List.intercalate_singleton]
  | cons other words => simp only [List.intercalate_cons_cons, List.cons_append]

/-- A folded text is its words with one space between them, and one space at an end where there was white space. -/
theorem collapseFrom_eq : collapseFrom b cs = spaceIf (startsBlank cs && !b) ++ [' '].intercalate (wordsOf cs) ++
    spaceIf (endsBlank cs && !(wordsOf cs).isEmpty) := by
  induction cs using word_induction generalizing b with
  | nil => rfl
  | blank c cs hc ih =>
      have hend : (endsBlank (c :: cs) && !(wordsOf cs).isEmpty) = (endsBlank cs && !(wordsOf cs).isEmpty) := by
        cases cs with
        | nil => simp
        | cons d cs => rw [endsBlank_cons (List.cons_ne_nil d cs)]
      rw [collapseFrom_blank hc, ih, wordsOf_blank hc, startsBlank_cons, hc, hend]
      simp [spaceIf]
  | single c hc =>
      have hend : endsBlank [c] = false := hc
      simp [collapseFrom, wordsOf_single hc, startsBlank_cons, hc, hend, spaceIf]
  | last c d cs hc hd ih =>
      rw [collapseFrom_letter hc, ih, wordsOf_last hc hd, startsBlank_cons, startsBlank_cons, hc, hd,
        endsBlank_cons (List.cons_ne_nil d cs)]
      cases hwords : wordsOf (d :: cs) with
      | nil =>
          -- behind the last word, all the white space is one space
          have hend : endsBlank (d :: cs) = true := (endsBlank_of_wordsOf_nil hwords).trans hd
          simp [hend, spaceIf]
      | cons word words => simp [List.intercalate_cons_cons, spaceIf]
  | inner c d cs hc hd ih =>
      obtain ⟨word, words, hold, hnew⟩ := wordsOf_inner cs hc hd
      rw [collapseFrom_letter hc, ih, hold, hnew, intercalate_cons_head, startsBlank_cons, startsBlank_cons, hc, hd,
        endsBlank_cons (List.cons_ne_nil d cs)]
      simp [spaceIf]

/-- Folding tells texts apart by their words and by the white space at their ends, and by nothing else. -/
theorem collapseChars_eq_iff {xs ys : List Char} : collapseChars xs = collapseChars ys ↔
    wordsOf xs = wordsOf ys ∧ startsBlank xs = startsBlank ys ∧ endsBlank xs = endsBlank ys := by
  constructor
  · intro h
    have hwords : wordsOf xs = wordsOf ys := by
      rw [← wordsOf_collapseFrom (b := false) xs, ← wordsOf_collapseFrom (b := false) ys]
      exact congrArg wordsOf h
    have hstart : startsBlank xs = startsBlank ys := by
      rw [← startsBlank_collapseFrom xs, ← startsBlank_collapseFrom ys]
      exact congrArg startsBlank h
    refine ⟨hwords, hstart, ?_⟩
    by_cases hnone : wordsOf ys = []
    · rw [endsBlank_of_wordsOf_nil hnone, endsBlank_of_wordsOf_nil (hwords.trans hnone), hstart]
    · rw [collapseChars, collapseChars, collapseFrom_eq, collapseFrom_eq, hwords, hstart, List.append_right_inj] at h
      cases hx : endsBlank xs <;> cases hy : endsBlank ys <;> simp_all [spaceIf]
  · rintro ⟨hwords, hstart, hend⟩
    rw [collapseChars, collapseChars, collapseFrom_eq, collapseFrom_eq, hwords, hstart, hend]

/-- Two texts are the same with white space folded just if they have the same words, and both or neither begin with
white space, and both or neither end with it. A folded text is the words with one space between them and one at each
end where there was white space, and words hold none; a text without words becomes one space if it holds anything.
Folding once more changes nothing. -/
theorem collapse_by_words (x y : String) :
    (collapse x = collapse y ↔ wordsOf x.toList = wordsOf y.toList ∧
      startsBlank x.toList = startsBlank y.toList ∧ endsBlank x.toList = endsBlank y.toList) ∧
    (collapse x).toList = spaceIf (startsBlank x.toList) ++ [' '].intercalate (wordsOf x.toList) ++
      spaceIf (endsBlank x.toList && !(wordsOf x.toList).isEmpty) ∧
    (∀ word ∈ wordsOf x.toList, word ≠ [] ∧ ∀ c ∈ word, isBlank c = false) ∧
    collapse (collapse x) = collapse x := by
  refine ⟨?_, ?_, fun word => of_mem_wordsOf, ?_⟩
  · rw [collapse, collapse, String.ofList_inj, collapseChars_eq_iff]
  · rw [collapse, String.toList_ofList, collapseChars, collapseFrom_eq, Bool.not_false, Bool.and_true]
  · simp only [collapse, String.toList_ofList, Xml.collapseChars_collapseChars]

/-- Two texts of the same two words behind white space. -/
theorem collapse_by_words_tabs : wordsOf "\t\n one  two".toList = wordsOf " one\ttwo".toList ∧
    "one".toList ∈ wordsOf "\t\n one  two".toList ∧ (∀ c ∈ "one".toList, isBlank c = false) ∧
    collapse "\t\n one  two" = collapse " one\ttwo" ∧ collapse " one\ttwo" = " one two" := by
  have hwords : wordsOf "\t\n one  two".toList = wordsOf " one\ttwo".toList := by decide
  have hone : "one".toList ∈ wordsOf "\t\n one  two".toList := by decide
  obtain ⟨hiff, -, hletters, -⟩ := collapse_by_words "\t\n one  two" " one\ttwo"
  exact ⟨hwords, hone, (hletters _ hone).2, hiff.2 ⟨hwords, by decide, by decide⟩, by decide⟩

end Interchange.Text
