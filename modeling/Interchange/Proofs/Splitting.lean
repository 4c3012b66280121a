import Mathlib.Data.List.DropRight
import Mathlib.Data.List.TakeWhile
import Interchange.Path.Reading
import Interchange.Proofs.Traversal

/-!
# The last step of a path

A path is cut in two at its last separator. What can be read stays readable: the last step is a path of that
step alone, and what stands in front is the path of the other steps, unless the separator is the second of
two. Then the part in front ends in a slash, and is no path (`Path.parse_splitLast`).
-/

namespace Interchange.Path

open Text (isBlank trimChars trimLeft trimRight dropTail)

variable {n : Nesting} {c : Char} {cs blanks : List Char} {segs front : List (List Char)}
  {segment : List Char}

/-! ## Separators -/

theorem Nesting.eq_start (h : n.isOutside = true) : n = .start := by
  obtain ⟨depth, quote⟩ := n
  simp only [Nesting.isOutside, Bool.and_eq_true, beq_iff_eq, Option.isNone_iff_eq_none] at h
  rw [h.1, h.2]
  rfl

theorem Nesting.after_slash : Nesting.start.after '/' = .start := rfl

theorem segmentsFrom_slash : segmentsFrom .start ('/' :: cs) = (segmentsFrom .start cs).map ([] :: ·) :=
  rfl

/-- Any character but a separator goes into the first segment, unless it closes a bracket that is not open. -/
theorem segmentsFrom_inner (hc : ¬(n.isOutside = true ∧ c = '/')) : segmentsFrom n (c :: cs) =
    if n.isOutside && c == ']' then .error .unbalancedBracket
    else (segmentsFrom (n.after c) cs).map (consFirst c) := by
  rw [segmentsFrom, if_neg (by simpa using hc)]

theorem segmentsFrom_cons (hc : ¬(n.isOutside = true ∧ c = '/'))
    (h : segmentsFrom n (c :: cs) = .ok segs) :
    ∃ rest, segmentsFrom (n.after c) cs = .ok rest ∧ segs = consFirst c rest := by
  rw [segmentsFrom_inner hc] at h
  split at h
  · cases h
  · cases hrest : segmentsFrom (n.after c) cs with
    | error flaw => simp [hrest, Except.map] at h
    | ok rest =>
        simp only [hrest, Except.map, Except.ok.injEq] at h
        exact ⟨rest, rfl, h.symm⟩

theorem segmentsFrom_cons_of_ok {rest : List (List Char)} (hc : ¬(n.isOutside = true ∧ c = '/'))
    (hbracket : ¬(n.isOutside = true ∧ c = ']')) (h : segmentsFrom (n.after c) cs = .ok rest) :
    segmentsFrom n (c :: cs) = .ok (consFirst c rest) := by
  rw [segmentsFrom_inner hc, if_neg (by simpa using hbracket), h]
  rfl

theorem not_bracket_of_ok (hc : ¬(n.isOutside = true ∧ c = '/')) (h : segmentsFrom n (c :: cs) = .ok segs) :
    ¬(n.isOutside = true ∧ c = ']') := by
  intro hout
  rw [segmentsFrom_inner hc, if_pos (by simpa using hout)] at h
  cases h

/-- A path in segments, cut at its last separator. -/
theorem segmentsFrom_split (h : segmentsFrom n cs = .ok segs) :
    match splitLastFrom n cs with
    | none => segs = [cs]
    | some (before, last) => ∃ front, segs = front ++ [last] ∧ front ≠ [] ∧
        segmentsFrom n before = .ok front ∧ segments last = .ok [last] := by
  induction cs generalizing n segs with
  | nil =>
      rw [segmentsFrom] at h
      split at h
      · cases h
      split at h
      · cases h
      · cases h
        rfl
  | cons c cs ih =>
      -- a separator outside brackets ends an empty segment, any other character belongs to the first one
      by_cases hc : n.isOutside = true ∧ c = '/'
      · obtain ⟨hout, rfl⟩ := hc
        obtain rfl := Nesting.eq_start hout
        rw [segmentsFrom_slash] at h
        cases hrest : segmentsFrom .start cs with
        | error flaw => simp [hrest, Except.map] at h
        | ok rest =>
            simp only [hrest, Except.map, Except.ok.injEq] at h
            subst h
            have := ih hrest
            rw [splitLastFrom, Nesting.after_slash]
            cases hsplit : splitLastFrom .start cs with
            | none =>
                simp only [hsplit] at this
                subst this
                exact ⟨[[]], rfl, by simp, rfl, hrest⟩
            | some parts =>
                obtain ⟨before, last⟩ := parts
                simp only [hsplit] at this
                obtain ⟨front, rfl, hfront, hbefore, hlast⟩ := this
                refine ⟨[] :: front, rfl, by simp, ?_, hlast⟩
                rw [segmentsFrom_slash, hbefore]
                rfl
      · obtain ⟨rest, hrest, rfl⟩ := segmentsFrom_cons hc h
        have := ih hrest
        rw [splitLastFrom]
        cases hsplit : splitLastFrom (n.after c) cs with
        | none =>
            simp only [hsplit] at this
            subst this
            simp only [Bool.and_eq_true, beq_iff_eq, hc, if_false]
            rfl
        | some parts =>
            obtain ⟨before, last⟩ := parts
            simp only [hsplit] at this
            obtain ⟨front, rfl, hfront, hbefore, hlast⟩ := this
            have hbracket : ¬(n.isOutside = true ∧ c = ']') := not_bracket_of_ok hc h
            obtain ⟨s, front, rfl⟩ := List.exists_cons_of_ne_nil hfront
            exact ⟨(c :: s) :: front, rfl, by simp, segmentsFrom_cons_of_ok hc hbracket hbefore, hlast⟩

theorem segmentsFrom_ne_nil (h : segmentsFrom n cs = .ok segs) : segs ≠ [] := by
  have := segmentsFrom_split h
  split at this
  · simp [this]
  · obtain ⟨front, rfl, _⟩ := this
    simp

/-! ## White space -/

/-- A quote that stands open is no white space. -/
def Nesting.Plain (n : Nesting) : Prop := ∀ q ∈ n.quote, isBlank q = false

theorem Nesting.Plain.start : Nesting.start.Plain := by
  intro q h
  cases h

theorem Nesting.Plain.after (hn : n.Plain) : (n.after c).Plain := by
  intro q h
  simp only [Nesting.after, quoteAfter, Option.mem_def] at h
  split at h
  · rename_i hquote
    split at h
    · cases h
    · exact hn q (hquote.trans h)
  · split at h
    · rename_i hc
      cases h
      simp only [Bool.or_eq_true, decide_eq_true_eq] at hc
      rcases hc with rfl | rfl <;> rfl
    · cases h

theorem ne_of_isBlank {d : Char} (hc : isBlank c = true) (hd : isBlank d = false) : c ≠ d := by
  rintro rfl
  simp [hd] at hc

theorem Nesting.after_blank (hn : n.Plain) (hc : isBlank c = true) : n.after c = n := by
  obtain ⟨depth, quote⟩ := n
  cases quote with
  | none =>
      simp [Nesting.after, Nesting.depthAfter, quoteAfter, ne_of_isBlank (d := '[') hc rfl,
        ne_of_isBlank (d := ']') hc rfl, ne_of_isBlank (d := '\'') hc rfl, ne_of_isBlank (d := '"') hc rfl]
  | some q =>
      simp [Nesting.after, Nesting.depthAfter, quoteAfter, ne_of_isBlank hc (hn q rfl)]

/-- White space alone is one segment. -/
theorem segmentsFrom_blanks (hn : n.Plain) (hblanks : ∀ b ∈ blanks, isBlank b = true)
    (h : segmentsFrom n blanks = .ok segs) : segs = [blanks] ∧ segmentsFrom n [] = .ok [[]] := by
  induction blanks generalizing segs with
  | nil =>
      have hnil := segmentsFrom_split h
      exact ⟨hnil, hnil ▸ h⟩
  | cons b blanks ih =>
      have hb := hblanks b List.mem_cons_self
      obtain ⟨rest, hrest, rfl⟩ := segmentsFrom_cons (fun hc => ne_of_isBlank hb rfl hc.2) h
      rw [Nesting.after_blank hn hb] at hrest
      obtain ⟨rfl, hnil⟩ := ih (fun d hd => hblanks d (List.mem_cons_of_mem _ hd)) hrest
      exact ⟨rfl, hnil⟩

/-- White space behind a path belongs to its last segment. -/
theorem segmentsFrom_append_blanks (hn : n.Plain) (hblanks : ∀ b ∈ blanks, isBlank b = true)
    (h : segmentsFrom n (cs ++ blanks) = .ok segs) :
    ∃ front last, segs = front ++ [last ++ blanks] ∧ segmentsFrom n cs = .ok (front ++ [last]) := by
  induction cs generalizing n segs with
  | nil =>
      obtain ⟨rfl, hnil⟩ := segmentsFrom_blanks hn hblanks h
      exact ⟨[], [], rfl, hnil⟩
  | cons c cs ih =>
      by_cases hc : n.isOutside = true ∧ c = '/'
      · obtain ⟨hout, rfl⟩ := hc
        obtain rfl := Nesting.eq_start hout
        rw [List.cons_append, segmentsFrom_slash] at h
        cases hrest : segmentsFrom .start (cs ++ blanks) with
        | error flaw => simp [hrest, Except.map] at h
        | ok rest =>
            simp only [hrest, Except.map, Except.ok.injEq] at h
            obtain ⟨front, last, rfl, hcs⟩ := ih hn hrest
            refine ⟨[] :: front, last, h.symm, ?_⟩
            rw [segmentsFrom_slash, hcs]
            rfl
      · have hbracket : ¬(n.isOutside = true ∧ c = ']') := not_bracket_of_ok hc h
        obtain ⟨rest, hrest, rfl⟩ := segmentsFrom_cons hc h
        obtain ⟨front, last, rfl, hcs⟩ := ih hn.after hrest
        cases front with
        | nil => exact ⟨[], c :: last, rfl, segmentsFrom_cons_of_ok hc hbracket hcs⟩
        | cons s front => exact ⟨(c :: s) :: front, last, rfl, segmentsFrom_cons_of_ok hc hbracket hcs⟩

/-- White space in front of a single segment may be left out. -/
theorem segments_of_blanks_append (hblanks : ∀ b ∈ blanks, isBlank b = true)
    (h : segments (blanks ++ cs) = .ok [blanks ++ cs]) : segments cs = .ok [cs] := by
  induction blanks with
  | nil => exact h
  | cons b blanks ih =>
      have hb := hblanks b List.mem_cons_self
      obtain ⟨rest, hrest, heq⟩ := segmentsFrom_cons (fun hc => ne_of_isBlank hb rfl hc.2) h
      rw [Nesting.after_blank .start hb] at hrest
      refine ih (fun d hd => hblanks d (List.mem_cons_of_mem _ hd)) ?_
      cases rest with
      | nil => exact absurd rfl (segmentsFrom_ne_nil hrest)
      | cons s more =>
          obtain ⟨rfl, rfl⟩ : blanks ++ cs = s ∧ more = [] := by simpa [consFirst, eq_comm] using heq
          exact hrest

/-! ## Steps -/

theorem trimLeft_blanks_append (hblanks : ∀ b ∈ blanks, isBlank b = true) :
    trimLeft (blanks ++ cs) = trimLeft cs := List.dropWhile_append_of_pos hblanks

theorem trimLeft_append_blanks (hblanks : ∀ b ∈ blanks, isBlank b = true) :
    trimLeft (cs ++ blanks) = if (trimLeft cs).isEmpty then [] else trimLeft cs ++ blanks := by
  have hnil : blanks.dropWhile isBlank = [] := List.dropWhile_eq_nil_iff.2 hblanks
  rw [trimLeft, List.dropWhile_append, hnil]
  rfl

theorem trimRight_append_blanks (hblanks : ∀ b ∈ blanks, isBlank b = true) :
    trimRight (cs ++ blanks) = trimRight cs := by
  rw [trimRight, dropTail, List.reverse_append, List.dropWhile_append_of_pos (by simpa using hblanks)]
  rfl

theorem trimChars_append_blanks (hblanks : ∀ b ∈ blanks, isBlank b = true) :
    trimChars (cs ++ blanks) = trimChars cs := by
  rw [trimChars, trimLeft_append_blanks hblanks]
  split
  · rename_i hempty
    rw [trimChars, List.isEmpty_iff.1 hempty]
  · exact trimRight_append_blanks hblanks

theorem trimChars_blanks_append (hblanks : ∀ b ∈ blanks, isBlank b = true) :
    trimChars (blanks ++ cs) = trimChars cs := by
  rw [trimChars, trimLeft_blanks_append hblanks]
  rfl

/-- No bracket closes in white space. -/
theorem cutBracket_blanks {quote : Option Char} (hblanks : ∀ b ∈ blanks, isBlank b = true) :
    cutBracket quote blanks = none := by
  induction blanks generalizing quote with
  | nil => rfl
  | cons b blanks ih =>
      have hb : b ≠ ']' := ne_of_isBlank (hblanks b List.mem_cons_self) rfl
      rw [cutBracket, if_neg (by simp [hb]), ih fun d hd => hblanks d (List.mem_cons_of_mem _ hd)]
      rfl

theorem cutBracket_append_blanks {quote : Option Char} {inside after : List Char}
    (hblanks : ∀ b ∈ blanks, isBlank b = true)
    (h : cutBracket quote (cs ++ blanks) = some (inside, after)) :
    ∃ rest, after = rest ++ blanks ∧ cutBracket quote cs = some (inside, rest) := by
  induction cs generalizing quote inside with
  | nil =>
      rw [List.nil_append, cutBracket_blanks hblanks] at h
      cases h
  | cons c cs ih =>
      rw [List.cons_append, cutBracket] at h
      rw [cutBracket]
      split at h
      · rename_i hclose
        cases h
        exact ⟨cs, rfl, if_pos hclose⟩
      · rename_i hclose
        obtain ⟨⟨i, a⟩, hcut, heq⟩ := Option.map_eq_some_iff.1 h
        cases heq
        obtain ⟨rest, rfl, hcs⟩ := ih hcut
        exact ⟨rest, rfl, by rw [if_neg hclose, hcs]; rfl⟩

theorem readPredicates_bracket {ps : List Predicate} : readPredicates ('[' :: cs) = .ok ps ↔
    ∃ inside after p more, cutBracket none cs = some (inside, after) ∧
      readPredicate (trimChars inside) = .ok p ∧ readPredicates (trimLeft after) = .ok more ∧
      ps = p :: more := by
  rw [readPredicates, if_pos rfl]
  split
  · rename_i hcut
    simp [hcut]
  · rename_i inside after hcut
    constructor
    · intro h
      obtain ⟨p, hp, h⟩ := bind_eq_ok.1 h
      obtain ⟨more, hmore, h⟩ := bind_eq_ok.1 h
      cases h
      exact ⟨inside, after, p, more, hcut, hp, hmore, rfl⟩
    · rintro ⟨_, _, p, more, heq, hp, hmore, rfl⟩
      cases hcut.symm.trans heq
      simp [hp, hmore, bind, Except.bind, pure, Except.pure]

theorem length_behind_bracket {quote : Option Char} {inside after : List Char}
    (h : cutBracket quote cs = some (inside, after)) : (trimLeft after).length < cs.length + 1 := by
  have hshorter := length_cutBracket h
  have hle := (List.dropWhile_sublist isBlank (l := after)).length_le
  simp only [trimLeft]
  omega

theorem readPredicates_cons_ne {ps : List Predicate} (hc : c ≠ '[') : readPredicates (c :: cs) ≠ .ok ps := by
  rw [readPredicates, if_neg hc]
  simp

theorem readPredicates_append_blanks (cs : List Char) {ps : List Predicate}
    (hblanks : ∀ b ∈ blanks, isBlank b = true) (h : readPredicates (cs ++ blanks) = .ok ps) :
    readPredicates cs = .ok ps := by
  match cs with
  | [] =>
      cases blanks with
      | nil => exact h
      | cons b blanks =>
          exact absurd h (readPredicates_cons_ne (ne_of_isBlank (hblanks b List.mem_cons_self) rfl))
  | c :: cs =>
      by_cases hc : c = '['
      · subst hc
        obtain ⟨inside, after, p, more, hcut, hp, hmore, rfl⟩ := readPredicates_bracket.1 h
        obtain ⟨rest, rfl, hcs⟩ := cutBracket_append_blanks hblanks hcut
        refine readPredicates_bracket.2 ⟨inside, rest, p, more, hcs, hp, ?_, rfl⟩
        rw [trimLeft_append_blanks hblanks] at hmore
        split at hmore
        · rename_i hempty
          rw [List.isEmpty_iff.1 hempty]
          exact hmore
        · have hlt := length_behind_bracket hcs
          exact readPredicates_append_blanks (trimLeft rest) hblanks hmore
      · exact absurd h (readPredicates_cons_ne hc)
termination_by cs.length

/-- The rest of a segment counts only for what is reported. -/
theorem readHead_of_ok {head other : List Char} {r : Axis × NodeTest} (h : readHead segment head = .ok r) :
    readHead other head = .ok r := by
  unfold readHead at h ⊢
  iterate 6
    split at h
    · rename_i hc
      rw [if_pos hc]
      exact h
    rename_i hc
    rw [if_neg hc]
    clear hc
  split at h
  · exact h
  · split at h
    · rename_i hname
      rw [if_pos hname]
      exact h
    · cases h

theorem readStep_eq_ok {recursive : Bool} {step : Step} : readStep recursive segment = .ok step ↔
    ∃ axis test ps, readHead segment (trimChars (segment.takeWhile (· != '['))) = .ok (axis, test) ∧
      readPredicates (segment.dropWhile (· != '[')) = .ok ps ∧
      ¬(ps ≠ [] ∧ (axis = .self ∨ axis = .parent)) ∧ step = ⟨recursive, axis, test, ps⟩ := by
  constructor
  · intro h
    unfold readStep at h
    obtain ⟨⟨axis, test⟩, hhead, h⟩ := bind_eq_ok.1 h
    obtain ⟨ps, hps, h⟩ := bind_eq_ok.1 h
    split at h
    · cases h
    · rename_i hgood
      cases h
      exact ⟨axis, test, ps, hhead, hps, by simpa using hgood, rfl⟩
  · rintro ⟨axis, test, ps, hhead, hps, hgood, rfl⟩
    have hno : ¬(!ps.isEmpty && (axis == .self || axis == .parent)) = true := by simpa using hgood
    simp only [readStep, hhead, hps, bind, Except.bind, hno]
    rfl

theorem readStep_ne_nil {recursive : Bool} {step : Step} (h : readStep recursive segment = .ok step) :
    segment ≠ [] := by
  rintro rfl
  obtain ⟨axis, test, ps, hhead, _⟩ := readStep_eq_ok.1 h
  have hnone : readHead [] [] = .error (.step "") := by decide
  exact absurd (hnone.symm.trans hhead) (by simp)

theorem recursive_readStep {recursive : Bool} {step : Step} (h : readStep recursive segment = .ok step) :
    step.recursive = recursive := by
  obtain ⟨axis, test, ps, _, _, _, rfl⟩ := readStep_eq_ok.1 h
  rfl

/-- A step reads the same wherever it stands. -/
theorem readStep_of_ok {recursive : Bool} (other : Bool) {step : Step}
    (h : readStep recursive segment = .ok step) :
    readStep other segment = .ok { step with recursive := other } := by
  obtain ⟨axis, test, ps, hhead, hps, hgood, rfl⟩ := readStep_eq_ok.1 h
  exact readStep_eq_ok.2 ⟨axis, test, ps, hhead, hps, hgood, rfl⟩

theorem bracket_blanks (hblanks : ∀ b ∈ blanks, isBlank b = true) : ∀ b ∈ blanks, (b != '[') = true := by
  intro b hb
  simpa using ne_of_isBlank (hblanks b hb) rfl

theorem readStep_append_blanks {recursive : Bool} {step : Step} (hblanks : ∀ b ∈ blanks, isBlank b = true)
    (h : readStep recursive (segment ++ blanks) = .ok step) : readStep recursive segment = .ok step := by
  obtain ⟨axis, test, ps, hhead, hps, hgood, rfl⟩ := readStep_eq_ok.1 h
  have hbracket := bracket_blanks hblanks
  have hname : trimChars ((segment ++ blanks).takeWhile (· != '[')) =
      trimChars (segment.takeWhile (· != '[')) := by
    rw [List.takeWhile_append, List.takeWhile_eq_self_iff.2 hbracket]
    split
    · rename_i hall
      rw [trimChars_append_blanks hblanks,
        (List.takeWhile_sublist (l := segment) (· != '[')).eq_of_length hall]
    · rfl
  refine readStep_eq_ok.2 ⟨axis, test, ps, readHead_of_ok (hname ▸ hhead), ?_, hgood, rfl⟩
  rw [List.dropWhile_append] at hps
  split at hps
  · rename_i hempty
    rw [List.isEmpty_iff.1 hempty]
    have hnil : blanks.dropWhile (· != '[') = [] := List.dropWhile_eq_nil_iff.2 hbracket
    exact hnil ▸ hps
  · exact readPredicates_append_blanks _ hblanks hps

theorem readStep_blanks_append {recursive : Bool} {step : Step} (hblanks : ∀ b ∈ blanks, isBlank b = true)
    (h : readStep recursive (blanks ++ segment) = .ok step) : readStep recursive segment = .ok step := by
  obtain ⟨axis, test, ps, hhead, hps, hgood, rfl⟩ := readStep_eq_ok.1 h
  have hbracket := bracket_blanks hblanks
  rw [List.takeWhile_append_of_pos hbracket, trimChars_blanks_append hblanks] at hhead
  rw [List.dropWhile_append_of_pos hbracket] at hps
  exact readStep_eq_ok.2 ⟨axis, test, ps, readHead_of_ok hhead, hps, hgood, rfl⟩

/-! ## Lists of steps -/

variable {recursive : Bool} {step : Step}

theorem readSteps_of_readStep (h : readStep recursive segment = .ok step) :
    readSteps recursive (segment :: segs) = (readSteps false segs).map (step :: ·) := by
  rw [readSteps, if_neg (by simpa using readStep_ne_nil h), h]
  cases readSteps false segs <;> rfl

theorem readSteps_nil_cons (h : segs ≠ []) : readSteps false ([] :: segs) = readSteps true segs := by
  rw [readSteps, if_pos (by rfl), if_neg (by simpa using h), if_neg (by simp)]

/-- Steps that can be read begin with a step, or with an empty segment that makes the first recursive. -/
theorem readSteps_cons_cases {steps : List Step} (h : readSteps recursive (segment :: segs) = .ok steps) :
    (segment = [] ∧ segs ≠ [] ∧ recursive = false ∧ readSteps true segs = .ok steps) ∨
      ∃ step more, readStep recursive segment = .ok step ∧ readSteps false segs = .ok more ∧
        steps = step :: more := by
  rw [readSteps] at h
  split at h
  · rename_i hempty
    split at h
    · cases h
    · rename_i hsegs
      split at h
      · cases h
      · rename_i hrecursive
        exact Or.inl ⟨by simpa using hempty, by simpa using hsegs, by simpa using hrecursive, h⟩
  · obtain ⟨step, hstep, h⟩ := bind_eq_ok.1 h
    obtain ⟨more, hmore, h⟩ := bind_eq_ok.1 h
    cases h
    exact Or.inr ⟨step, more, hstep, hmore, rfl⟩

/-- The last of the steps, and what is left without its segment: the other steps, unless an empty segment
now stands last. -/
theorem readSteps_concat {steps : List Step} (h : readSteps recursive (front ++ [segment]) = .ok steps) :
    ∃ before step, steps = before ++ [step] ∧ readStep step.recursive segment = .ok step ∧
      if front.getLast? = some [] then
        step.recursive = true ∧ readSteps recursive front = .error .trailingSlash ∧
          (before = [] ↔ recursive = false ∧ front = [[]])
      else
        step.recursive = (recursive && front.isEmpty) ∧ readSteps recursive front = .ok before ∧
          (before = [] ↔ front = []) := by
  induction front generalizing recursive steps with
  | nil =>
      rcases readSteps_cons_cases h with ⟨_, hnil, _⟩ | ⟨step, more, hstep, hmore, rfl⟩
      · exact absurd rfl hnil
      · cases hmore
        have hrecursive := recursive_readStep hstep
        exact ⟨[], step, rfl, hrecursive ▸ hstep, by simpa [readSteps] using hrecursive⟩
  | cons s front ih =>
      -- an empty segment makes the step behind it recursive, any other is a step
      rcases readSteps_cons_cases h with ⟨rfl, _, rfl, hrest⟩ | ⟨first, more, hfirst, hrest, rfl⟩
      · obtain ⟨before, step, rfl, hstep, hfront⟩ := ih hrest
        refine ⟨before, step, rfl, hstep, ?_⟩
        cases front with
        | nil => simpa [readSteps] using hfront
        | cons t front =>
            rw [List.getLast?_cons_cons, readSteps_nil_cons (by simp)]
            split at hfront <;> rename_i hlast
            · rw [if_pos hlast]
              exact ⟨hfront.1, hfront.2.1, by simpa using hfront.2.2⟩
            · rw [if_neg hlast]
              exact ⟨by simpa using hfront.1, hfront.2.1, by simpa using hfront.2.2⟩
      · obtain ⟨before, step, rfl, hstep, hfront⟩ := ih hrest
        refine ⟨first :: before, step, rfl, hstep, ?_⟩
        rw [readSteps_of_readStep hfirst]
        cases front with
        | nil => simpa [readSteps, Except.map, readStep_ne_nil hfirst] using hfront
        | cons t front =>
            rw [List.getLast?_cons_cons]
            split at hfront <;> rename_i hlast
            · rw [if_pos hlast, hfront.2.1]
              exact ⟨hfront.1, rfl, by simp⟩
            · rw [if_neg hlast, hfront.2.1]
              exact ⟨by simpa using hfront.1, rfl, by simp⟩

theorem readSteps_append_blanks {steps : List Step} (hblanks : ∀ b ∈ blanks, isBlank b = true)
    (h : readSteps recursive (front ++ [segment ++ blanks]) = .ok steps) :
    readSteps recursive (front ++ [segment]) = .ok steps := by
  induction front generalizing recursive steps with
  | nil =>
      rcases readSteps_cons_cases h with ⟨_, hnil, _⟩ | ⟨step, more, hstep, hmore, rfl⟩
      · exact absurd rfl hnil
      · rw [List.nil_append, readSteps_of_readStep (readStep_append_blanks hblanks hstep), hmore]
        rfl
  | cons s front ih =>
      rcases readSteps_cons_cases h with ⟨rfl, _, rfl, hrest⟩ | ⟨first, more, hfirst, hrest, rfl⟩
      · rw [List.cons_append, readSteps_nil_cons (by simp)]
        exact ih hrest
      · rw [List.cons_append, readSteps_of_readStep hfirst, ih hrest]
        rfl

/-! ## Paths -/

variable {body : List Char} {p : Path} {before : List Step}

theorem readTrimmed_absolute (h : segments body = .ok segs) : readTrimmed ('/' :: body) =
    if segs = [[]] then .ok ⟨true, []⟩ else (readSteps false segs).map (⟨true, ·⟩) := by
  simp only [readTrimmed, h, Except.mapError, bind, Except.bind]
  split
  · rfl
  · cases readSteps false segs <;> rfl

theorem readTrimmed_relative (hc : c ≠ '/') (h : segments (c :: cs) = .ok segs) :
    readTrimmed (c :: cs) = (readSteps false segs).map (⟨false, ·⟩) := by
  unfold readTrimmed
  split
  · rename_i heq
    cases heq
  · rename_i heq
    cases heq
    exact absurd rfl hc
  · simp only [h, Except.mapError, bind, Except.bind]
    cases readSteps false segs <;> rfl

/-- A path that can be read is a slash and a body, or a body without a slash in front. -/
theorem segments_of_readTrimmed (h : readTrimmed cs = .ok p) :
    (∃ body segs, cs = '/' :: body ∧ segments body = .ok segs) ∨
      ∃ c rest segs, cs = c :: rest ∧ c ≠ '/' ∧ segments (c :: rest) = .ok segs := by
  unfold readTrimmed at h
  split at h
  · cases h
  · rename_i body
    obtain ⟨segs, hsegs, _⟩ := bind_eq_ok.1 h
    exact Or.inl ⟨body, segs, rfl, mapError_eq_ok.1 hsegs⟩
  · rename_i hempty hslash
    obtain ⟨segs, hsegs, _⟩ := bind_eq_ok.1 h
    obtain ⟨c, rest, rfl⟩ := List.exists_cons_of_ne_nil hempty
    exact Or.inr ⟨c, rest, segs, rfl, fun hc => hslash rest (by rw [hc]), mapError_eq_ok.1 hsegs⟩

theorem trimRight_eq_append (cs : List Char) :
    ∃ blanks, cs = trimRight cs ++ blanks ∧ ∀ b ∈ blanks, isBlank b = true := by
  refine ⟨(cs.reverse.takeWhile isBlank).reverse, ?_, fun b hb => ?_⟩
  · rw [trimRight, dropTail, ← List.reverse_append, List.takeWhile_append_dropWhile, List.reverse_reverse]
  · exact List.mem_takeWhile_imp (List.mem_reverse.1 hb)

theorem trimRight_cons (hc : isBlank c = false) : trimRight (c :: cs) = c :: trimRight cs := by
  rw [trimRight, dropTail, List.reverse_cons, List.dropWhile_append]
  split
  · rename_i hempty
    rw [trimRight, dropTail, List.isEmpty_iff.1 hempty]
    simp [hc]
  · simp [trimRight, dropTail]

theorem trimChars_cons (hc : isBlank c = false) : trimChars (c :: cs) = c :: trimRight cs := by
  rw [trimChars, trimLeft, List.dropWhile_cons_of_neg (by simp [hc]), trimRight_cons hc]

theorem ne_slash_of_segments (h : segments (c :: cs) = .ok [c :: cs]) : c ≠ '/' := by
  rintro rfl
  have hsplit := segmentsFrom_split h
  rw [splitLastFrom] at hsplit
  split at hsplit <;> rename_i heq
  · split at heq
    · cases heq
    · cases heq
  · obtain ⟨front, hfront, hne, _⟩ := hsplit
    cases front with
    | nil => exact hne rfl
    | cons s front => simp at hfront

theorem readTrimmed_of_segment (hsegments : segments cs = .ok [cs])
    (hstep : readStep recursive cs = .ok step) :
    readTrimmed cs = .ok ⟨false, [{ step with recursive := false }]⟩ := by
  obtain ⟨c, rest, rfl⟩ := List.exists_cons_of_ne_nil (readStep_ne_nil hstep)
  rw [readTrimmed_relative (ne_slash_of_segments hsegments) hsegments,
    readSteps_of_readStep (readStep_of_ok false hstep)]
  rfl

/-- A segment on its own, with white space dropped at both ends, is a path of one step. -/
theorem readTrimmed_segment (hsegments : segments cs = .ok [cs]) (hstep : readStep recursive cs = .ok step) :
    readTrimmed (trimChars cs) = .ok ⟨false, [{ step with recursive := false }]⟩ := by
  have hleft : cs = cs.takeWhile isBlank ++ trimLeft cs := List.takeWhile_append_dropWhile.symm
  have hblanks : ∀ b ∈ cs.takeWhile isBlank, isBlank b = true := fun b => List.mem_takeWhile_imp
  obtain ⟨blanks, hright, htail⟩ := trimRight_eq_append (trimLeft cs)
  rw [hleft] at hsegments hstep
  have hfront := segments_of_blanks_append hblanks hsegments
  have hfrontStep := readStep_blanks_append hblanks hstep
  rw [hright] at hfront hfrontStep
  obtain ⟨front, last, heq, hcore⟩ := segmentsFrom_append_blanks .start htail hfront
  obtain ⟨rfl, hlast⟩ : front = [] ∧ trimRight (trimLeft cs) = last := by
    cases front with
    | nil => simpa using heq
    | cons s front => simp at heq
  rw [← hlast, List.nil_append] at hcore
  exact readTrimmed_of_segment hcore (readStep_append_blanks htail hfrontStep)

/-- A body cut at its last separator. Without white space at its end, what stands in front reads as the steps
in front, unless it ends in a separator. -/
theorem read_splitLastFrom (hsegments : segments body = .ok segs)
    (hsteps : readSteps false segs = .ok (before ++ [step])) :
    match splitLastFrom .start body with
    | none => segs = [body] ∧ before = [] ∧ step.recursive = false ∧ readStep false body = .ok step
    | some (first, last) =>
      readTrimmed (trimChars last) = .ok ⟨false, [{ step with recursive := false }]⟩ ∧
        ∃ front, segments (trimRight first) = .ok front ∧
          if step.recursive then
            readSteps false front = .error .trailingSlash ∧ (before = [] ↔ front = [[]])
          else readSteps false front = .ok before ∧ before ≠ [] ∧ front ≠ [[]] := by
  have hsplit := segmentsFrom_split hsegments
  split at hsplit
  · subst hsplit
    rw [← List.nil_append [body]] at hsteps
    obtain ⟨_, _, hconcat, hstep, hfront⟩ := readSteps_concat hsteps
    obtain ⟨rfl, hlast⟩ := List.append_inj' hconcat rfl
    cases hlast
    rw [if_neg (by simp)] at hfront
    obtain ⟨hrecursive, _, hnil⟩ := hfront
    exact ⟨rfl, hnil.2 rfl, hrecursive, by rwa [hrecursive] at hstep⟩
  · rename_i first last _
    obtain ⟨front, rfl, hne, hfirst, hlast⟩ := hsplit
    obtain ⟨_, _, hconcat, hstep, hfront⟩ := readSteps_concat hsteps
    obtain ⟨rfl, hsame⟩ := List.append_inj' hconcat rfl
    cases hsame
    refine ⟨readTrimmed_segment hlast hstep, ?_⟩
    -- white space in front of the separator belongs to the segment there, where trimming drops it
    obtain ⟨blanks, htrim, hblanks⟩ := trimRight_eq_append first
    rw [htrim] at hfirst
    obtain ⟨init, final, rfl, htrimmed⟩ := segmentsFrom_append_blanks .start hblanks hfirst
    refine ⟨init ++ [final], htrimmed, ?_⟩
    rw [List.getLast?_concat] at hfront
    split at hfront <;> rename_i hempty
    · obtain ⟨hrecursive, herror, hnil⟩ := hfront
      obtain ⟨rfl, rfl⟩ : final = [] ∧ blanks = [] := by simpa using hempty
      rw [if_pos hrecursive]
      exact ⟨herror, by simpa using hnil⟩
    · obtain ⟨hrecursive, hok, hnil⟩ := hfront
      have hread := readSteps_append_blanks hblanks hok
      rw [if_neg (by simp [hrecursive])]
      refine ⟨hread, by simpa using hnil, fun hroot => ?_⟩
      rw [hroot] at hread
      cases hread

theorem splitLastChars_slash : splitLastChars ('/' :: body) =
    match splitLastFrom .start body with
    | none => ('/' :: body, body)
    | some (first, last) => ('/' :: first, last) := by
  rw [splitLastChars, splitLastFrom, Nesting.after_slash]
  cases splitLastFrom .start body <;> rfl

theorem splitLastFrom_of_ne {first last : List Char} (hc : c ≠ '/')
    (h : splitLastFrom .start (c :: cs) = some (first, last)) : ∃ rest, first = c :: rest := by
  rw [splitLastFrom] at h
  split at h
  · cases h
    exact ⟨_, rfl⟩
  · simp [hc] at h

theorem splitLastChars_of_ne (hc : c ≠ '/') : splitLastChars (c :: cs) =
    match splitLastFrom .start (c :: cs) with
    | none => (c :: cs, c :: cs)
    | some (first, last) => (first, last) := by
  rw [splitLastChars]
  cases h : splitLastFrom .start (c :: cs) with
  | none => rfl
  | some parts =>
      obtain ⟨first, last⟩ := parts
      obtain ⟨rest, rfl⟩ := splitLastFrom_of_ne hc h
      rfl

theorem isBlank_of_trimChars {rest : List Char} (h : trimChars cs = c :: rest) : isBlank c = false := by
  rw [trimChars] at h
  cases hleft : trimLeft cs with
  | nil =>
      rw [hleft] at h
      cases h
  | cons d left =>
      have hd : isBlank d = false := by
        unfold trimLeft at hleft
        have hhead := List.head_dropWhile_not isBlank (l := cs) (by simp [hleft])
        simpa only [hleft, List.head_cons] using hhead
      rw [hleft, trimRight_cons hd] at h
      cases h
      exact hd

/-- What two texts are to a path with a last step: that step on its own, and the steps in front of it. In
front of a first step there is the path itself, or the document if the step is recursive. -/
structure Halves (p : Path) (before : List Step) (step : Step) (parent last : List Char) : Prop where
  last : readTrimmed (trimChars last) = .ok ⟨false, [{ step with recursive := false }]⟩
  parent : readTrimmed (trimChars parent) =
    if before = [] then .ok (if step.recursive then ⟨true, []⟩ else p)
    else if step.recursive then .error .trailingSlash else .ok ⟨p.absolute, before⟩

theorem halves_absolute (htrim : trimChars ('/' :: body) = '/' :: body)
    (h : readTrimmed ('/' :: body) = .ok p) (hsegs : segments body = .ok segs)
    (hbody : readSteps false segs = .ok (before ++ [step])) (hp : p = ⟨true, before ++ [step]⟩) :
    Halves p before step (splitLastChars ('/' :: body)).1 (splitLastChars ('/' :: body)).2 := by
  have hparts := read_splitLastFrom hsegs hbody
  rw [splitLastChars_slash]
  cases hsplit : splitLastFrom .start body with
  | none =>
      simp only [hsplit] at hparts
      obtain ⟨rfl, rfl, hrecursive, hstep⟩ := hparts
      refine ⟨readTrimmed_segment hsegs hstep, ?_⟩
      rw [htrim, h, if_pos rfl, hrecursive]
      rfl
  | some parts =>
      obtain ⟨first, last⟩ := parts
      simp only [hsplit] at hparts
      obtain ⟨hlast, front, hfront, hcases⟩ := hparts
      refine ⟨hlast, ?_⟩
      rw [trimChars_cons rfl, readTrimmed_absolute hfront]
      split at hcases <;> rename_i hrecursive
      · obtain ⟨herror, hnil⟩ := hcases
        simp [hnil, herror, hrecursive, Except.map]
      · obtain ⟨hok, hne, hroot⟩ := hcases
        simp [hne, hroot, hok, hrecursive, Except.map, hp]

theorem halves_relative (htrim : trimChars (c :: cs) = c :: cs) (hc : c ≠ '/')
    (h : readTrimmed (c :: cs) = .ok p) (hsegs : segments (c :: cs) = .ok segs)
    (hbody : readSteps false segs = .ok (before ++ [step])) (hp : p = ⟨false, before ++ [step]⟩) :
    Halves p before step (splitLastChars (c :: cs)).1 (splitLastChars (c :: cs)).2 := by
  have hparts := read_splitLastFrom hsegs hbody
  rw [splitLastChars_of_ne hc]
  cases hsplit : splitLastFrom .start (c :: cs) with
  | none =>
      simp only [hsplit] at hparts
      obtain ⟨rfl, rfl, hrecursive, hstep⟩ := hparts
      refine ⟨readTrimmed_segment hsegs hstep, ?_⟩
      rw [htrim, h, if_pos rfl, hrecursive]
      rfl
  | some parts =>
      obtain ⟨first, last⟩ := parts
      simp only [hsplit] at hparts
      obtain ⟨hlast, front, hfront, hcases⟩ := hparts
      refine ⟨hlast, ?_⟩
      have hblank := isBlank_of_trimChars htrim
      obtain ⟨more, rfl⟩ := splitLastFrom_of_ne hc hsplit
      rw [trimRight_cons hblank] at hfront
      have hnotRoot : front ≠ [[]] := by
        rintro rfl
        obtain ⟨rest, _, hcons⟩ := segmentsFrom_cons (fun hslash => hc hslash.2) hfront
        cases rest <;> simp [consFirst] at hcons
      rw [trimChars_cons hblank, readTrimmed_relative hc hfront]
      split at hcases <;> rename_i hrecursive
      · obtain ⟨herror, hnil⟩ := hcases
        simp [hnil, hnotRoot, herror, hrecursive, Except.map]
      · obtain ⟨hok, hne, _⟩ := hcases
        simp [hne, hok, hrecursive, Except.map, hp]

theorem halves_splitLastChars (htrim : trimChars cs = cs) (h : readTrimmed cs = .ok p)
    (hsteps : p.steps = before ++ [step]) :
    Halves p before step (splitLastChars cs).1 (splitLastChars cs).2 := by
  rcases segments_of_readTrimmed h with ⟨body, segs, rfl, hsegs⟩ | ⟨c, rest, segs, rfl, hc, hsegs⟩
  · have hread := h
    rw [readTrimmed_absolute hsegs] at hread
    split at hread
    · cases hread
      simp at hsteps
    · obtain ⟨steps, hbody, rfl⟩ := map_eq_ok hread
      cases hsteps
      exact halves_absolute htrim h hsegs hbody rfl
  · have hread := h
    rw [readTrimmed_relative hc hsegs] at hread
    obtain ⟨steps, hbody, rfl⟩ := map_eq_ok hread
    cases hsteps
    exact halves_relative htrim hc h hsegs hbody rfl

theorem readSteps_ne_nil {steps : List Step} (hsegs : segs ≠ [])
    (h : readSteps recursive segs = .ok steps) : steps ≠ [] := by
  rw [← List.dropLast_concat_getLast hsegs] at h
  obtain ⟨before, step, rfl, _⟩ := readSteps_concat h
  simp

theorem eq_nil_of_segments (h : segments body = .ok [[]]) : body = [] := by
  have hsplit := segmentsFrom_split h
  split at hsplit
  · simpa using hsplit.symm
  · obtain ⟨front, hfront, hne, _⟩ := hsplit
    obtain ⟨s, front, rfl⟩ := List.exists_cons_of_ne_nil hne
    simp at hfront

/-- Only the slash alone is a path without steps. -/
theorem eq_slash_of_steps (h : readTrimmed cs = .ok p) (hsteps : p.steps = []) : cs = ['/'] := by
  rcases segments_of_readTrimmed h with ⟨body, segs, rfl, hsegs⟩ | ⟨c, rest, segs, rfl, hc, hsegs⟩
  · rw [readTrimmed_absolute hsegs] at h
    split at h
    · rename_i hroot
      rw [hroot] at hsegs
      rw [eq_nil_of_segments hsegs]
    · obtain ⟨steps, hread, rfl⟩ := map_eq_ok h
      exact absurd hsteps (readSteps_ne_nil (segmentsFrom_ne_nil hsegs) hread)
  · rw [readTrimmed_relative hc hsegs] at h
    obtain ⟨steps, hread, rfl⟩ := map_eq_ok h
    exact absurd hsteps (readSteps_ne_nil (segmentsFrom_ne_nil hsegs) hread)

/-! ## Texts of paths -/

theorem trimRight_trimRight : trimRight (trimRight cs) = trimRight cs := by
  simp only [trimRight, dropTail, List.reverse_reverse, List.dropWhile_idempotent]

theorem trimChars_trimChars : trimChars (trimChars cs) = trimChars cs := by
  cases h : trimChars cs with
  | nil => rfl
  | cons c rest =>
      have hc := isBlank_of_trimChars h
      rw [trimChars_cons hc, ← trimRight_cons hc, ← h]
      exact trimRight_trimRight

variable {text : String}

theorem parse_eq_ok : parse text = .ok p ↔ readTrimmed (trimChars text.toList) = .ok p := by
  rw [parse]
  cases readTrimmed (trimChars text.toList) <;> simp [Except.mapError]

theorem parse_eq_error {flaw : Flaw} (h : readTrimmed (trimChars text.toList) = .error flaw) :
    parse text = .error ⟨text, flaw⟩ := by
  rw [parse, h]
  rfl

theorem halves_splitLast (h : parse text = .ok p) (hsteps : p.steps = before ++ [step]) :
    Halves p before step (splitLast (Text.trim text)).1.toList (splitLast (Text.trim text)).2.toList := by
  have hhalves := halves_splitLastChars trimChars_trimChars (parse_eq_ok.1 h) hsteps
  simpa only [splitLast, Text.trim, String.toList_ofList] using hhalves

/-- The last step of a path is a path on its own. -/
theorem parse_lastStep (h : parse text = .ok p) (hsteps : p.steps = before ++ [step]) :
    parse (splitLast (Text.trim text)).2 = .ok ⟨false, [{ step with recursive := false }]⟩ :=
  parse_eq_ok.2 (halves_splitLast h hsteps).last

/-- The steps in front of one that is not recursive are a path. -/
theorem parse_parent (h : parse text = .ok p) (hsteps : p.steps = before ++ [step]) (hbefore : before ≠ [])
    (hrecursive : step.recursive = false) : parse (splitLast (Text.trim text)).1 = .ok ⟨p.absolute, before⟩ := by
  have hparent := (halves_splitLast h hsteps).parent
  rw [if_neg hbefore, if_neg (by simp [hrecursive])] at hparent
  exact parse_eq_ok.2 hparent

/-- In front of a recursive step the parent ends in a slash, and is no path. -/
theorem parse_parent_of_recursive (h : parse text = .ok p) (hsteps : p.steps = before ++ [step])
    (hbefore : before ≠ []) (hrecursive : step.recursive = true) :
    parse (splitLast (Text.trim text)).1 = .error ⟨(splitLast (Text.trim text)).1, .trailingSlash⟩ := by
  have hparent := (halves_splitLast h hsteps).parent
  rw [if_neg hbefore, if_pos hrecursive] at hparent
  exact parse_eq_error hparent

theorem parse_parent_of_single (h : parse text = .ok p) (hsteps : p.steps = [step]) :
    parse (splitLast (Text.trim text)).1 = .ok (if step.recursive then ⟨true, []⟩ else p) := by
  have hparent := (halves_splitLast h (hsteps.trans (List.nil_append _).symm)).parent
  rw [if_pos rfl] at hparent
  exact parse_eq_ok.2 hparent

/-- The path of the document alone is cut into itself and nothing. -/
theorem splitLast_of_root (h : parse text = .ok p) (hsteps : p.steps = []) :
    splitLast (Text.trim text) = ("/", "") := by
  rw [Text.trim, eq_slash_of_steps (parse_eq_ok.1 h) hsteps]
  rfl

end Interchange.Path
