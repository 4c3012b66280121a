import Mathlib.Data.Finset.Sort
import Mathlib.Data.Finset.Union
import Interchange.Proofs.Evaluation
import Interchange.Proofs.Splitting

/-!
# A path and its two parts

Where the separator of a path's last step stands behind another step, the text falls into two paths, and these
say together what the whole path says: their steps are its steps, and evaluating the second from each node that
the first selects gives what the whole selects (`Path.parse_parts`). Evaluation comes apart at every step
(`Path.select_append`).
-/

namespace Interchange

open Xml (Document)

namespace Path

/-! ## Where the separator stands -/

section Separator

variable {n : Nesting} {cs first last body : List Char} {segs front : List (List Char)} {steps : List Step}

theorem eq_of_splitLastFrom (h : splitLastFrom n cs = some (first, last)) : cs = first ++ '/' :: last := by
  induction cs generalizing n first with
  | nil => cases h
  | cons c cs ih =>
      rw [splitLastFrom] at h
      split at h
      · rename_i before after hrest
        cases h
        rw [ih hrest, List.cons_append]
      · split at h
        · rename_i hc
          simp only [Bool.and_eq_true, beq_iff_eq] at hc
          cases h
          rw [hc.2, List.nil_append]
        · cases h

theorem segmentsFrom_nil (h : segmentsFrom n [] = .ok segs) : segs = [[]] := segmentsFrom_split h

/-- The last segment of a path is empty only behind a slash. -/
theorem getLast?_of_segmentsFrom (h : segmentsFrom n cs = .ok segs) (hlast : segs.getLast? = some []) :
    cs = [] ∨ cs.getLast? = some '/' := by
  induction cs generalizing n segs with
  | nil => exact Or.inl rfl
  | cons c cs ih =>
      refine Or.inr ?_
      -- what ends the path behind the first character ends it here too
      have hbehind : cs ≠ [] → cs = [] ∨ cs.getLast? = some '/' → (c :: cs).getLast? = some '/' := by
        rintro hne (hnil | hend)
        · exact absurd hnil hne
        · rw [List.getLast?_cons, hend]
          rfl
      by_cases hc : n.isOutside = true ∧ c = '/'
      · obtain ⟨hout, rfl⟩ := hc
        obtain rfl := Nesting.eq_start hout
        rw [segmentsFrom_slash] at h
        obtain ⟨rest, hrest, rfl⟩ := map_eq_ok h
        by_cases hcs : cs = []
        · rw [hcs]
          rfl
        · obtain ⟨s, more, rfl⟩ := List.exists_cons_of_ne_nil (segmentsFrom_ne_nil hrest)
          rw [List.getLast?_cons_cons] at hlast
          exact hbehind hcs (ih hrest hlast)
      · obtain ⟨rest, hrest, rfl⟩ := segmentsFrom_cons hc h
        -- the character stands in the first segment, so that an empty last one is another
        obtain ⟨s, more, rfl⟩ := List.exists_cons_of_ne_nil (segmentsFrom_ne_nil hrest)
        cases more with
        | nil => simp [consFirst] at hlast
        | cons t more =>
            rw [consFirst, List.getLast?_cons_cons] at hlast
            refine hbehind ?_ (ih hrest (by rw [List.getLast?_cons_cons, hlast]))
            rintro rfl
            have hnil := segmentsFrom_nil hrest
            simp at hnil

/-- Behind a separator that follows another step stands a last step, and it is not recursive. -/
theorem steps_of_splitLastFrom (hsegs : segments body = .ok segs) (hsteps : readSteps false segs = .ok steps)
    (hsplit : splitLastFrom .start body = some (first, last)) (hfirst : first ≠ [])
    (hslash : first.getLast? ≠ some '/') :
    ∃ (before : List Step) (step : Step), steps = before ++ [step] ∧ before ≠ [] ∧ step.recursive = false := by
  have hparts := segmentsFrom_split hsegs
  rw [hsplit] at hparts
  obtain ⟨front, rfl, hfront, hread, _⟩ := hparts
  obtain ⟨before, step, rfl, _, hcases⟩ := readSteps_concat hsteps
  have hlast : front.getLast? ≠ some [] := fun hempty =>
    (getLast?_of_segmentsFrom hread hempty).elim hfirst hslash
  rw [if_neg hlast] at hcases
  obtain ⟨hrecursive, _, hnil⟩ := hcases
  exact ⟨before, step, rfl, fun hbefore => hfront (hnil.1 hbefore), by simpa using hrecursive⟩

theorem splitLastChars_eq (h : splitLastFrom .start cs = some (first, last)) (hfirst : first ≠ []) :
    splitLastChars cs = (first, last) := by
  rw [splitLastChars, h]
  cases first with
  | nil => exact absurd rfl hfirst
  | cons c first => rfl

variable {p : Path}

theorem steps_of_readTrimmed (h : readTrimmed cs = .ok p)
    (hsplit : splitLastFrom .start cs = some (first, last)) (hfirst : first ≠ [])
    (hslash : first.getLast? ≠ some '/') :
    ∃ before step, p.steps = before ++ [step] ∧ before ≠ [] ∧ step.recursive = false := by
  rcases segments_of_readTrimmed h with ⟨body, segs, rfl, hsegs⟩ | ⟨c, rest, segs, rfl, hc, hsegs⟩
  · rw [readTrimmed_absolute hsegs] at h
    rw [splitLastFrom, Nesting.after_slash] at hsplit
    -- the slash in front belongs to no step
    split at hsplit <;> rename_i hbody
    · cases hsplit
      rename_i before
      have hbefore : before ≠ [] := fun hnil => hslash (by rw [hnil]; rfl)
      have hend : before.getLast? ≠ some '/' := fun hend =>
        hslash (by rw [List.getLast?_cons, hend]; rfl)
      split at h
      · rename_i hroot
        rw [hroot] at hsegs
        rw [eq_nil_of_segments hsegs] at hbody
        cases hbody
      · obtain ⟨steps, hsteps, rfl⟩ := map_eq_ok h
        exact steps_of_splitLastFrom hsegs hsteps hbody hbefore hend
    · split at hsplit
      · cases hsplit
        exact absurd rfl hfirst
      · cases hsplit
  · rw [readTrimmed_relative hc hsegs] at h
    obtain ⟨steps, hsteps, rfl⟩ := map_eq_ok h
    exact steps_of_splitLastFrom hsegs hsteps hsplit hfirst hslash

end Separator

/-! ## Evaluation in two parts -/

section Evaluation

variable {d : Document} {n context : Nat} {nodes : List Nat} {s : Step} {front : List Step}

namespace Step

theorem mem_origins_iff : n ∈ s.origins d nodes ↔ ∃ m ∈ nodes, n ∈ s.origins d [m] := by
  unfold origins
  split
  · simp only [mem_inDocumentOrder, List.mem_flatMap, List.mem_singleton, exists_eq_left]
    constructor
    · rintro ⟨hlt, m, hm, hn⟩
      exact ⟨m, hm, hlt, hn⟩
    · rintro ⟨m, hm, hlt, hn⟩
      exact ⟨hlt, m, hm, hn⟩
  · simp

/-- A step selects from nodes what it selects from each of them. -/
theorem mem_select_iff : n ∈ s.select d nodes ↔ ∃ m ∈ nodes, n ∈ s.select d [m] := by
  simp only [select, mem_inDocumentOrder, List.mem_flatMap]
  constructor
  · rintro ⟨hlt, origin, horigin, hn⟩
    obtain ⟨m, hm, hfrom⟩ := mem_origins_iff.1 horigin
    exact ⟨m, hm, hlt, origin, hfrom, hn⟩
  · rintro ⟨m, hm, hlt, origin, hfrom, hn⟩
    exact ⟨hlt, origin, mem_origins_iff.2 ⟨m, hm, hfrom⟩, hn⟩

end Step

theorem mem_foldl_select_iff : n ∈ front.foldl (fun nodes s => s.select d nodes) nodes ↔
    ∃ m ∈ nodes, n ∈ front.foldl (fun nodes s => s.select d nodes) [m] := by
  induction front generalizing nodes with
  | nil => simp
  | cons s front ih =>
      rw [List.foldl_cons, ih]
      constructor
      · rintro ⟨k, hk, hn⟩
        obtain ⟨m, hm, hk⟩ := Step.mem_select_iff.1 hk
        exact ⟨m, hm, ih.2 ⟨k, hk, hn⟩⟩
      · rintro ⟨m, hm, hn⟩
        obtain ⟨k, hk, hn⟩ := ih.1 hn
        exact ⟨k, Step.mem_select_iff.2 ⟨m, hm, hk⟩, hn⟩

/-- A path that is cut between two steps selects what the second part selects from each node that the first
selects, in document order and each once. -/
theorem select_append (absolute : Bool) (front back : List Step) (d : Document) (context : Nat) :
    (⟨absolute, front ++ back⟩ : Path).select d context =
      (((⟨absolute, front⟩ : Path).select d context).toFinset.biUnion fun m =>
        ((⟨false, back⟩ : Path).select d m).toFinset).sort := by
  have hsorted := select_pairwise ⟨absolute, front ++ back⟩ d context
  have hnodes : ((⟨absolute, front⟩ : Path).select d context).toFinset.biUnion
      (fun m => ((⟨false, back⟩ : Path).select d m).toFinset) =
        ((⟨absolute, front ++ back⟩ : Path).select d context).toFinset := by
    ext n
    simp only [Finset.mem_biUnion, List.mem_toFinset, select, List.foldl_append]
    exact mem_foldl_select_iff.symm
  rw [hnodes]
  refine ((List.toFinset_sort (· ≤ ·) (hsorted.imp Nat.ne_of_lt)).2 ?_).symm
  exact hsorted.imp Nat.le_of_lt

end Evaluation

/-- A path whose last separator stands neither in front nor behind another one: both parts are paths, the second
is one step from where it starts, together they have the steps of the whole, and what the whole selects is what
the second part selects from the nodes of the first, in document order and each once. -/
theorem parse_parts {text : String} {p : Path} {first last : List Char} (htrim : Text.trim text = text)
    (h : parse text = .ok p) (hsplit : splitLastFrom .start text.toList = some (first, last))
    (hfirst : first ≠ []) (hslash : first.getLast? ≠ some '/') :
    text.toList = first ++ '/' :: last ∧
      splitLast text = (String.ofList first, String.ofList last) ∧
      ∃ parent final, parse (splitLast text).1 = .ok parent ∧ parse (splitLast text).2 = .ok final ∧
        final.absolute = false ∧ final.steps.length = 1 ∧
        parent.absolute = p.absolute ∧ parent.steps ++ final.steps = p.steps ∧
        ∀ (d : Document) (context : Nat), p.select d context =
          ((parent.select d context).toFinset.biUnion fun m => (final.select d m).toFinset).sort := by
  refine ⟨eq_of_splitLastFrom hsplit, by rw [splitLast, splitLastChars_eq hsplit hfirst], ?_⟩
  have hchars : Text.trimChars text.toList = text.toList := by
    have htoList := congrArg String.toList htrim
    rwa [Text.trim, String.toList_ofList] at htoList
  have hread := parse_eq_ok.1 h
  rw [hchars] at hread
  obtain ⟨before, step, hsteps, hbefore, hrecursive⟩ := steps_of_readTrimmed hread hsplit hfirst hslash
  have hparent := parse_parent h hsteps hbefore hrecursive
  have hfinal := parse_lastStep h hsteps
  rw [htrim] at hparent hfinal
  have hstep : { step with recursive := false } = step := by rw [← hrecursive]
  rw [hstep] at hfinal
  refine ⟨_, _, hparent, hfinal, rfl, rfl, rfl, hsteps.symm, fun d context => ?_⟩
  rw [← select_append, ← hsteps]

theorem parse_parts_quoted : Text.trim "/ASN/Line[@ref='a/b']/Qty[2]" = "/ASN/Line[@ref='a/b']/Qty[2]" ∧
    ∃ p, parse "/ASN/Line[@ref='a/b']/Qty[2]" = .ok p ∧
      splitLastFrom .start "/ASN/Line[@ref='a/b']/Qty[2]".toList =
        some ("/ASN/Line[@ref='a/b']".toList, "Qty[2]".toList) ∧
      "/ASN/Line[@ref='a/b']".toList ≠ [] ∧ "/ASN/Line[@ref='a/b']".toList.getLast? ≠ some '/' ∧
      ∃ parent final, parse "/ASN/Line[@ref='a/b']" = .ok parent ∧ parse "Qty[2]" = .ok final ∧
        final.absolute = false ∧ final.steps.length = 1 ∧
        parent.absolute = p.absolute ∧ parent.steps ++ final.steps = p.steps ∧
        ∀ (d : Document) (context : Nat), p.select d context =
          ((parent.select d context).toFinset.biUnion fun m => (final.select d m).toFinset).sort := by
  have htrim : Text.trim "/ASN/Line[@ref='a/b']/Qty[2]" = "/ASN/Line[@ref='a/b']/Qty[2]" := by decide
  have hparse : parse "/ASN/Line[@ref='a/b']/Qty[2]" = .ok ⟨true, [⟨false, .child, .name "ASN", []⟩,
      ⟨false, .child, .name "Line", [.equals (.attr "ref") "a/b"]⟩,
      ⟨false, .child, .name "Qty", [.position 2]⟩]⟩ := by
    decide +kernel
  have hsplit : splitLastFrom .start "/ASN/Line[@ref='a/b']/Qty[2]".toList =
      some ("/ASN/Line[@ref='a/b']".toList, "Qty[2]".toList) := by
    decide
  have hfirst : "/ASN/Line[@ref='a/b']".toList ≠ [] := by decide
  have hslash : "/ASN/Line[@ref='a/b']".toList.getLast? ≠ some '/' := by decide
  obtain ⟨_, hparts, hrest⟩ := parse_parts htrim hparse hsplit hfirst hslash
  rw [hparts] at hrest
  exact ⟨htrim, _, hparse, hsplit, hfirst, hslash, hrest⟩

end Path

end Interchange
