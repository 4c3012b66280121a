import Interchange.Proofs.Scanning

/-!
# Reading by the grammar

What is read as a path is what the grammar says it is, if a literal may hold its own quote as long as all quotes
pair up (`Path.parse_eq_ok_iff_spells`). The readers of the parts come first, each with the texts that it accepts.
A text on its own may look like predicates although brackets stand between its quotes; the scan for separators
then ends inside brackets, so that no such text is a segment (`Path.spells_of_readPredicates`).
-/

namespace Interchange.Path

open Text (isBlank trimChars trimLeft splitOnce)

variable {operand : Operand} {p : Predicate} {ps : List Predicate} {axis : Axis} {test : NodeTest}
  {cs text segment head rest blanks name left right : List Char} {rule : LiteralRule} {c : Char}

/-! ## Operands -/

theorem Operand.Spells.isWordChar (h : operand.Spells text) : ∀ d ∈ text, isWordChar d = true := by
  cases h with
  | self | text => exact List.all_eq_true.1 (by decide)
  | attr hname => exact List.forall_mem_cons.2 ⟨by decide, isWordChar_of_isName hname⟩
  | child hname => exact isWordChar_of_isName hname

theorem readOperand_eq_ok : readOperand text = .ok operand ↔ operand.Spells text := by
  constructor
  · intro h
    unfold readOperand at h
    split at h
    · rename_i hcontext
      cases h
      simp only [Bool.or_eq_true, decide_eq_true_eq] at hcontext
      rcases hcontext with rfl | rfl
      · exact .self
      · exact .text
    · split at h
      · rename_i name _
        split at h
        · rename_i hname
          cases h
          rw [← String.toList_ofList (l := name)] at hname
          have hspells := Operand.Spells.attr hname
          rwa [String.toList_ofList] at hspells
        · cases h
      · split at h
        · rename_i hname
          cases h
          rw [← String.toList_ofList (l := text)] at hname
          have hspells := Operand.Spells.child hname
          rwa [String.toList_ofList] at hspells
        · cases h
  · intro h
    cases h with
    | self => rfl
    | text => decide
    | attr hname =>
        unfold readOperand
        rw [if_neg (by simp)]
        simp only [hname, if_true, String.ofList_toList]
    | child hname =>
        have hself := ne_of_isName hname (by decide : isName ['.'] = false)
        have htext := ne_of_isName hname (by decide : isName "text()".toList = false)
        unfold readOperand
        simp only [hself, htext, decide_false, Bool.or_self, Bool.false_eq_true, if_false]
        split
        · rename_i heq
          exact absurd heq (ne_of_isName hname rfl)
        · rw [if_pos hname, String.ofList_toList]

theorem Operand.Spells.exists_cons (h : operand.Spells text) : ∃ c cs, text = c :: cs ∧ c.isDigit = false := by
  cases h with
  | self | text | attr => exact ⟨_, _, rfl, rfl⟩
  | child hname =>
      obtain ⟨c, cs, hcons, hdigit, _⟩ := exists_cons_of_isName hname
      exact ⟨c, cs, hcons, hdigit⟩

theorem Operand.not_spells_last : ¬operand.Spells "last()".toList := by
  intro h
  have herror : readOperand "last()".toList = .error (.operand "last()") := by decide
  rw [readOperand_eq_ok.2 h] at herror
  cases herror

/-! ## Predicates -/

theorem readLiteral_eq_ok {literal : String} : readLiteral text = .ok literal ↔
    ∃ quote, (quote = '\'' ∨ quote = '"') ∧ text = quote :: literal.toList ++ [quote] := by
  constructor
  · intro h
    unfold readLiteral at h
    split at h
    · cases h
    · split at h
      · rename_i quote rest hquotes
        cases h
        simp only [Bool.and_eq_true, Bool.or_eq_true, beq_iff_eq] at hquotes
        obtain ⟨hquote, hlast⟩ := hquotes
        refine ⟨quote, hquote, ?_⟩
        rw [String.toList_ofList, List.cons_append, List.dropLast_append_getLast? _ hlast]
      · cases h
  · rintro ⟨quote, hquote, rfl⟩
    simp [readLiteral, hquote]

theorem readPredicate_equals (h : '=' ∉ left) : readPredicate (left ++ '=' :: right) =
    (do return .equals (← readOperand (trimChars left)) (← readLiteral (trimChars right))) := by
  have hlast : left ++ '=' :: right ≠ "last()".toList := fun heq =>
    absurd (heq ▸ List.mem_append_right left List.mem_cons_self) (by decide)
  have hdigits : ¬(left ++ '=' :: right).all Char.isDigit = true := fun hall =>
    absurd (List.all_eq_true.1 hall '=' (by simp)) (by decide)
  rw [readPredicate, if_neg (by simp), if_neg hlast, if_neg hdigits, Text.splitOnce_append h]

theorem spells_of_readPredicate (h : readPredicate text = .ok p) : p.Spells .any text := by
  unfold readPredicate at h
  split at h
  · cases h
  split at h
  · rename_i hlast
    cases h
    rw [hlast]
    exact .last
  split at h
  · rename_i hdigits
    dsimp only at h
    split at h
    · cases h
    split at h
    · cases h
    · rename_i hlt hpos
      cases h
      exact .position (List.all_eq_true.1 hdigits) (Nat.pos_of_ne_zero hpos) (Nat.lt_of_not_le hlt)
  split at h
  · rename_i left right hsplit
    obtain ⟨operand, hoperand, h⟩ := bind_eq_ok.1 h
    obtain ⟨literal, hliteral, h⟩ := bind_eq_ok.1 h
    cases h
    obtain ⟨quote, hquote, hright⟩ := readLiteral_eq_ok.1 hliteral
    rw [(Text.splitOnce_eq_some hsplit).1]
    exact .equals (readOperand_eq_ok.1 hoperand) hquote hright trivial
  · obtain ⟨operand, hoperand, rfl⟩ := map_eq_ok h
    exact .holds (readOperand_eq_ok.1 hoperand)

theorem readPredicate_of_spells (h : p.Spells rule text) : readPredicate text = .ok p := by
  cases h with
  | position hdigits hpos hlt =>
      have hne : ¬text.isEmpty = true := by
        intro hempty
        rw [List.isEmpty_iff.1 hempty] at hpos
        exact absurd hpos (by decide)
      have hlast : text ≠ "last()".toList := by
        rintro rfl
        exact absurd (hdigits 'l' (by decide)) (by decide)
      rw [readPredicate, if_neg hne, if_neg hlast, if_pos (List.all_eq_true.2 hdigits)]
      dsimp only
      rw [if_neg (Nat.not_le.2 hlt), if_neg (Nat.ne_of_gt hpos)]
  | last => decide
  | holds hoperand =>
      obtain ⟨c, cs, rfl, hdigit⟩ := hoperand.exists_cons
      have hlast : c :: cs ≠ "last()".toList := fun heq => Operand.not_spells_last (heq ▸ hoperand)
      have hsplit : splitOnce '=' (c :: cs) = none := Text.splitOnce_of_notMem fun hmem =>
        ne_equals_of_isWordChar (hoperand.isWordChar _ hmem) rfl
      rw [readPredicate, if_neg (by simp), if_neg hlast, if_neg (by simp [hdigit]), hsplit,
        readOperand_eq_ok.2 hoperand]
      rfl
  | equals hoperand hquote hright _ =>
      rw [readPredicate_equals (equals_notMem_of_trimChars hoperand.isWordChar),
        readOperand_eq_ok.2 hoperand, readLiteral_eq_ok.2 ⟨_, hquote, hright⟩]
      rfl

theorem pairs_comparison (h : operand.Spells (trimChars left)) :
    Pairs none (left ++ '=' :: right) ↔ Pairs none (trimChars right) := by
  rw [pairs_inert_append (isInert_of_trimChars h.isWordChar), Pairs, quoteAfter_inert rfl, ← pairs_trimChars]
  simp

/-- Quotes pair up in a predicate if they do in its literal. -/
theorem Predicate.Spells.pairs (h : p.Spells .paired text) : Pairs none text := by
  cases h with
  | position hdigits _ _ =>
      exact pairs_inert fun d hd => isInert_of_isWordChar (isWordChar_of_isDigit (hdigits d hd))
  | last => decide
  | holds hoperand => exact pairs_inert fun d hd => isInert_of_isWordChar (hoperand.isWordChar d hd)
  | equals hoperand _ hright hrule => exact (pairs_comparison hoperand).2 (hright ▸ hrule)

/-- Where quotes pair up in a predicate, they do in its literal. -/
theorem Predicate.Spells.paired (h : p.Spells .any text) (hpairs : Pairs none text) : p.Spells .paired text := by
  cases h with
  | position hdigits hpos hlt => exact .position hdigits hpos hlt
  | last => exact .last
  | holds hoperand => exact .holds hoperand
  | equals hoperand hquote hright _ =>
      rw [pairs_comparison hoperand, hright] at hpairs
      exact .equals hoperand hquote hright hpairs

/-! ## Predicates in brackets -/

theorem SpellsPredicates.nil_or_bracket (h : SpellsPredicates rule ps text) :
    text = [] ∨ ∃ rest, text = '[' :: rest := by
  cases h with
  | nil => exact Or.inl rfl
  | cons => exact Or.inr ⟨_, rfl⟩

theorem SpellsPredicates.trimLeft (h : SpellsPredicates rule ps text) : trimLeft text = text := by
  rcases h.nil_or_bracket with rfl | ⟨rest, rfl⟩ <;> rfl

theorem readPredicates_nil : readPredicates [] = .ok [] := by
  rw [readPredicates]

theorem readPredicates_of_spells (h : SpellsPredicates .paired ps text) : readPredicates text = .ok ps := by
  induction h with
  | nil => exact readPredicates_nil
  | cons hp hblanks hrest ih =>
      refine readPredicates_bracket.2
        ⟨_, _, _, _, cutBracket_of_pairs (pairs_trimChars.1 hp.pairs), readPredicate_of_spells hp, ?_, rfl⟩
      rw [trimLeft_blanks_append hblanks, hrest.trimLeft]
      exact ih

theorem SpellsPredicates.passes (h : SpellsPredicates .paired ps text) : Passes .start text .start := by
  induction h with
  | nil => exact .nil
  | cons hp hblanks _ ih =>
      have hbehind := (Passes.of_inert fun b hb => isInert_of_isBlank (hblanks b hb)).append ih
      exact .of_bracketed (pairs_trimChars.1 hp.pairs) hbehind

/-- What is read as predicates goes deeper by the brackets that their insides open. Where they open none, it is
what the grammar says. -/
theorem spells_of_readPredicates (text : List Char) {ps : List Predicate} (h : readPredicates text = .ok ps) :
    ∃ k, (∀ depth, (Nesting.mk depth none).through text = ⟨depth + k, none⟩) ∧
      (k = 0 → SpellsPredicates .paired ps text) := by
  match text with
  | [] =>
      rw [readPredicates_nil] at h
      cases h
      exact ⟨0, fun _ => rfl, fun _ => .nil⟩
  | c :: cs =>
      by_cases hc : c = '['
      · subst hc
        obtain ⟨inside, after, p, more, hcut, hp, hmore, rfl⟩ := readPredicates_bracket.1 h
        have hlt := length_behind_bracket hcut
        obtain ⟨k, hdepth, hspells⟩ := spells_of_readPredicates (trimLeft after) hmore
        obtain ⟨rfl, hinside, hpairs⟩ := cutBracket_eq_some hcut
        have hblanks : ∀ b ∈ after.takeWhile isBlank, isBlank b = true := fun b => List.mem_takeWhile_imp
        have hafter : after = after.takeWhile isBlank ++ trimLeft after :=
          List.takeWhile_append_dropWhile.symm
        -- the bracket that opens the predicate is closed again, so that only those inside count
        refine ⟨opened none inside + k, fun depth => ?_, fun hk => ?_⟩
        · have hinner := hinside depth
          rw [hafter, Nesting.through_cons, Nesting.after_open, Nesting.through_append, hinner,
            Nesting.through_cons, Nat.add_right_comm, Nesting.after_close, Nesting.through_append,
            Nesting.through_inert fun b hb => isInert_of_isBlank (hblanks b hb), hdepth, Nat.add_assoc]
        · obtain ⟨hopened, hk⟩ := Nat.add_eq_zero_iff.1 hk
          have hpaired := (spells_of_readPredicate hp).paired (pairs_trimChars.2 (hpairs hopened))
          rw [hafter]
          exact .cons hpaired hblanks (hspells hk)
      · exact absurd h (readPredicates_cons_ne hc)
termination_by text.length

/-! ## Steps -/

theorem SpellsHead.isWordChar (h : SpellsHead axis test text) : ∀ d ∈ text, isWordChar d = true := by
  cases h with
  | self | parent | any | text | node | anyAttr => exact List.all_eq_true.1 (by decide)
  | child hname => exact isWordChar_of_isName hname
  | attr hname => exact List.forall_mem_cons.2 ⟨by decide, isWordChar_of_isName hname⟩

theorem readHead_eq_ok : readHead segment head = .ok (axis, test) ↔ SpellsHead axis test head := by
  constructor
  · intro h
    unfold readHead at h
    iterate 6
      split at h
      · rename_i heq
        cases h
        rw [heq]
        constructor
    split at h
    · rename_i name _ _ _ _ _ _
      split at h
      · rename_i hname
        cases h
        rw [← String.toList_ofList (l := name)] at hname
        have hspells := SpellsHead.attr hname
        rwa [String.toList_ofList] at hspells
      · cases h
    · split at h
      · rename_i hname
        cases h
        rw [← String.toList_ofList (l := head)] at hname
        have hspells := SpellsHead.child hname
        rwa [String.toList_ofList] at hspells
      · cases h
  · intro h
    cases h with
    | self | parent | any | text | node | anyAttr => rfl
    | child hname =>
        unfold readHead
        iterate 6 rw [if_neg (ne_of_isName hname (by decide))]
        split
        · rename_i heq
          exact absurd heq (ne_of_isName hname rfl)
        · rw [if_pos hname, String.ofList_toList]
    | attr hname =>
        have hany : '@' :: _ ≠ ['@', '*'] := fun heq =>
          ne_of_isName hname (by decide : isName ['*'] = false) (List.cons.inj heq).2
        unfold readHead
        iterate 5 rw [if_neg (by simp)]
        rw [if_neg hany]
        simp only [hname, if_true, String.ofList_toList]

section Head

variable (hhead : SpellsHead axis test (trimChars head)) (hps : SpellsPredicates rule ps rest)

include hhead

theorem bracket_head : ∀ d ∈ head, (d != '[') = true := fun d hd => by
  simpa using (isInert_iff.1 (isInert_of_trimChars hhead.isWordChar d hd)).2.1

include hps

theorem takeWhile_head : (head ++ rest).takeWhile (· != '[') = head := by
  rw [List.takeWhile_append_of_pos (bracket_head hhead)]
  rcases hps.nil_or_bracket with rfl | ⟨rest, rfl⟩ <;> exact List.append_nil head

theorem dropWhile_head : (head ++ rest).dropWhile (· != '[') = rest := by
  rw [List.dropWhile_append_of_pos (bracket_head hhead)]
  rcases hps.nil_or_bracket with rfl | ⟨rest, rfl⟩ <;> rfl

end Head

variable {s : Step} {steps : List Step} {recursive : Bool} {segs : List (List Char)} {path : Path}

theorem readStep_of_spells (h : s.Spells .paired text) : readStep s.recursive text = .ok s := by
  cases h with
  | mk hhead hps hbare =>
      refine readStep_eq_ok.2 ⟨_, _, _, ?_, ?_, fun hgood => hgood.1 (hbare hgood.2), rfl⟩
      · rw [takeWhile_head hhead hps]
        exact readHead_eq_ok.2 hhead
      · rw [dropWhile_head hhead hps]
        exact readPredicates_of_spells hps

theorem Step.Spells.passes (h : s.Spells .paired text) : Passes .start text .start := by
  cases h with
  | mk hhead hps _ => exact (Passes.of_inert (isInert_of_trimChars hhead.isWordChar)).append hps.passes

/-- What is read as a step and leads back outside is a step by the grammar. -/
theorem spells_of_readStep (h : readStep recursive segment = .ok s)
    (hthrough : Nesting.start.through segment = .start) : s.Spells .paired segment := by
  obtain ⟨axis, test, ps, hread, hps, hbare, rfl⟩ := readStep_eq_ok.1 h
  have hhead := readHead_eq_ok.1 hread
  obtain ⟨k, hdepth, hspells⟩ := spells_of_readPredicates _ hps
  have hsegment : segment.takeWhile (· != '[') ++ segment.dropWhile (· != '[') = segment :=
    List.takeWhile_append_dropWhile
  have hk : k = 0 := by
    have hinert := isInert_of_trimChars hhead.isWordChar
    rw [← hsegment, Nesting.through_append, Nesting.start, Nesting.through_inert hinert, hdepth] at hthrough
    simpa using hthrough
  rw [← hsegment]
  exact .mk hhead (hspells hk) fun haxis => by_contra fun hne => hbare ⟨hne, haxis⟩

theorem spells_of_readSteps (hrecursive : recursive = true → segs ≠ [])
    (h : readSteps recursive segs = .ok steps) (hthrough : ∀ t ∈ segs, Nesting.start.through t = .start) :
    SpellsSteps .paired steps ((if recursive then ['/'] else []) ++ segs.flatMap ('/' :: ·)) := by
  induction segs generalizing recursive steps with
  | nil =>
      cases h
      cases recursive with
      | false => exact .nil
      | true => exact absurd rfl (hrecursive rfl)
  | cons segment segs ih =>
      have hbehind := fun t ht => hthrough t (List.mem_cons_of_mem _ ht)
      rcases readSteps_cons_cases h with ⟨rfl, hne, rfl, hrest⟩ | ⟨s, more, hs, hrest, rfl⟩
      · exact ih (fun _ => hne) hrest hbehind
      · have hspells := spells_of_readStep hs (hthrough segment List.mem_cons_self)
        have hseparator : s.separator = (if recursive then ['/'] else []) ++ ['/'] := by
          rw [Step.separator, recursive_readStep hs]
          cases recursive <;> rfl
        have hcons := SpellsSteps.cons hspells (ih (by simp) hrest hbehind)
        rw [hseparator, List.append_assoc] at hcons
        exact hcons

/-- Steps are cut at their separators and read one by one. -/
theorem readSteps_of_spells (h : SpellsSteps .paired steps text) :
    ∃ segs, segmentsFrom .start text = .ok ([] :: segs) ∧ readSteps false segs = .ok steps := by
  induction h with
  | nil => exact ⟨[], rfl, rfl⟩
  | cons hs _ ih =>
      rename_i s steps text rest _
      obtain ⟨segs, hsegs, hread⟩ := ih
      have hcut : segmentsFrom .start (text ++ rest) = .ok (text :: segs) := by
        rw [hs.passes _ _ hsegs, foldr_consFirst, List.append_nil]
      have hsteps : readSteps s.recursive (text :: segs) = .ok (s :: steps) := by
        rw [readSteps_of_readStep (readStep_of_spells hs), hread]
        rfl
      rw [Step.separator]
      split <;> rename_i hrecursive
      · rw [hrecursive] at hsteps
        refine ⟨[] :: text :: segs, ?_, ?_⟩
        · rw [List.cons_append, List.cons_append, List.nil_append, segmentsFrom_slash, segmentsFrom_slash, hcut]
          rfl
        · rw [readSteps_nil_cons (by simp), hsteps]
      · rw [Bool.not_eq_true] at hrecursive
        rw [hrecursive] at hsteps
        refine ⟨text :: segs, ?_, hsteps⟩
        rw [List.cons_append, List.nil_append, segmentsFrom_slash, hcut]
        rfl

/-! ## Paths -/

theorem spells_of_readTrimmed (h : readTrimmed cs = .ok path) : path.Spells .paired cs := by
  rcases segments_of_readTrimmed h with ⟨body, segs, rfl, hsegs⟩ | ⟨c, rest, segs, rfl, hc, hsegs⟩
  · rw [readTrimmed_absolute hsegs] at h
    split at h
    · rename_i hroot
      cases h
      rw [hroot] at hsegs
      rw [eq_nil_of_segments hsegs]
      exact .root
    · obtain ⟨steps, hsteps, rfl⟩ := map_eq_ok h
      obtain ⟨s, more, rfl, hs, hmore, rfl⟩ := segmentsFrom_through hsegs
      have hspells := spells_of_readSteps (by simp) hsteps (List.forall_mem_cons.2 ⟨hs, hmore⟩)
      obtain ⟨step, steps, rfl⟩ := List.exists_cons_of_ne_nil (readSteps_ne_nil (by simp) hsteps)
      exact .absolute hspells
  · rw [readTrimmed_relative hc hsegs] at h
    obtain ⟨steps, hsteps, rfl⟩ := map_eq_ok h
    obtain ⟨s, more, rfl, hs, hmore, hcs⟩ := segmentsFrom_through hsegs
    rw [hcs]
    rcases readSteps_cons_cases hsteps with ⟨rfl, hne, _, _⟩ | ⟨step, behind, hstep, hrest, rfl⟩
    · -- without a first segment the path would begin with a separator
      obtain ⟨t, more, rfl⟩ := List.exists_cons_of_ne_nil hne
      cases hcs
      exact absurd rfl hc
    · exact .relative (spells_of_readStep hstep hs) (recursive_readStep hstep)
        (spells_of_readSteps (by simp) hrest hmore)

theorem SpellsHead.ne_nil (h : SpellsHead axis test text) : text ≠ [] := by
  cases h with
  | self | parent | any | text | node | anyAttr | attr => simp
  | child hname =>
      obtain ⟨c, cs, hcons, _⟩ := exists_cons_of_isName hname
      simp [hcons]

/-- No step begins with a separator. -/
theorem Step.Spells.exists_cons (h : s.Spells rule text) : ∃ c cs, text = c :: cs ∧ c ≠ '/' := by
  cases h with
  | mk hhead hps _ =>
      rename_i head rest _
      cases head with
      | nil => exact absurd rfl hhead.ne_nil
      | cons c cs =>
          have hinert := isInert_of_trimChars hhead.isWordChar c List.mem_cons_self
          exact ⟨c, cs ++ rest, rfl, (isInert_iff.1 hinert).1⟩

theorem SpellsSteps.exists_cons (h : SpellsSteps rule (s :: steps) text) : ∃ body, text = '/' :: body := by
  cases h with
  | cons _ _ =>
      rw [Step.separator]
      split <;> exact ⟨_, rfl⟩

theorem readTrimmed_of_spells (h : path.Spells .paired cs) : readTrimmed cs = .ok path := by
  cases h with
  | root => rfl
  | absolute hspells =>
      obtain ⟨segs, hsegs, hsteps⟩ := readSteps_of_spells hspells
      obtain ⟨body, rfl⟩ := hspells.exists_cons
      rw [segmentsFrom_slash] at hsegs
      obtain ⟨front, hfront, heq⟩ := map_eq_ok hsegs
      cases heq
      have hroot : segs ≠ [[]] := by
        rintro rfl
        cases hsteps
      rw [readTrimmed_absolute hfront, if_neg hroot, hsteps]
      rfl
  | relative hs hrecursive hrest =>
      obtain ⟨segs, hsegs, hsteps⟩ := readSteps_of_spells hrest
      have hcut := hs.passes _ _ hsegs
      rw [foldr_consFirst, List.append_nil] at hcut
      have hread := readStep_of_spells hs
      rw [hrecursive] at hread
      obtain ⟨c, cs, rfl, hc⟩ := hs.exists_cons
      rw [List.cons_append] at hcut ⊢
      rw [readTrimmed_relative hc hcut, readSteps_of_readStep hread, hsteps]
      rfl

/-- What is read as a path is what the grammar says it is. -/
theorem parse_eq_ok_iff_spells {text : String} :
    parse text = .ok path ↔ path.Spells .paired (trimChars text.toList) :=
  parse_eq_ok.trans ⟨spells_of_readTrimmed, readTrimmed_of_spells⟩

/-! ## Rules for literals -/

section Rules

variable {other : LiteralRule}

/-- On some literals one rule is at least as strict as another. -/
def LiteralRule.StricterOn (rule other : LiteralRule) (literals : List String) : Prop :=
  ∀ literal ∈ literals, ∀ quote, quote = '\'' ∨ quote = '"' →
    rule quote literal.toList → other quote literal.toList

theorem Predicate.Spells.mono (h : p.Spells rule text) (hrule : rule.StricterOn other p.literal?.toList) :
    p.Spells other text := by
  cases h with
  | position hdigits hpos hlt => exact .position hdigits hpos hlt
  | last => exact .last
  | holds hoperand => exact .holds hoperand
  | equals hoperand hquote hright hliteral =>
      exact .equals hoperand hquote hright (hrule _ (by simp [Predicate.literal?]) _ hquote hliteral)

theorem SpellsPredicates.mono (h : SpellsPredicates rule ps text)
    (hrule : rule.StricterOn other (ps.filterMap Predicate.literal?)) : SpellsPredicates other ps text := by
  induction h with
  | nil => exact .nil
  | cons hp hblanks _ ih =>
      refine .cons (hp.mono fun literal hmem => hrule literal ?_) hblanks
        (ih fun literal hmem => hrule literal ?_)
      · rw [Option.mem_toList] at hmem
        exact List.mem_filterMap.2 ⟨_, List.mem_cons_self, hmem⟩
      · obtain ⟨q, hq, hliteral⟩ := List.mem_filterMap.1 hmem
        exact List.mem_filterMap.2 ⟨q, List.mem_cons_of_mem _ hq, hliteral⟩

theorem Step.Spells.mono (h : s.Spells rule text) (hrule : rule.StricterOn other s.literals) :
    s.Spells other text := by
  cases h with
  | mk hhead hps hbare => exact .mk hhead (hps.mono hrule) hbare

theorem SpellsSteps.mono (h : SpellsSteps rule steps text)
    (hrule : rule.StricterOn other (steps.flatMap Step.literals)) : SpellsSteps other steps text := by
  induction h with
  | nil => exact .nil
  | cons hs _ ih =>
      rw [List.flatMap_cons] at hrule
      exact .cons (hs.mono fun literal hmem => hrule literal (List.mem_append_left _ hmem))
        (ih fun literal hmem => hrule literal (List.mem_append_right _ hmem))

/-- A text that the grammar has for a path under one rule it has under any other that is not stricter on the
literals of the path. -/
theorem Spells.mono (h : path.Spells rule text) (hrule : rule.StricterOn other path.literals) :
    path.Spells other text := by
  cases h with
  | root => exact .root
  | absolute hsteps => exact .absolute (hsteps.mono hrule)
  | relative hs hrecursive hrest =>
      rw [literals, List.flatMap_cons] at hrule
      exact .relative (hs.mono fun literal hmem => hrule literal (List.mem_append_left _ hmem)) hrecursive
        (hrest.mono fun literal hmem => hrule literal (List.mem_append_right _ hmem))

end Rules

/-! ## Texts that are read -/

/-- A text is read as a path exactly if the grammar has it for that path, where a literal may hold its own quote
as long as all quotes pair up; any other text is reported as no path. Only a literal that holds a quote takes a
text out of the grammar in which literals end at the quote that they began with. -/
theorem parse_by_grammar (text : String) :
    (∀ p, parse text = .ok p ↔ p.Spells .paired (trimChars text.toList)) ∧
      ((∃ flaw, parse text = .error ⟨text, flaw⟩) ↔ ¬∃ p : Path, p.Spells .paired (trimChars text.toList)) ∧
      ∀ p, parse text = .ok p → p.Spells .single (trimChars text.toList) ∨
        ∃ literal ∈ p.literals, '\'' ∈ literal.toList ∨ '"' ∈ literal.toList := by
  refine ⟨fun p => parse_eq_ok_iff_spells, ⟨?_, fun hnone => ?_⟩, fun p h => ?_⟩
  · rintro ⟨flaw, herror⟩ ⟨p, hspells⟩
    rw [parse_eq_ok_iff_spells.2 hspells] at herror
    cases herror
  · cases hread : readTrimmed (trimChars text.toList) with
    | ok p => exact absurd ⟨p, spells_of_readTrimmed hread⟩ hnone
    | error flaw => exact ⟨flaw, parse_eq_error hread⟩
  · refine or_iff_not_imp_right.2 fun hfree => (parse_eq_ok_iff_spells.1 h).mono ?_
    rintro literal hmem quote (rfl | rfl) _ hquote
    · exact hfree ⟨literal, hmem, Or.inl hquote⟩
    · exact hfree ⟨literal, hmem, Or.inr hquote⟩

/-- Two conditions are read as one, and what stands between their outer quotes as its literal. -/
theorem parse_two_conditions :
    parse "/a[@a='x' and @b='y']" =
        .ok ⟨true, [⟨false, .child, .name "a", [.equals (.attr "a") "x' and @b='y"]⟩]⟩ ∧
      '\'' ∈ "x' and @b='y".toList := by
  decide +kernel

end Interchange.Path
