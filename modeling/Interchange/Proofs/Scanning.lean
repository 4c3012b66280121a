import Interchange.Path.Grammar
import Interchange.Proofs.Splitting

/-!
# What scanners pass over

A path is scanned three times: for separators, for closing brackets and for an equals sign. Names, numbers and
the texts of heads and operands hold nothing that these scans look for, and a text in which quotes pair up takes
them back to where they were (`Passes.of_pairs`, `cutBracket_of_pairs`).
-/

namespace Interchange.Path

open Text (isBlank trimChars trimLeft trimRight)

variable {n m k : Nesting} {c q : Char} {cs t u blanks rest inside after name : List Char}
  {segs : List (List Char)} {quote : Option Char}

/-! ## Characters -/

/-- Characters that open, close and separate nothing. -/
def isInert (c : Char) : Bool := c != '/' && c != '[' && c != ']' && c != '\'' && c != '"'

theorem isInert_iff : isInert c = true ↔ c ≠ '/' ∧ c ≠ '[' ∧ c ≠ ']' ∧ c ≠ '\'' ∧ c ≠ '"' := by
  simp [isInert, and_assoc]

/-- Characters of words: inert ones that are neither white space nor an equals sign. -/
def isWordChar (c : Char) : Bool := isInert c && !isBlank c && c != '='

theorem isInert_of_isWordChar (h : isWordChar c = true) : isInert c = true := by
  simp only [isWordChar, Bool.and_eq_true] at h
  exact h.1.1

theorem isBlank_of_isWordChar (h : isWordChar c = true) : isBlank c = false := by
  simp only [isWordChar, Bool.and_eq_true, Bool.not_eq_true'] at h
  exact h.1.2

theorem ne_equals_of_isWordChar (h : isWordChar c = true) : c ≠ '=' := by
  simp only [isWordChar, Bool.and_eq_true, bne_iff_ne] at h
  exact h.2

theorem isInert_of_isBlank (h : isBlank c = true) : isInert c = true :=
  isInert_iff.2 ⟨ne_of_isBlank h rfl, ne_of_isBlank h rfl, ne_of_isBlank h rfl, ne_of_isBlank h rfl,
    ne_of_isBlank h rfl⟩

/-- The numbers of the characters that are white space. -/
def blankCodes : List Nat :=
  List.range' 9 5 ++ [32, 0x85, 0xA0, 0x1680] ++ List.range' 0x2000 11 ++
    [0x2028, 0x2029, 0x202F, 0x205F, 0x3000]

theorem toNat_mem_blankCodes (h : isBlank c = true) : c.toNat ∈ blankCodes := by
  simp only [isBlank, Bool.or_eq_true, Bool.and_eq_true, decide_eq_true_eq, beq_iff_eq] at h
  simp only [blankCodes, List.mem_append, List.mem_range'_1, List.mem_cons, List.not_mem_nil, or_false]
  omega

/-- A class of characters is checked over their numbers. -/
theorem toNat_notMem_of_codes {p : Char → Bool} {codes : List Nat}
    (hcodes : ∀ code ∈ codes, p (Char.ofNat code) = false) (h : p c = true) : c.toNat ∉ codes := by
  intro hmem
  have hnone := hcodes c.toNat hmem
  rw [Char.ofNat_toNat, h] at hnone
  cases hnone

/-- No white space occurs in names. -/
theorem isBlank_of_isNameChar (h : isNameChar c = true) : isBlank c = false := by
  have hcodes : ∀ code ∈ blankCodes, isNameChar (Char.ofNat code) = false := by decide +kernel
  exact Bool.eq_false_iff.2 fun hblank => toNat_notMem_of_codes hcodes h (toNat_mem_blankCodes hblank)

theorem isWordChar_of_isNameChar (h : isNameChar c = true) : isWordChar c = true := by
  have hne : ∀ d : Char, isNameChar d = false → c ≠ d := by
    rintro d hd rfl
    rw [h] at hd
    cases hd
  simp only [isWordChar, Bool.and_eq_true, Bool.not_eq_true', bne_iff_ne, isInert_iff]
  exact ⟨⟨⟨hne _ (by decide), hne _ (by decide), hne _ (by decide), hne _ (by decide), hne _ (by decide)⟩,
    isBlank_of_isNameChar h⟩, hne _ (by decide)⟩

theorem isWordChar_of_isDigit (h : c.isDigit = true) : isWordChar c = true := by
  have hascii : c.toNat < 0x80 := by
    have hle := (Char.isDigit_iff_toNat.1 h).2
    have hnine : '9'.toNat = 57 := rfl
    omega
  refine isWordChar_of_isNameChar ?_
  simp [isNameChar, Text.isAlphanumeric, Text.isNumeric, hascii, h]

/-- No name begins with a digit. -/
theorem isDigit_of_isNameStart (h : (Text.isAlphabetic c || c == '_') = true) : c.isDigit = false := by
  have hcodes : ∀ code ∈ List.range' 48 10,
      (Text.isAlphabetic (Char.ofNat code) || Char.ofNat code == '_') = false := by decide
  refine Bool.eq_false_iff.2 fun hdigit => ?_
  obtain ⟨hzero, hnine⟩ := Char.isDigit_iff_toNat.1 hdigit
  have hmem : c.toNat ∈ List.range' 48 10 := List.mem_range'_1.2 ⟨hzero, Nat.lt_succ_of_le hnine⟩
  exact toNat_notMem_of_codes (p := fun c => Text.isAlphabetic c || c == '_') hcodes h hmem

theorem exists_cons_of_isName (h : isName name = true) :
    ∃ c cs, name = c :: cs ∧ c.isDigit = false ∧ ∀ d ∈ name, isWordChar d = true := by
  cases name with
  | nil => cases h
  | cons c cs =>
      simp only [isName, Bool.and_eq_true] at h
      obtain ⟨⟨hfirst, hrest⟩, _⟩ := h
      refine ⟨c, cs, rfl, isDigit_of_isNameStart hfirst, fun d hd => isWordChar_of_isNameChar ?_⟩
      rcases List.mem_cons.1 hd with rfl | hd
      · simp only [Bool.or_eq_true, beq_iff_eq] at hfirst
        simp only [isNameChar, Text.isAlphanumeric, Bool.or_eq_true, beq_iff_eq]
        tauto
      · exact List.all_eq_true.1 hrest d hd

theorem isWordChar_of_isName (h : isName name = true) : ∀ d ∈ name, isWordChar d = true := by
  obtain ⟨_, _, _, _, hwords⟩ := exists_cons_of_isName h
  exact hwords

theorem ne_of_isName {other : List Char} (h : isName name = true) (hother : isName other = false) :
    name ≠ other := by
  rintro rfl
  rw [h] at hother
  cases hother

/-- White space around a text, and what is left when it is dropped. -/
theorem exists_blanks_trimChars (cs : List Char) : ∃ front back, cs = front ++ (trimChars cs ++ back) ∧
    (∀ b ∈ front, isBlank b = true) ∧ ∀ b ∈ back, isBlank b = true := by
  obtain ⟨back, hback, hblanks⟩ := trimRight_eq_append (trimLeft cs)
  refine ⟨cs.takeWhile isBlank, back, ?_, fun b => List.mem_takeWhile_imp, hblanks⟩
  rw [trimChars, ← hback]
  exact List.takeWhile_append_dropWhile.symm

theorem trimChars_sublist (cs : List Char) : (trimChars cs).Sublist cs := by
  obtain ⟨front, back, hcs, -, -⟩ := exists_blanks_trimChars cs
  have hmiddle : (trimChars cs).Sublist (front ++ (trimChars cs ++ back)) :=
    (List.sublist_append_left _ back).trans (List.sublist_append_right front _)
  rwa [← hcs] at hmiddle

theorem isWordChar_or_isBlank (h : ∀ d ∈ trimChars cs, isWordChar d = true) (hc : c ∈ cs) :
    isWordChar c = true ∨ isBlank c = true := by
  obtain ⟨front, back, hcs, hfront, hback⟩ := exists_blanks_trimChars cs
  rw [hcs, List.mem_append, List.mem_append] at hc
  rcases hc with hc | hc | hc
  · exact Or.inr (hfront c hc)
  · exact Or.inl (h c hc)
  · exact Or.inr (hback c hc)

/-- A word with white space around it is inert. -/
theorem isInert_of_trimChars (h : ∀ d ∈ trimChars cs, isWordChar d = true) : ∀ d ∈ cs, isInert d = true :=
  fun _ hd => (isWordChar_or_isBlank h hd).elim isInert_of_isWordChar isInert_of_isBlank

theorem equals_notMem_of_trimChars (h : ∀ d ∈ trimChars cs, isWordChar d = true) : '=' ∉ cs := fun hmem =>
  (isWordChar_or_isBlank h hmem).elim (fun hword => ne_equals_of_isWordChar hword rfl)
    fun hblank => ne_of_isBlank hblank rfl rfl

/-! ## Quotes in pairs -/

theorem quoteAfter_inert (hc : isInert c = true) : quoteAfter none c = none := by
  obtain ⟨_, _, _, hsingle, hdouble⟩ := isInert_iff.1 hc
  simp [quoteAfter, hsingle, hdouble]

theorem pairs_inert_append (ht : ∀ d ∈ t, isInert d = true) : Pairs none (t ++ u) ↔ Pairs none u := by
  induction t with
  | nil => rfl
  | cons c t ih =>
      have hc := ht c List.mem_cons_self
      obtain ⟨_, hopen, hclose, _⟩ := isInert_iff.1 hc
      rw [List.cons_append, Pairs, quoteAfter_inert hc, ih fun d hd => ht d (List.mem_cons_of_mem _ hd)]
      simp [hopen, hclose]

theorem pairs_inert (ht : ∀ d ∈ t, isInert d = true) : Pairs none t := by
  rw [← List.append_nil t]
  exact (pairs_inert_append ht).2 rfl

/-- White space closes no quote. -/
theorem pairs_append_blanks (hquote : (Nesting.mk 0 quote).Plain) (hblanks : ∀ b ∈ blanks, isBlank b = true) :
    Pairs quote (t ++ blanks) ↔ Pairs quote t := by
  induction t generalizing quote with
  | nil =>
      cases quote with
      | none => exact iff_of_true (pairs_inert fun b hb => isInert_of_isBlank (hblanks b hb)) rfl
      | some q =>
          have hopen : ¬Pairs (some q) blanks := by
            induction blanks with
            | nil => simp [Pairs]
            | cons b blanks ih =>
                have hne : b ≠ q := ne_of_isBlank (hblanks b List.mem_cons_self) (hquote q rfl)
                rw [Pairs, quoteAfter, if_neg hne]
                exact fun h => ih (fun d hd => hblanks d (List.mem_cons_of_mem _ hd)) h.2
          exact iff_of_false hopen (by simp [Pairs])
  | cons c t ih =>
      have hafter : (Nesting.mk 0 (quoteAfter quote c)).Plain := Nesting.Plain.after (c := c) hquote
      rw [List.cons_append, Pairs, Pairs, ih hafter]

theorem pairs_trimChars : Pairs none (trimChars cs) ↔ Pairs none cs := by
  obtain ⟨front, back, hcs, hfront, hback⟩ := exists_blanks_trimChars cs
  rw [← pairs_append_blanks .start hback (t := trimChars cs),
    ← pairs_inert_append fun b hb => isInert_of_isBlank (hfront b hb), ← hcs]

theorem pairs_of_notMem (hq : q ∉ t) (h : Pairs none u) : Pairs (some q) (t ++ q :: u) := by
  induction t with
  | nil =>
      rw [List.nil_append, Pairs, quoteAfter, if_pos rfl]
      exact ⟨by simp, h⟩
  | cons c t ih =>
      rw [List.mem_cons, not_or] at hq
      rw [List.cons_append, Pairs, quoteAfter, if_neg (Ne.symm hq.1)]
      exact ⟨by simp, ih hq.2⟩

/-- In a literal that does not hold its quote, quotes pair up. -/
theorem LiteralRule.paired_of_single (hquote : q = '\'' ∨ q = '"') (h : LiteralRule.single q t) :
    LiteralRule.paired q t := by
  have hopen : quoteAfter none q = some q := by
    rcases hquote with rfl | rfl <;> rfl
  rw [paired, List.cons_append, Pairs, hopen]
  refine ⟨fun _ => ?_, pairs_of_notMem h rfl⟩
  rcases hquote with rfl | rfl <;> decide

/-! ## Separators -/

/-- A text takes the scan for separators from one place to another and stays within a segment. -/
def Passes (n : Nesting) (t : List Char) (m : Nesting) : Prop :=
  ∀ rest segs, segmentsFrom m rest = .ok segs → segmentsFrom n (t ++ rest) = .ok (t.foldr consFirst segs)

theorem foldr_consFirst {s : List Char} : t.foldr consFirst (s :: segs) = (t ++ s) :: segs := by
  induction t with
  | nil => rfl
  | cons c t ih =>
      rw [List.foldr_cons, ih]
      rfl

namespace Passes

theorem nil : Passes n [] n := fun _ _ h => h

theorem cons (hslash : ¬(n.isOutside = true ∧ c = '/')) (hbracket : ¬(n.isOutside = true ∧ c = ']'))
    (h : Passes (n.after c) t m) : Passes n (c :: t) m := fun rest segs hsegs =>
  segmentsFrom_cons_of_ok hslash hbracket (h rest segs hsegs)

theorem append (h : Passes n t m) (hu : Passes m u k) : Passes n (t ++ u) k := by
  intro rest segs hsegs
  rw [List.append_assoc, List.foldr_append]
  exact h _ _ (hu _ _ hsegs)

end Passes

theorem after_inert {depth : Nat} (hc : isInert c = true) :
    (Nesting.mk depth none).after c = ⟨depth, none⟩ := by
  obtain ⟨_, hopen, hclose, _⟩ := isInert_iff.1 hc
  simp [Nesting.after, Nesting.depthAfter, quoteAfter_inert hc, hopen, hclose]

theorem Nesting.after_open {depth : Nat} : (Nesting.mk depth none).after '[' = ⟨depth + 1, none⟩ := rfl

theorem Nesting.after_close {depth : Nat} : (Nesting.mk (depth + 1) none).after ']' = ⟨depth, none⟩ := rfl

theorem Passes.of_inert (ht : ∀ d ∈ t, isInert d = true) : Passes .start t .start := by
  induction t with
  | nil => exact .nil
  | cons c t ih =>
      have hc := ht c List.mem_cons_self
      obtain ⟨hslash, _, hclose, _⟩ := isInert_iff.1 hc
      have hafter : Nesting.start.after c = .start := after_inert hc
      refine .cons (fun h => hslash h.2) (fun h => hclose h.2) ?_
      rw [hafter]
      exact ih fun d hd => ht d (List.mem_cons_of_mem _ hd)

/-- Within brackets, a text in which quotes pair up leads back to where it began. -/
theorem Passes.of_pairs {depth : Nat} (h : Pairs quote t) : Passes ⟨depth + 1, quote⟩ t ⟨depth + 1, none⟩ := by
  induction t generalizing quote with
  | nil =>
      rw [show quote = none from h]
      exact .nil
  | cons c t ih =>
      obtain ⟨hbracket, hrest⟩ := h
      have hinside : (Nesting.mk (depth + 1) quote).isOutside = false := rfl
      refine .cons (by simp [hinside]) (by simp [hinside]) ?_
      have hafter : (Nesting.mk (depth + 1) quote).after c = ⟨depth + 1, quoteAfter quote c⟩ := by
        cases quote with
        | none => simp [Nesting.after, Nesting.depthAfter, hbracket rfl]
        | some q => simp [Nesting.after, Nesting.depthAfter]
      rw [hafter]
      exact ih hrest

theorem Passes.of_bracketed (hpairs : Pairs none t) (h : Passes .start u .start) :
    Passes .start ('[' :: (t ++ ']' :: u)) .start := by
  have hclose : Passes ⟨1, none⟩ (']' :: u) .start := .cons (by decide) (by decide) h
  exact .cons (by decide) (by decide) ((of_pairs hpairs).append hclose)

/-- Where a text leads. -/
def Nesting.through (n : Nesting) (t : List Char) : Nesting := t.foldl Nesting.after n

theorem Nesting.through_cons : n.through (c :: t) = (n.after c).through t := rfl

theorem Nesting.through_append : n.through (t ++ u) = (n.through t).through u := List.foldl_append

theorem Nesting.through_inert {depth : Nat} (ht : ∀ d ∈ t, isInert d = true) :
    (Nesting.mk depth none).through t = ⟨depth, none⟩ := by
  induction t with
  | nil => rfl
  | cons c t ih =>
      rw [through, List.foldl_cons, after_inert (ht c List.mem_cons_self)]
      exact ih fun d hd => ht d (List.mem_cons_of_mem _ hd)

/-- The segments of a path, joined by separators, are the path, and each leads back outside. -/
theorem segmentsFrom_through (h : segmentsFrom n cs = .ok segs) : ∃ s more, segs = s :: more ∧
    n.through s = .start ∧ (∀ t ∈ more, Nesting.start.through t = .start) ∧
    cs = s ++ more.flatMap ('/' :: ·) := by
  induction cs generalizing n segs with
  | nil =>
      rw [segmentsFrom] at h
      split at h
      · cases h
      · rename_i hquote
        split at h
        · cases h
        · rename_i hdepth
          cases h
          refine ⟨[], [], rfl, Nesting.eq_start ?_, by simp, rfl⟩
          simpa [Nesting.through, Nesting.isOutside] using And.intro hdepth hquote
  | cons c cs ih =>
      by_cases hc : n.isOutside = true ∧ c = '/'
      · obtain ⟨hout, rfl⟩ := hc
        obtain rfl := Nesting.eq_start hout
        rw [segmentsFrom_slash] at h
        obtain ⟨rest, hrest, rfl⟩ := map_eq_ok h
        obtain ⟨s, more, rfl, hs, hmore, rfl⟩ := ih hrest
        refine ⟨[], s :: more, rfl, rfl, ?_, rfl⟩
        intro t ht
        rcases List.mem_cons.1 ht with rfl | ht
        · exact hs
        · exact hmore t ht
      · obtain ⟨rest, hrest, rfl⟩ := segmentsFrom_cons hc h
        obtain ⟨s, more, rfl, hs, hmore, rfl⟩ := ih hrest
        exact ⟨c :: s, more, rfl, hs, hmore, rfl⟩

/-! ## Closing brackets -/

/-- A predicate ends at the first bracket behind paired quotes. -/
theorem cutBracket_of_pairs (h : Pairs quote t) : cutBracket quote (t ++ ']' :: rest) = some (t, rest) := by
  induction t generalizing quote with
  | nil =>
      rw [show quote = none from h]
      rfl
  | cons c t ih =>
      have hopen : ¬(quote.isNone && c == ']') = true := by
        simp only [Bool.and_eq_true, Option.isNone_iff_eq_none, beq_iff_eq, not_and]
        exact fun hnone => (h.1 hnone).2
      rw [List.cons_append, cutBracket, if_neg hopen, ih h.2]
      rfl

/-- The brackets that a text opens outside quotes. -/
def opened : Option Char → List Char → Nat
  | _, [] => 0
  | quote, c :: rest => (if quote = none ∧ c = '[' then 1 else 0) + opened (quoteAfter quote c) rest

/-- What is cut off at a closing bracket goes as deep as it opens brackets; where it opens none, its quotes
pair up. -/
theorem cutBracket_eq_some (h : cutBracket quote cs = some (inside, after)) :
    cs = inside ++ ']' :: after ∧
      (∀ depth, (Nesting.mk (depth + 1) quote).through inside = ⟨depth + 1 + opened quote inside, none⟩) ∧
      (opened quote inside = 0 → Pairs quote inside) := by
  induction cs generalizing quote inside with
  | nil => cases h
  | cons c cs ih =>
      rw [cutBracket] at h
      split at h
      · rename_i hclose
        cases h
        obtain ⟨hnone, rfl⟩ : quote = none ∧ c = ']' := by simpa using hclose
        subst hnone
        exact ⟨rfl, fun _ => rfl, fun _ => rfl⟩
      · rename_i hclose
        obtain ⟨⟨front, back⟩, hcut, heq⟩ := Option.map_eq_some_iff.1 h
        cases heq
        obtain ⟨rfl, hdepth, hpairs⟩ := ih hcut
        have hne : quote = none → c ≠ ']' := by simpa using hclose
        refine ⟨rfl, fun depth => ?_, fun hopened => ?_⟩
        · have hafter : (Nesting.mk (depth + 1) quote).after c =
              ⟨depth + 1 + (if quote = none ∧ c = '[' then 1 else 0), quoteAfter quote c⟩ := by
            cases quote with
            | none => by_cases hc : c = '[' <;> simp [Nesting.after, Nesting.depthAfter, hc, hne rfl]
            | some q => simp [Nesting.after, Nesting.depthAfter]
          have hbehind := hdepth (depth + if quote = none ∧ c = '[' then 1 else 0)
          rw [Nat.add_right_comm] at hbehind
          rw [Nesting.through, List.foldl_cons, hafter, opened, ← Nat.add_assoc]
          exact hbehind
        · rw [opened, Nat.add_eq_zero_iff] at hopened
          refine ⟨fun hnone => ⟨fun hc => ?_, hne hnone⟩, hpairs hopened.2⟩
          simp [hnone, hc] at hopened

end Interchange.Path
