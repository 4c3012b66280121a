import Interchange.Path.Writing
import Interchange.Proofs.Grammar

/-!
# Reading what is written

A well-formed path that is written down in the grammar, each literal between quotes that it does not hold, is
read back as that path (`Path.parse_written`). What is written has no white space at its ends, and no part of it
has, so that nothing is lost where readers drop white space.
-/

namespace Interchange.Path

open Text (isBlank trimChars trimLeft trimRight dropTail)

/-! ## Texts without white space at their ends -/

variable {cs ds : List Char}

/-- Neither the first nor the last character is white space. -/
def Trimmed (cs : List Char) : Prop :=
  (∀ c ∈ cs.head?, isBlank c = false) ∧ ∀ c ∈ cs.getLast?, isBlank c = false

namespace Trimmed

theorem trimChars (h : Trimmed cs) : trimChars cs = cs := by
  obtain ⟨hfirst, hlast⟩ := h
  have hdrop : ∀ l : List Char, (∀ c ∈ l.head?, isBlank c = false) → l.dropWhile isBlank = l := by
    intro l hl
    cases l with
    | nil => rfl
    | cons c l => exact List.dropWhile_cons_of_neg (by simpa using hl c rfl)
  rw [Text.trimChars, trimLeft, hdrop cs hfirst, trimRight, dropTail, hdrop cs.reverse, List.reverse_reverse]
  rwa [List.head?_reverse]

theorem append (h : Trimmed cs) (hd : Trimmed ds) : Trimmed (cs ++ ds) := by
  refine ⟨fun c hc => ?_, fun c hc => ?_⟩
  · rw [List.head?_append, Option.mem_def, Option.or_eq_some_iff] at hc
    exact hc.elim (h.1 c) fun hc => hd.1 c hc.2
  · rw [List.getLast?_append, Option.mem_def, Option.or_eq_some_iff] at hc
    exact hc.elim (hd.2 c) fun hc => h.2 c hc.2

theorem nil : Trimmed [] := ⟨by simp, by simp⟩

theorem single {c : Char} (h : isBlank c = false) : Trimmed [c] := ⟨by simpa using h, by simpa using h⟩

theorem of_forall (h : ∀ c ∈ cs, isBlank c = false) : Trimmed cs :=
  ⟨fun c hc => h c (List.mem_of_mem_head? hc), fun c hc => h c (List.mem_of_mem_getLast? hc)⟩

theorem of_words (h : ∀ d ∈ cs, isWordChar d = true) : Trimmed cs :=
  of_forall fun c hc => isBlank_of_isWordChar (h c hc)

/-- What stands between two characters that are no white space does not matter. -/
theorem between {c d : Char} (hc : isBlank c = false) (hd : isBlank d = false) :
    Trimmed (c :: (cs ++ [d])) := by
  refine ⟨fun b hb => ?_, fun b hb => ?_⟩
  · cases hb
    exact hc
  · rw [← List.cons_append, List.getLast?_concat] at hb
    cases hb
    exact hd

theorem flatMap {α : Type} {f : α → List Char} {xs : List α} (h : ∀ x ∈ xs, Trimmed (f x)) :
    Trimmed (xs.flatMap f) := by
  induction xs with
  | nil => exact nil
  | cons x xs ih =>
      rw [List.flatMap_cons]
      exact (h x List.mem_cons_self).append (ih fun y hy => h y (List.mem_cons_of_mem _ hy))

end Trimmed

/-! ## What is written -/

variable {quoteOf : String → Char} {operand : Operand} {q : Predicate} {s : Step} {steps : List Step} {p : Path}

theorem Operand.spells_chars (h : operand.WellFormed) : operand.Spells operand.chars := by
  cases operand with
  | attr name => exact .attr h
  | child name => exact .child h
  | context => exact .self

theorem digitsValue_toDigits (n : Nat) : digitsValue (Nat.toDigits 10 n) = n := by
  calc
    digitsValue (Nat.toDigits 10 n) = Nat.ofDigitChars 10 (Nat.toDigits 10 n) 0 := by
      simp only [digitsValue, Nat.ofDigitChars_eq_foldl, Nat.mul_comm]
    _ = n := Nat.ofDigitChars_ten_toDigits

theorem isDigit_of_mem_toDigits {n : Nat} : ∀ c ∈ Nat.toDigits 10 n, c.isDigit = true := fun _ =>
  Nat.isDigit_of_mem_toDigits (by decide) (by decide)

theorem isBlank_of_quote {c : Char} (h : c = '\'' ∨ c = '"') : isBlank c = false := by
  rcases h with rfl | rfl <;> rfl

theorem Predicate.trimmed_chars (h : q.WellFormed) (hquoted : q.QuotedBy quoteOf) : Trimmed (q.chars quoteOf) := by
  cases q with
  | position n => exact .of_words fun d hd => isWordChar_of_isDigit (isDigit_of_mem_toDigits d hd)
  | last =>
      have hwords : ∀ d ∈ "last()".toList, isWordChar d = true := List.all_eq_true.1 (by decide)
      exact .of_words hwords
  | holds operand => exact .of_words (Operand.spells_chars h).isWordChar
  | equals operand literal =>
      have hquote := isBlank_of_quote hquoted.1
      have hliteral : Trimmed ('=' :: (quoteOf literal :: literal.toList ++ [quoteOf literal])) :=
        .between rfl hquote
      exact (Trimmed.of_words (Operand.spells_chars h.1).isWordChar).append hliteral

theorem Predicate.spells_chars (h : q.WellFormed) (hquoted : q.QuotedBy quoteOf) :
    q.Spells .single (q.chars quoteOf) := by
  cases q with
  | position n =>
      have hdigits := digitsValue_toDigits n
      have hspells : (Predicate.position (digitsValue _)).Spells .single (Nat.toDigits 10 n) :=
        .position isDigit_of_mem_toDigits (hdigits.symm ▸ h.1) (hdigits.symm ▸ h.2)
      rwa [hdigits] at hspells
  | last => exact .last
  | holds operand => exact .holds (Operand.spells_chars h)
  | equals operand literal =>
      obtain ⟨hquote, hfree⟩ := hquoted
      have hspells := Operand.spells_chars h.1
      have hblank := isBlank_of_quote hquote
      have hleft := (Trimmed.of_words hspells.isWordChar).trimChars
      have hright : Trimmed (quoteOf literal :: literal.toList ++ [quoteOf literal]) := .between hblank hblank
      exact .equals (by rwa [hleft]) hquote hright.trimChars hfree

/-- The predicates of a step as they are written. -/
theorem spellsPredicates_chars {ps : List Predicate} (h : ∀ q ∈ ps, q.WellFormed)
    (hquoted : ∀ q ∈ ps, q.QuotedBy quoteOf) :
    SpellsPredicates .single ps (ps.flatMap fun q => '[' :: (q.chars quoteOf ++ [']'])) := by
  induction ps with
  | nil => exact .nil
  | cons q ps ih =>
      obtain ⟨hq, hps⟩ := List.forall_mem_cons.1 h
      obtain ⟨hqQuoted, hpsQuoted⟩ := List.forall_mem_cons.1 hquoted
      have hspells := Predicate.spells_chars hq hqQuoted
      rw [← (Predicate.trimmed_chars hq hqQuoted).trimChars] at hspells
      have hcons := SpellsPredicates.cons hspells (by simp : ∀ b ∈ [], isBlank b = true) (ih hps hpsQuoted)
      simpa using hcons

theorem spellsHead_chars {axis : Axis} {test : NodeTest} (h : axis.Admits test) :
    SpellsHead axis test (headChars axis test) := by
  cases axis with
  | child =>
      cases test with
      | name name => exact .child h
      | any => exact .any
      | text => exact .text
      | node => exact .node
  | attr =>
      cases test with
      | name name => exact .attr h
      | any => exact .anyAttr
      | text | node => cases h
  | self =>
      cases h
      exact .self
  | parent =>
      cases h
      exact .parent

theorem Step.spells_chars (h : s.WellFormed) (hquoted : ∀ q ∈ s.predicates, q.QuotedBy quoteOf) :
    s.Spells .single (s.chars quoteOf) := by
  have hhead := spellsHead_chars h.admits
  rw [← (Trimmed.of_words hhead.isWordChar).trimChars] at hhead
  exact .mk hhead (spellsPredicates_chars h.predicates hquoted) h.bare

theorem Step.trimmed_chars (h : s.WellFormed) : Trimmed (s.chars quoteOf) :=
  (Trimmed.of_words (spellsHead_chars h.admits).isWordChar).append (.flatMap fun _ _ => .between rfl rfl)

theorem spellsSteps_chars (h : ∀ s ∈ steps, s.WellFormed)
    (hquoted : ∀ s ∈ steps, ∀ q ∈ s.predicates, q.QuotedBy quoteOf) :
    SpellsSteps .single steps (stepsChars quoteOf steps) := by
  induction steps with
  | nil => exact .nil
  | cons s steps ih =>
      obtain ⟨hs, hsteps⟩ := List.forall_mem_cons.1 h
      obtain ⟨hsQuoted, hstepsQuoted⟩ := List.forall_mem_cons.1 hquoted
      have hcons := SpellsSteps.cons (Step.spells_chars hs hsQuoted) (ih hsteps hstepsQuoted)
      rwa [← List.append_assoc] at hcons

theorem trimmed_stepsChars (h : ∀ s ∈ steps, s.WellFormed) : Trimmed (stepsChars quoteOf steps) := by
  refine .flatMap fun s hs => Trimmed.append ?_ (Step.trimmed_chars (h s hs))
  rw [Step.separator]
  split
  · exact (Trimmed.single rfl).append (.single rfl)
  · exact .single rfl

/-- A relative path is written like its steps, without the slash in front of the first. -/
theorem chars_relative (hrecursive : s.recursive = false) :
    chars quoteOf ⟨false, s :: steps⟩ = s.chars quoteOf ++ stepsChars quoteOf steps := by
  simp [chars, stepsChars, Step.separator, hrecursive]

/-- A written path is spelled by the grammar, and has no white space at its ends. -/
theorem spells_chars (h : p.WellFormed) (hquoted : p.QuotedBy quoteOf) :
    p.Spells .single (p.chars quoteOf) ∧ Trimmed (p.chars quoteOf) := by
  obtain ⟨absolute, steps⟩ := p
  cases absolute with
  | true =>
      cases steps with
      | nil => exact ⟨.root, .single rfl⟩
      | cons s steps => exact ⟨.absolute (spellsSteps_chars h.steps hquoted), trimmed_stepsChars h.steps⟩
  | false =>
      obtain ⟨s, hs, hrecursive⟩ := h.relative rfl
      cases steps with
      | nil => cases hs
      | cons t steps =>
          cases hs
          obtain ⟨hfirst, hrest⟩ := List.forall_mem_cons.1 h.steps
          obtain ⟨hfirstQuoted, hrestQuoted⟩ := List.forall_mem_cons.1 hquoted
          rw [chars_relative hrecursive]
          exact ⟨.relative (Step.spells_chars hfirst hfirstQuoted) hrecursive
            (spellsSteps_chars hrest hrestQuoted),
            (Step.trimmed_chars hfirst).append (trimmed_stepsChars hrest)⟩

/-! ## Reading it again -/

theorem parse_of_spells_single {text : String} (h : p.Spells .single (trimChars text.toList)) :
    parse text = .ok p :=
  parse_eq_ok_iff_spells.2 (h.mono fun _ _ _ => LiteralRule.paired_of_single)

theorem freeQuote_spec {literal : String} (h : '\'' ∉ literal.toList ∨ '"' ∉ literal.toList) :
    (freeQuote literal = '\'' ∨ freeQuote literal = '"') ∧ freeQuote literal ∉ literal.toList := by
  unfold freeQuote
  split <;> rename_i hsingle
  · exact ⟨Or.inr rfl, h.resolve_left (not_not_intro hsingle)⟩
  · exact ⟨Or.inl rfl, hsingle⟩

theorem quotedBy_freeQuote (h : p.WellFormed) : p.QuotedBy freeQuote := by
  intro s hs q hq
  have hwell := (h.steps s hs).predicates q hq
  cases q with
  | equals operand literal => exact freeQuote_spec hwell.2
  | position | last | holds => trivial

/-- A well-formed path that is written down reads back as itself, whatever quotes its literals get that they do
not hold, and there are such quotes for all of them. So does any other text that the grammar has for the path,
with white space between its parts or with quotes chosen anew for each literal. -/
theorem parse_written (h : p.WellFormed) :
    p.QuotedBy freeQuote ∧
      (∀ quoteOf, p.QuotedBy quoteOf →
        p.Spells .single (p.text quoteOf).toList ∧ parse (p.text quoteOf) = .ok p) ∧
      ∀ text : String, p.Spells .single (trimChars text.toList) → parse text = .ok p := by
  refine ⟨quotedBy_freeQuote h, fun quoteOf hquoted => ?_, fun _ => parse_of_spells_single⟩
  obtain ⟨hspells, htrimmed⟩ := spells_chars h hquoted
  rw [← String.toList_ofList (l := p.chars quoteOf)] at hspells htrimmed
  exact ⟨hspells, parse_of_spells_single (htrimmed.trimChars.symm ▸ hspells)⟩

/-- A path whose literal holds a separator, brackets, an equals sign, white space and a quote. -/
def delimiterPath : Path :=
  ⟨true, [⟨false, .child, .name "ASN", [.last]⟩,
    ⟨true, .child, .name "Line", [.equals (.attr "ref") "a/b [1]='c'", .position 2]⟩,
    ⟨false, .attr, .any, []⟩]⟩

theorem parse_written_delimiters : delimiterPath.WellFormed ∧ delimiterPath.QuotedBy freeQuote ∧
    delimiterPath.text freeQuote = "/ASN[last()]//Line[@ref=\"a/b [1]='c'\"][2]/@*" ∧
    parse "/ASN[last()]//Line[@ref=\"a/b [1]='c'\"][2]/@*" = .ok delimiterPath := by
  have hwell : delimiterPath.WellFormed := by decide
  have htext : delimiterPath.text freeQuote = "/ASN[last()]//Line[@ref=\"a/b [1]='c'\"][2]/@*" := by decide
  obtain ⟨hquoted, hread, _⟩ := parse_written hwell
  exact ⟨hwell, hquoted, htext, htext ▸ (hread freeQuote hquoted).2⟩

end Interchange.Path
