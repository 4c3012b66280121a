import Mathlib
import Interchange.Proofs.Naming
import Interchange.Proofs.Spelling
import Interchange.Shape

/-!
# Field names in every case style

Words of small letters that may end in digits are read back from each way of writing them as one name, with
separators or with capitals (`FieldName.normalize_spelled`). So a field is found under its name in every case style.
-/

namespace Interchange

namespace FieldName

open Text (isUppercase isLowercase lowerOf isBlank)
open Interchange.Path (Trimmed)

variable {c previous sep : Char} {cs rest word : List Char}

/-! ## Small letters, digits and capitals -/

/-- A small letter or a digit of ASCII. -/
def isSmall (c : Char) : Bool := c.isLower || c.isDigit

theorem isLower_iff : c.isLower = true ↔ 97 ≤ c.toNat ∧ c.toNat ≤ 122 := by
  simp [Char.isLower, UInt32.le_iff_toNat_le]

theorem isUpper_iff : c.isUpper = true ↔ 65 ≤ c.toNat ∧ c.toNat ≤ 90 := by
  simp [Char.isUpper, UInt32.le_iff_toNat_le]

theorem isDigit_iff : c.isDigit = true ↔ 48 ≤ c.toNat ∧ c.toNat ≤ 57 := Char.isDigit_iff_toNat

theorem isSmall_iff : isSmall c = true ↔ 97 ≤ c.toNat ∧ c.toNat ≤ 122 ∨ 48 ≤ c.toNat ∧ c.toNat ≤ 57 := by
  rw [isSmall, Bool.or_eq_true, isLower_iff, isDigit_iff]

theorem isSeparator_iff :
    isSeparator c = true ↔ c.toNat = 95 ∨ c.toNat = 45 ∨ c.toNat = 32 ∨ c.toNat = 46 := by
  simp only [isSeparator, Bool.or_eq_true, beq_iff_eq, ← Char.toNat_inj, or_assoc]
  rfl

/-- No letter and no digit is a separator or white space. -/
theorem isSeparator_of_alphanumeric (h : isSmall c = true ∨ c.isUpper = true) :
    isSeparator c = false ∧ isBlank c = false := by
  rw [isSmall_iff, isUpper_iff] at h
  refine ⟨Bool.eq_false_iff.2 fun hsep => ?_, ?_⟩
  · rw [isSeparator_iff] at hsep
    omega
  · simp only [isBlank, Bool.or_eq_false_iff, Bool.and_eq_false_iff, beq_eq_false_iff_ne, decide_eq_false_iff_not]
    omega

/-- A small letter or a digit starts no word and stays as it is. -/
theorem lowerOf_small (h : isSmall c = true) : isUppercase c = false ∧ lowerOf c = [c] := by
  rw [isSmall_iff] at h
  have hascii : c.toNat < 0x80 := by omega
  have hupper : ¬c.isUpper = true := fun hupper => by
    rw [isUpper_iff] at hupper
    omega
  rw [isUppercase, lowerOf, if_pos hascii, if_pos hascii, Char.toLower_eq_of_not_isUpper hupper]
  exact ⟨Bool.eq_false_iff.2 hupper, rfl⟩

theorem lowerOf_capital (h : c.isUpper = true) : isUppercase c = true ∧ lowerOf c = [c.toLower] := by
  have hcode := isUpper_iff.1 h
  have hascii : c.toNat < 0x80 := by omega
  rw [isUppercase, lowerOf, if_pos hascii, if_pos hascii]
  exact ⟨h, rfl⟩

/-- Behind a separator or a capital, a capital continues its word unless a small letter follows. -/
theorem not_isLowercase (h : isSeparator c = true ∨ c.isUpper = true) :
    isLowercase c = false ∧ c.isDigit = false := by
  rw [isSeparator_iff, isUpper_iff] at h
  have hascii : c.toNat < 0x80 := by omega
  refine ⟨?_, Bool.eq_false_iff.2 fun hdigit => ?_⟩
  · rw [isLowercase, if_pos hascii]
    refine Bool.eq_false_iff.2 fun hlower => ?_
    rw [isLower_iff] at hlower
    omega
  · rw [isDigit_iff] at hdigit
    omega

theorem isLowercase_digit (h : c.isDigit = true) : isLowercase c = false := by
  rw [isDigit_iff] at h
  rw [isLowercase, if_pos (by omega)]
  refine Bool.eq_false_iff.2 fun hlower => ?_
  rw [isLower_iff] at hlower
  omega

/-! ## Scanning -/

theorem wordsFrom_separator (hsep : isSeparator sep = true) (hword : word ≠ []) :
    wordsFrom previous word (sep :: rest) = word :: wordsFrom sep [] rest := by
  simp [wordsFrom, hsep, hword]

theorem wordsFrom_small_cons (hc : isSmall c = true) :
    wordsFrom previous word (c :: rest) = wordsFrom c (word ++ [c]) rest := by
  obtain ⟨hupper, hlower⟩ := lowerOf_small hc
  have hsep := (isSeparator_of_alphanumeric (Or.inl hc)).1
  simp [wordsFrom, startsWord, hsep, hupper, hlower]

/-- Small letters and digits continue the word at hand. -/
theorem wordsFrom_small (h : ∀ c ∈ cs, isSmall c = true) :
    wordsFrom previous word (cs ++ rest) = wordsFrom (cs.getLastD previous) (word ++ cs) rest := by
  induction cs generalizing previous word with
  | nil => simp
  | cons c cs ih =>
      obtain ⟨hc, hcs⟩ := List.forall_mem_cons.1 h
      rw [List.cons_append, wordsFrom_small_cons hc, ih hcs, List.getLastD_cons, List.append_assoc]
      rfl

/-- Behind a separator, capitals continue the word at hand if no small letter follows them. -/
theorem wordsFrom_capitals (h : ∀ c ∈ cs, c.isUpper = true)
    (hprevious : isSeparator previous = true ∨ previous.isUpper = true)
    (hrest : ∀ c ∈ rest.head?, isLowercase c = false) : wordsFrom previous word (cs ++ rest) =
      wordsFrom (cs.getLastD previous) (word ++ cs.map Char.toLower) rest := by
  induction cs generalizing previous word with
  | nil => simp
  | cons c cs ih =>
      obtain ⟨hc, hcs⟩ := List.forall_mem_cons.1 h
      obtain ⟨hupper, hlower⟩ := lowerOf_capital hc
      obtain ⟨hsmall, hdigit⟩ := not_isLowercase hprevious
      have hsep := (isSeparator_of_alphanumeric (Or.inr hc)).1
      have hnext : (cs ++ rest).head?.any isLowercase = false := by
        cases cs with
        | nil =>
            cases rest with
            | nil => rfl
            | cons d rest => exact hrest d rfl
        | cons d cs => exact (not_isLowercase (Or.inr (List.forall_mem_cons.1 hcs).1)).1
      have hstart : startsWord previous c (cs ++ rest).head? = false := by
        rw [startsWord, hsmall, hdigit, hnext, Bool.and_false, Bool.or_false, Bool.or_false, Bool.and_false]
      have hstep : wordsFrom previous word (c :: (cs ++ rest)) =
          wordsFrom c (word ++ [c.toLower]) (cs ++ rest) := by
        rw [wordsFrom, hsep, hstart, hlower, Bool.and_false]
        rfl
      rw [List.cons_append, hstep, ih hcs (Or.inr hc), List.getLastD_cons, List.append_assoc]
      rfl

/-- A capital behind a small letter or a digit starts a word. -/
theorem wordsFrom_capital_cons (hc : c.isUpper = true) (hprevious : isSmall previous = true) (hword : word ≠ []) :
    wordsFrom previous word (c :: rest) = word :: wordsFrom c [c.toLower] rest := by
  obtain ⟨hupper, hlower⟩ := lowerOf_capital hc
  have hsep := (isSeparator_of_alphanumeric (Or.inr hc)).1
  have hsmall : isLowercase previous = true ∨ previous.isDigit = true := by
    have hcode := isSmall_iff.1 hprevious
    rw [isSmall, Bool.or_eq_true] at hprevious
    refine hprevious.imp_left fun hletter => ?_
    rw [isLowercase, if_pos (by omega)]
    exact hletter
  have hstart : startsWord previous c rest.head? = true := by
    rcases hsmall with h | h <;> simp [startsWord, hupper, h]
  simp [wordsFrom, hsep, hstart, hword, hlower]

/-! ## Words between separators -/

/-- Between separators, characters are read as one word. -/
def ReadAs (cs word : List Char) : Prop :=
  word ≠ [] ∧ ∀ previous rest, isSeparator previous = true → (∀ c ∈ rest.head?, isSeparator c = true) →
    ∃ last, wordsFrom previous [] (cs ++ rest) = wordsFrom last word rest

theorem ReadAs.of_small (hne : cs ≠ []) (h : ∀ c ∈ cs, isSmall c = true) : ReadAs cs cs :=
  ⟨hne, fun _ _ _ _ => ⟨_, wordsFrom_small h⟩⟩

theorem wordsFrom_intercalate {α : Type} {f g : α → List Char} {xs : List α} (hsep : isSeparator sep = true)
    (hprevious : isSeparator previous = true) (h : ∀ x ∈ xs, ReadAs (f x) (g x)) :
    wordsFrom previous [] ([sep].intercalate (xs.map f)) = xs.map g := by
  induction xs generalizing previous with
  | nil => rfl
  | cons x xs ih =>
      obtain ⟨⟨hne, hread⟩, hxs⟩ := List.forall_mem_cons.1 h
      cases xs with
      | nil =>
          obtain ⟨last, hlast⟩ := hread previous [] hprevious (by simp)
          rw [List.append_nil] at hlast
          simp [hlast, wordsFrom, hne]
      | cons y ys =>
          have hrest : [sep].intercalate ((x :: y :: ys).map f) =
              f x ++ sep :: [sep].intercalate ((y :: ys).map f) := by simp [List.intercalate_cons_cons]
          obtain ⟨last, hlast⟩ := hread previous (sep :: [sep].intercalate ((y :: ys).map f)) hprevious
            (by simpa using hsep)
          rw [hrest, hlast, wordsFrom_separator hsep hne, ih hsep hxs]
          rfl

theorem trimmed_intercalate {pieces : List (List Char)}
    (h : ∀ cs ∈ pieces, cs ≠ [] ∧ ∀ c ∈ cs, isBlank c = false) : Trimmed ([sep].intercalate pieces) := by
  induction pieces with
  | nil => exact .nil
  | cons cs pieces ih =>
      obtain ⟨⟨hne, hcs⟩, hpieces⟩ := List.forall_mem_cons.1 h
      cases pieces with
      | nil => simpa using Trimmed.of_forall hcs
      | cons ds pieces =>
          have hrest : [sep].intercalate (ds :: pieces) ≠ [] := by
            cases pieces <;> simp [List.intercalate_cons_cons, (hpieces ds List.mem_cons_self).1]
          -- a separator may be white space, but none stands at the ends
          rw [List.intercalate_cons_cons]
          refine ⟨fun c hc => ?_, fun c hc => ?_⟩
          · rw [List.append_assoc, List.head?_append_of_ne_nil _ hne] at hc
            exact (Trimmed.of_forall hcs).1 c hc
          · rw [List.getLast?_append_of_ne_nil _ hrest] at hc
            exact (ih hpieces).2 c hc

/-- Pieces that are read as words, with a separator between them. -/
theorem words_intercalate {α : Type} {f g : α → List Char} {xs : List α} (hsep : isSeparator sep = true)
    (h : ∀ x ∈ xs, ReadAs (f x) (g x) ∧ f x ≠ [] ∧ ∀ c ∈ f x, isBlank c = false) :
    words ([sep].intercalate (xs.map f)) = xs.map g := by
  have htrimmed : Trimmed ([sep].intercalate (xs.map f)) :=
    trimmed_intercalate (List.forall_mem_map.2 fun x hx => (h x hx).2)
  rw [words, htrimmed.trimChars]
  exact wordsFrom_intercalate hsep (by decide) fun x hx => (h x hx).1

/-! ## Case styles -/

/-- A word of a field name: small letters of ASCII, then perhaps digits, two characters at least. -/
structure Word where
  letters : List Char
  digits : List Char
  letters_ne_nil : letters ≠ []
  isLower_letters : ∀ c ∈ letters, c.isLower = true
  isDigit_digits : ∀ c ∈ digits, c.isDigit = true
  two_le_length : 2 ≤ letters.length + digits.length

namespace Word

variable (w : Word)

def chars : List Char := w.letters ++ w.digits

/-- The word with a capital in front. -/
def capitalized : List Char :=
  match w.chars with
  | [] => []
  | c :: cs => c.toUpper :: cs

/-- The word in capitals. -/
def capitals : List Char := w.chars.map Char.toUpper

theorem isSmall_of_mem : ∀ c ∈ w.chars, isSmall c = true := by
  intro c hc
  rw [isSmall, Bool.or_eq_true]
  exact (List.mem_append.1 hc).imp (w.isLower_letters c) (w.isDigit_digits c)

theorem chars_ne_nil : w.chars ≠ [] := List.append_ne_nil_of_left_ne_nil w.letters_ne_nil _

/-- Behind its first letter, a word has more characters. -/
theorem exists_cons : ∃ c cs, w.chars = c :: cs ∧ w.capitalized = c.toUpper :: cs ∧ c.isLower = true ∧ cs ≠ [] ∧
    ∀ d ∈ cs, isSmall d = true := by
  obtain ⟨c, letters, hletters⟩ := List.exists_cons_of_ne_nil w.letters_ne_nil
  have hchars : w.chars = c :: (letters ++ w.digits) := by rw [chars, hletters, List.cons_append]
  have hlength := w.two_le_length
  rw [hletters, List.length_cons] at hlength
  refine ⟨c, letters ++ w.digits, hchars, by rw [capitalized, hchars], ?_, ?_, ?_⟩
  · exact w.isLower_letters c (hletters ▸ List.mem_cons_self)
  · refine List.ne_nil_of_length_pos ?_
    rw [List.length_append]
    omega
  · exact fun d hd => w.isSmall_of_mem d (hchars ▸ List.mem_cons_of_mem c hd)

end Word

theorem isUpper_toUpper (h : c.isLower = true) : c.toUpper.isUpper = true ∧ c.toUpper.toLower = c := by
  have hupper : ¬c.isUpper = true := Char.not_isUpper_of_isLower h
  refine ⟨?_, ?_⟩
  · rw [Char.isUpper_toUpper_eq_isAlpha, Char.isAlpha, h, Bool.or_true]
  · rw [Char.toLower_toUpper_eq_toLower, Char.toLower_eq_of_not_isUpper hupper]

theorem toUpper_of_isDigit (h : c.isDigit = true) : c.toUpper = c := by
  refine Char.toUpper_eq_of_not_isLower fun hlower => ?_
  rw [isDigit_iff] at h
  rw [isLower_iff] at hlower
  omega

namespace Word

variable (w : Word)

theorem capitals_eq : w.capitals = w.letters.map Char.toUpper ++ w.digits := by
  have hdigits : w.digits.map Char.toUpper = w.digits :=
    (List.map_congr_left fun c hc => toUpper_of_isDigit (w.isDigit_digits c hc)).trans (List.map_id _)
  rw [capitals, chars, List.map_append, hdigits]

theorem isUpper_letters : ∀ c ∈ w.letters.map Char.toUpper, c.isUpper = true :=
  List.forall_mem_map.2 fun c hc => (isUpper_toUpper (w.isLower_letters c hc)).1

/-- Neither a word nor its capitals hold white space. -/
theorem isBlank_of_mem : (∀ c ∈ w.chars, isBlank c = false) ∧ ∀ c ∈ w.capitals, isBlank c = false := by
  refine ⟨fun c hc => (isSeparator_of_alphanumeric (Or.inl (w.isSmall_of_mem c hc))).2, fun c hc => ?_⟩
  rw [capitals_eq, List.mem_append] at hc
  refine (isSeparator_of_alphanumeric ?_).2
  rcases hc with hc | hc
  · exact Or.inr (w.isUpper_letters c hc)
  · exact Or.inl (w.isSmall_of_mem c (List.mem_append_right _ hc))

theorem readAs_capitals : ReadAs w.capitals w.chars := by
  refine ⟨w.chars_ne_nil, fun previous rest hprevious hrest => ?_⟩
  have hletters : (w.letters.map Char.toUpper).map Char.toLower = w.letters := by
    rw [List.map_map]
    exact (List.map_congr_left fun c hc => (isUpper_toUpper (w.isLower_letters c hc)).2).trans (List.map_id _)
  -- what follows the capitals is a digit or the next separator
  have hnext : ∀ c ∈ (w.digits ++ rest).head?, isLowercase c = false := by
    intro c hc
    cases hdigits : w.digits with
    | nil =>
        rw [hdigits] at hc
        exact (not_isLowercase (Or.inl (hrest c hc))).1
    | cons d digits =>
        rw [hdigits] at hc
        cases hc
        exact isLowercase_digit (w.isDigit_digits c (hdigits ▸ List.mem_cons_self))
  have hdigits : ∀ c ∈ w.digits, isSmall c = true := fun c hc =>
    w.isSmall_of_mem c (List.mem_append_right _ hc)
  rw [capitals_eq, List.append_assoc, wordsFrom_capitals w.isUpper_letters (Or.inl hprevious) hnext, hletters,
    wordsFrom_small hdigits]
  exact ⟨_, rfl⟩

/-- A capital in front of a word is scanned like the word itself, once the word at hand has been put down. -/
theorem wordsFrom_capitalized (rest : List Char) : ∃ last, isSmall last = true ∧
    (∀ previous, wordsFrom previous [] (w.capitalized ++ rest) = wordsFrom last w.chars rest) ∧
    ∀ previous word, isSmall previous = true → word ≠ [] →
      wordsFrom previous word (w.capitalized ++ rest) = word :: wordsFrom last w.chars rest := by
  obtain ⟨c, cs, hchars, hcapitalized, hc, hne, hcs⟩ := w.exists_cons
  obtain ⟨hupper, hlower⟩ := isUpper_toUpper hc
  have hrest : wordsFrom c.toUpper [c] (cs ++ rest) = wordsFrom (cs.getLastD c.toUpper) w.chars rest := by
    rw [wordsFrom_small hcs, hchars]
    rfl
  refine ⟨cs.getLastD c.toUpper, ?_, fun previous => ?_, fun previous word hprevious hword => ?_⟩
  · cases cs with
    | nil => exact absurd rfl hne
    | cons d cs =>
        rw [List.getLastD_cons]
        exact hcs _ List.getLastD_mem_cons
  · rw [hcapitalized, List.cons_append, ← hrest, wordsFrom, (isSeparator_of_alphanumeric (Or.inr hupper)).1,
      (lowerOf_capital hupper).2, hlower]
    rfl
  · rw [hcapitalized, List.cons_append, wordsFrom_capital_cons hupper hprevious hword, hlower, hrest]

end Word

/-- Words with capitals in front, behind a word at hand. -/
theorem wordsFrom_flatMap_capitalized {ws : List Word} (hprevious : isSmall previous = true) (hword : word ≠ []) :
    wordsFrom previous word (ws.flatMap Word.capitalized) = word :: ws.map Word.chars := by
  induction ws generalizing previous word with
  | nil => simp [wordsFrom, hword]
  | cons w ws ih =>
      obtain ⟨last, hlast, -, hread⟩ := w.wordsFrom_capitalized (ws.flatMap Word.capitalized)
      rw [List.flatMap_cons, hread previous word hprevious hword, ih hlast w.chars_ne_nil]
      rfl

/-- The ways of writing words as one name. -/
inductive CaseStyle where
  | snake
  | kebab
  | dotted
  | spaced
  | screamingSnake
  | camel
  | pascal
  deriving DecidableEq, Repr

namespace CaseStyle

/-- The name that words make. -/
def spell (style : CaseStyle) (ws : List Word) : List Char :=
  match style with
  | snake => ['_'].intercalate (ws.map Word.chars)
  | kebab => ['-'].intercalate (ws.map Word.chars)
  | dotted => ['.'].intercalate (ws.map Word.chars)
  | spaced => [' '].intercalate (ws.map Word.chars)
  | screamingSnake => ['_'].intercalate (ws.map Word.capitals)
  | camel =>
    match ws with
    | [] => []
    | w :: ws => w.chars ++ ws.flatMap Word.capitalized
  | pascal => ws.flatMap Word.capitalized

end CaseStyle

theorem words_chars {ws : List Word} (hsep : isSeparator sep = true) :
    words ([sep].intercalate (ws.map Word.chars)) = ws.map Word.chars :=
  words_intercalate hsep fun w _ =>
    ⟨.of_small w.chars_ne_nil w.isSmall_of_mem, w.chars_ne_nil, w.isBlank_of_mem.1⟩

theorem words_capitals {ws : List Word} (hsep : isSeparator sep = true) :
    words ([sep].intercalate (ws.map Word.capitals)) = ws.map Word.chars :=
  words_intercalate hsep fun w _ =>
    ⟨w.readAs_capitals, by simpa [Word.capitals] using w.chars_ne_nil, w.isBlank_of_mem.2⟩

theorem Word.isBlank_capitalized (w : Word) : ∀ c ∈ w.capitalized, isBlank c = false := by
  obtain ⟨c, cs, hchars, hcapitalized, hc, -, hcs⟩ := w.exists_cons
  rw [hcapitalized]
  refine List.forall_mem_cons.2 ⟨(isSeparator_of_alphanumeric (Or.inr (isUpper_toUpper hc).1)).2, fun d hd => ?_⟩
  exact (isSeparator_of_alphanumeric (Or.inl (hcs d hd))).2

theorem words_pascal (ws : List Word) : words (ws.flatMap Word.capitalized) = ws.map Word.chars := by
  have htrimmed : Trimmed (ws.flatMap Word.capitalized) :=
    .flatMap fun w _ => .of_forall w.isBlank_capitalized
  rw [words, htrimmed.trimChars]
  cases ws with
  | nil => rfl
  | cons w ws =>
      obtain ⟨last, hlast, hread, -⟩ := w.wordsFrom_capitalized (ws.flatMap Word.capitalized)
      rw [List.flatMap_cons, hread, wordsFrom_flatMap_capitalized hlast w.chars_ne_nil]
      rfl

theorem words_camel (w : Word) (ws : List Word) :
    words (w.chars ++ ws.flatMap Word.capitalized) = (w :: ws).map Word.chars := by
  have htrimmed : Trimmed (w.chars ++ ws.flatMap Word.capitalized) :=
    (Trimmed.of_forall w.isBlank_of_mem.1).append (.flatMap fun w _ => .of_forall w.isBlank_capitalized)
  have hlast : isSmall (w.chars.getLastD '_') = true := by
    obtain ⟨c, cs, hchars, -⟩ := w.exists_cons
    rw [hchars, List.getLastD_cons]
    exact w.isSmall_of_mem _ (hchars ▸ List.getLastD_mem_cons)
  rw [words, htrimmed.trimChars, wordsFrom_small w.isSmall_of_mem, List.nil_append,
    wordsFrom_flatMap_capitalized hlast w.chars_ne_nil]
  rfl

/-- Words are read back from every way of writing them as one name. -/
theorem words_spell (style : CaseStyle) (ws : List Word) : words (style.spell ws) = ws.map Word.chars := by
  cases style with
  | snake | kebab | dotted | spaced => exact words_chars (by decide)
  | screamingSnake => exact words_capitals (by decide)
  | camel =>
      cases ws with
      | nil => rfl
      | cons w ws => exact words_camel w ws
  | pascal => exact words_pascal ws

/-! ## Normalized names -/

theorem toList_normalize (name : String) : (normalize name).toList = ['_'].intercalate (words name.toList) := by
  have htexts : ((words name.toList).map String.ofList).map String.toList = words name.toList := by
    rw [List.map_map]
    exact (List.map_congr_left fun cs _ => String.toList_ofList).trans (List.map_id _)
  rw [normalize, String.toList_intercalate, htexts]
  rfl

theorem normalize_spell (style : CaseStyle) (ws : List Word) :
    normalize (String.ofList (style.spell ws)) = String.ofList (['_'].intercalate (ws.map Word.chars)) := by
  rw [← String.toList_inj, toList_normalize, String.toList_ofList, String.toList_ofList, words_spell]

/-- What a name may be made of: letters and digits of ASCII, and separators. -/
def isNameSymbol (c : Char) : Bool := c.isAlphanum || isSeparator c

theorem lowerOf_alphanum (h : c.isAlphanum = true) : ∃ d, isSmall d = true ∧ lowerOf c = [d] := by
  simp only [Char.isAlphanum, Char.isAlpha, Bool.or_eq_true] at h
  rcases h with (h | h) | h
  · refine ⟨c.toLower, ?_, (lowerOf_capital h).2⟩
    rw [isSmall, Char.isLower_toLower_eq_isAlpha, Char.isAlpha, h, Bool.true_or, Bool.true_or]
  · have hsmall : isSmall c = true := by rw [isSmall, h, Bool.true_or]
    exact ⟨c, hsmall, (lowerOf_small hsmall).2⟩
  · have hsmall : isSmall c = true := by rw [isSmall, h, Bool.or_true]
    exact ⟨c, hsmall, (lowerOf_small hsmall).2⟩

/-- The words of a name are of small letters and digits. -/
theorem isSmall_of_mem_wordsFrom (hword : ∀ c ∈ word, isSmall c = true) (hcs : ∀ c ∈ cs, isNameSymbol c = true) :
    ∀ w ∈ wordsFrom previous word cs, w ≠ [] ∧ ∀ c ∈ w, isSmall c = true := by
  induction cs generalizing previous word with
  | nil =>
      intro w hw
      rw [wordsFrom] at hw
      split at hw
      · cases hw
      · rename_i hne
        rw [List.mem_singleton.1 hw]
        exact ⟨by simpa using hne, hword⟩
  | cons c cs ih =>
      obtain ⟨hc, hcs⟩ := List.forall_mem_cons.1 hcs
      have hfresh : ∀ d ∈ ([] : List Char), isSmall d = true := fun d hd => absurd hd List.not_mem_nil
      -- a word that is put down is the word at hand
      have hput : word.isEmpty = false → word ≠ [] ∧ ∀ d ∈ word, isSmall d = true := fun hne =>
        ⟨by simpa using hne, hword⟩
      rw [wordsFrom]
      by_cases hsep : isSeparator c = true
      · rw [if_pos hsep]
        cases hempty : word.isEmpty with
        | true => exact ih hfresh hcs
        | false => exact List.forall_mem_cons.2 ⟨hput hempty, ih hfresh hcs⟩
      · have halphanum : c.isAlphanum = true := by
          rw [isNameSymbol, Bool.or_eq_true] at hc
          exact hc.resolve_right hsep
        obtain ⟨d, hd, hlower⟩ := lowerOf_alphanum halphanum
        have hlone : ∀ e ∈ [d], isSmall e = true := fun e he => List.mem_singleton.1 he ▸ hd
        rw [if_neg hsep, hlower]
        cases hempty : word.isEmpty with
        | true => exact ih (List.forall_mem_append.2 ⟨hword, hlone⟩) hcs
        | false =>
            split
            · exact List.forall_mem_cons.2 ⟨hput hempty, ih hlone hcs⟩
            · exact ih (List.forall_mem_append.2 ⟨hword, hlone⟩) hcs

theorem isSmall_of_mem_words {name : List Char} (hname : ∀ c ∈ name, isNameSymbol c = true) :
    ∀ w ∈ words name, w ≠ [] ∧ ∀ c ∈ w, isSmall c = true := by
  refine isSmall_of_mem_wordsFrom (fun c hc => absurd hc List.not_mem_nil) fun c hc => hname c ?_
  exact (Path.trimChars_sublist name).mem hc

/-- The words of a normalized name are those of the name. -/
theorem words_normalize {name : String} (hname : ∀ c ∈ name.toList, isNameSymbol c = true) :
    words (normalize name).toList = words name.toList := by
  have hsmall := isSmall_of_mem_words hname
  have hread : ∀ w ∈ words name.toList, ReadAs w w ∧ w ≠ [] ∧ ∀ c ∈ w, isBlank c = false := fun w hw =>
    ⟨.of_small (hsmall w hw).1 (hsmall w hw).2, (hsmall w hw).1,
      fun c hc => (isSeparator_of_alphanumeric (Or.inl ((hsmall w hw).2 c hc))).2⟩
  have hsep : isSeparator '_' = true := by decide
  have hwords := words_intercalate hsep hread
  rw [List.map_id'] at hwords
  rw [toList_normalize, hwords]

/-- Small letters, digits and underscores, with no underscore at the ends and no two next to one another. -/
structure IsTidy (cs : List Char) : Prop where
  symbols : ∀ c ∈ cs, c.isLower = true ∨ c.isDigit = true ∨ c = '_'
  front : cs.head? ≠ some '_'
  back : cs.getLast? ≠ some '_'
  apart : cs.IsChain fun c d => c = '_' → d ≠ '_'

theorem ne_underscore (h : isSmall c = true) : c ≠ '_' := fun hc => by
  have hsep := (isSeparator_of_alphanumeric (Or.inl h)).1
  rw [hc] at hsep
  cases hsep

theorem isTidy_small (h : ∀ c ∈ cs, isSmall c = true) : IsTidy cs where
  symbols := fun c hc => by
    have hsmall := h c hc
    rw [isSmall, Bool.or_eq_true] at hsmall
    exact hsmall.imp_right Or.inl
  front := fun hc => ne_underscore (h '_' (List.mem_of_head? hc)) rfl
  back := fun hc => ne_underscore (h '_' (List.mem_of_getLast? hc)) rfl
  apart := by
    refine List.Pairwise.isChain (List.pairwise_of_forall_mem_list fun _ _ d hd => ?_)
    exact fun _ => ne_underscore (h d hd)

/-- An underscore between tidy texts. -/
theorem IsTidy.join {ds : List Char} (hcs : IsTidy cs) (hds : IsTidy ds) (hne : cs ≠ []) (hne' : ds ≠ []) :
    IsTidy (cs ++ '_' :: ds) where
  symbols := by
    refine List.forall_mem_append.2 ⟨hcs.symbols, List.forall_mem_cons.2 ⟨Or.inr (Or.inr rfl), hds.symbols⟩⟩
  front := by
    rw [List.head?_append_of_ne_nil _ hne]
    exact hcs.front
  back := by
    rw [List.getLast?_append_of_ne_nil _ (List.cons_ne_nil _ _), List.getLast?_cons_of_ne_nil hne']
    exact hds.back
  apart := by
    refine List.isChain_append.2 ⟨hcs.apart, List.isChain_cons.2 ⟨?_, hds.apart⟩, ?_⟩
    · rintro d hd - rfl
      exact hds.front hd
    · rintro c hc d - rfl
      exact absurd hc hcs.back

theorem isTidy_intercalate {pieces : List (List Char)} (h : ∀ w ∈ pieces, w ≠ [] ∧ ∀ c ∈ w, isSmall c = true) :
    IsTidy (['_'].intercalate pieces) := by
  induction pieces with
  | nil => exact isTidy_small fun c hc => absurd hc List.not_mem_nil
  | cons w pieces ih =>
      obtain ⟨⟨hne, hw⟩, hpieces⟩ := List.forall_mem_cons.1 h
      cases pieces with
      | nil => simpa using isTidy_small hw
      | cons v pieces =>
          have hrest : ['_'].intercalate (v :: pieces) ≠ [] := by
            cases pieces <;> simp [List.intercalate_cons_cons, (hpieces v List.mem_cons_self).1]
          rw [List.intercalate_cons_cons, List.append_assoc]
          exact (isTidy_small hw).join (ih hpieces) hne hrest

end FieldName

/-! ## Fields by name -/

namespace FieldTable

variable {R : Type}

/-- Behind a setter that is added, a name finds it if the names are the same in normal form. -/
theorem find_add (t : FieldTable R) (name other : String) (setter : Setter R) :
    (t.add name setter).find other =
      if FieldName.normalize name = FieldName.normalize other then some setter else t.find other := by
  simp only [find, add, find?_replace t.entries (FieldName.normalize name, setter)]
  split <;> rfl

end FieldTable

namespace FieldName

/-- Every way of writing words as one name has the same normal form, the words with an underscore between them. So a
field is found under each of them, whichever it was declared under. The normal form of a name of letters, digits and
separators of ASCII is tidy, and its own normal form. -/
theorem normalize_spelled (ws : List Word) :
    (∀ style : CaseStyle,
      normalize (String.ofList (style.spell ws)) = String.ofList (['_'].intercalate (ws.map Word.chars))) ∧
    (∀ (R : Type) (t : FieldTable R) (style other : CaseStyle),
      t.find (String.ofList (style.spell ws)) = t.find (String.ofList (other.spell ws))) ∧
    (∀ (R : Type) (t : FieldTable R) (setter : Setter R) (style other : CaseStyle),
      (t.add (String.ofList (style.spell ws)) setter).find (String.ofList (other.spell ws)) = some setter) ∧
    ∀ name : String, (∀ c ∈ name.toList, isNameSymbol c = true) →
      normalize (normalize name) = normalize name ∧ IsTidy (normalize name).toList := by
  refine ⟨fun style => normalize_spell style ws, fun R t style other => ?_, fun R t setter style other => ?_,
    fun name hname => ⟨?_, ?_⟩⟩
  · rw [FieldTable.find, FieldTable.find, normalize_spell, normalize_spell]
  · rw [FieldTable.find_add, normalize_spell, normalize_spell, if_pos rfl]
  · rw [← String.toList_inj, toList_normalize, words_normalize hname, toList_normalize]
  · rw [toList_normalize]
    exact isTidy_intercalate (isSmall_of_mem_words hname)

/-- The words of `asn_line2_qty`. -/
def asnLine2Qty : List Word :=
  [⟨['a', 's', 'n'], [], by decide, List.all_eq_true.1 (by decide), List.all_eq_true.1 (by decide), by decide⟩,
    ⟨['l', 'i', 'n', 'e'], ['2'], by decide, List.all_eq_true.1 (by decide), List.all_eq_true.1 (by decide),
      by decide⟩,
    ⟨['q', 't', 'y'], [], by decide, List.all_eq_true.1 (by decide), List.all_eq_true.1 (by decide), by decide⟩]

theorem normalize_spelled_asnLine2Qty : normalize "asnLine2Qty" = "asn_line2_qty" ∧
    normalize "ASN_LINE2_QTY" = "asn_line2_qty" ∧ (∀ (t : FieldTable Nat) (setter : Setter Nat),
      (t.add "AsnLine2Qty" setter).find "asn-line2-qty" = some setter) ∧
    (∀ c ∈ " ASN-Level2.Qty__x ".toList, isNameSymbol c = true) ∧
    normalize (normalize " ASN-Level2.Qty__x ") = normalize " ASN-Level2.Qty__x " ∧
    IsTidy (normalize " ASN-Level2.Qty__x ").toList := by
  have hname : ∀ c ∈ " ASN-Level2.Qty__x ".toList, isNameSymbol c = true := List.all_eq_true.1 (by decide)
  obtain ⟨hnormalize, -, hadd, htidy⟩ := normalize_spelled asnLine2Qty
  exact ⟨hnormalize .camel, hnormalize .screamingSnake, fun t setter => hadd Nat t setter .pascal .kebab, hname,
    htidy _ hname⟩

/-- Capitals of one letter each run together. -/
example : words "qtyAB".toList = ["qty".toList, "ab".toList] := by decide

end FieldName

end Interchange
