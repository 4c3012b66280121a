import Interchange.Proofs.Characters
import Interchange.Proofs.Escaping

/-!
# What references stand for

A reference stands for a character by name or by number (`Denotes`). The values of attributes take these references
and no others (`resolveInValue_eq_ok`). Character data take two kinds of numbers more, those with a plus sign and
those of the character NUL (`resolveReference_eq_some`).
-/

namespace Interchange.Xml

variable {hex : Bool} {n m : Nat} {digits name code text t : List Char} {c : Char}

/-! ## Numbers -/

def numberBase (hex : Bool) : Nat := if hex then 16 else 10

/-- The mark in front of a number in base sixteen. -/
def baseMark (hex : Bool) : List Char := if hex then ['x'] else []

/-- The number that digits stand for behind a number. -/
def digitsFrom (hex : Bool) (n : Nat) (digits : List Char) : Nat :=
  digits.foldl (fun n c => n * numberBase hex + (digitValue hex c).getD 0) n

/-- Digits, however many but at least one, and the number that they stand for. -/
structure IsNumeral (hex : Bool) (digits : List Char) (n : Nat) : Prop where
  ne_nil : digits ≠ []
  all_digits : ∀ c ∈ digits, (digitValue hex c).isSome
  value : digitsFrom hex 0 digits = n

theorem le_digitsFrom : n ≤ digitsFrom hex n digits := by
  induction digits generalizing n with
  | nil => exact Nat.le_refl n
  | cons c digits ih =>
      have hbase : 1 ≤ numberBase hex := by cases hex <;> decide
      calc
        n ≤ n * numberBase hex + (digitValue hex c).getD 0 :=
          Nat.le_add_right_of_le (Nat.le_mul_of_pos_right n hbase)
        _ ≤ digitsFrom hex n (c :: digits) := ih

/-- Digits are read exactly if they are digits and the number has 32 bits. -/
theorem readDigits_eq_ok (hn : n < 0x100000000) : readDigits hex n digits = .ok m ↔
    (∀ c ∈ digits, (digitValue hex c).isSome) ∧ digitsFrom hex n digits = m ∧ m < 0x100000000 := by
  induction digits generalizing n with
  | nil =>
      simp only [readDigits, Except.ok.injEq, List.not_mem_nil, false_imp_iff, implies_true, true_and]
      exact ⟨fun h => ⟨h, h ▸ hn⟩, fun h => h.1⟩
  | cons c digits ih =>
      rw [readDigits]
      cases hc : digitValue hex c with
      | none => simp [hc]
      | some d =>
          have hfrom : digitsFrom hex n (c :: digits) = digitsFrom hex (n * numberBase hex + d) digits := by
            rw [digitsFrom, List.foldl_cons, hc]
            rfl
          have hstep : n * (if hex then 16 else 10) + d = n * numberBase hex + d := rfl
          simp only [hstep, List.forall_mem_cons, hc, Option.isSome_some, true_and, hfrom]
          split
          · rename_i hlt
            exact ih hlt
          · rename_i hge
            -- what follows does not make the number smaller
            have hle : n * numberBase hex + d ≤ digitsFrom hex (n * numberBase hex + d) digits := le_digitsFrom
            simp only [reduceCtorEq, false_iff, not_and]
            rintro _ rfl hlt
            exact hge (Nat.lt_of_le_of_lt hle hlt)

theorem readNumber_eq_ok : readNumber hex digits = .ok n ↔ IsNumeral hex digits n ∧ n < 0x100000000 := by
  unfold readNumber
  split
  · rename_i hempty
    rw [List.isEmpty_iff.1 hempty]
    simp only [reduceCtorEq, false_iff, not_and]
    exact fun h => absurd rfl h.ne_nil
  · rename_i hne
    rw [readDigits_eq_ok (by decide)]
    constructor
    · rintro ⟨hdigits, hvalue, hlt⟩
      exact ⟨⟨by simpa using hne, hdigits, hvalue⟩, hlt⟩
    · rintro ⟨⟨_, hdigits, hvalue⟩, hlt⟩
      exact ⟨hdigits, hvalue, hlt⟩

/-- A number begins with a digit. -/
theorem IsNumeral.exists_cons (h : IsNumeral hex digits n) :
    ∃ c rest, digits = c :: rest ∧ c ≠ '+' ∧ c ≠ '-' ∧ c ≠ 'x' := by
  obtain ⟨c, rest, rfl⟩ := List.exists_cons_of_ne_nil h.ne_nil
  have hdigit := h.all_digits c List.mem_cons_self
  refine ⟨c, rest, rfl, ?_⟩
  refine ⟨?_, ?_, ?_⟩ <;>
    · rintro rfl
      cases hex <;> exact absurd hdigit (by decide)

theorem IsNumeral.ne_baseMark (h : IsNumeral hex digits n) (rest : List Char) : digits ≠ 'x' :: rest := by
  obtain ⟨c, _, rfl, _, _, hx⟩ := h.exists_cons
  exact fun heq => hx (List.cons.inj heq).1

theorem baseMark_splitBase (code : List Char) : code = baseMark (splitBase code).1 ++ (splitBase code).2 := by
  unfold splitBase
  split <;> rfl

theorem splitBase_baseMark (h : ∀ rest, digits ≠ 'x' :: rest) :
    splitBase (baseMark hex ++ digits) = (hex, digits) := by
  cases hex with
  | true => rfl
  | false =>
      simp only [baseMark, Bool.false_eq_true, if_false, List.nil_append]
      unfold splitBase
      split
      · rename_i rest
        exact absurd rfl (h rest)
      · rfl

theorem characterOf_eq_some : characterOf n = some c ↔ n.isValidChar ∧ c = Char.ofNat n := by
  unfold characterOf
  split
  · rename_i hvalid
    simp [hvalid, eq_comm]
  · rename_i hvalid
    simp only [reduceCtorEq, false_iff, not_and]
    exact fun h => absurd h hvalid

/-- The number of a character has 32 bits. -/
theorem lt_of_isValidChar (h : n.isValidChar) : n < 0x100000000 := by
  unfold Nat.isValidChar at h
  omega

/-! ## References -/

/-- A reference that stands for a character wherever it is written: one of the five names, or the number of a
character other than NUL, without a sign. -/
inductive Denotes : List Char → Char → Prop
  | named {name : List Char} {c : Char} (hname : namedCharacter name = some c) : Denotes name c
  | number {hex : Bool} {digits : List Char} {n : Nat} (hdigits : IsNumeral hex digits n) (hpos : 0 < n)
      (hvalid : n.isValidChar) : Denotes ('#' :: (baseMark hex ++ digits)) (Char.ofNat n)

/-- A reference that stands for a character in character data alone: its number has a plus sign, or is zero. -/
inductive DenotesInText : List Char → Char → Prop
  | signed {hex : Bool} {digits : List Char} {n : Nat} (hdigits : IsNumeral hex digits n)
      (hvalid : n.isValidChar) : DenotesInText ('#' :: (baseMark hex ++ '+' :: digits)) (Char.ofNat n)
  | null {hex : Bool} {digits : List Char} (hdigits : IsNumeral hex digits 0) :
      DenotesInText ('#' :: (baseMark hex ++ digits)) (Char.ofNat 0)

theorem namedCharacter_number : namedCharacter ('#' :: code) = none := rfl

theorem readSigned_signed (h : IsNumeral hex digits n) (hlt : n < 0x100000000) :
    readSigned hex ('+' :: digits) = .ok n := by
  obtain ⟨c, rest, rfl, _⟩ := h.exists_cons
  exact readNumber_eq_ok.2 ⟨h, hlt⟩

theorem readSigned_unsigned (h : IsNumeral hex digits n) (hlt : n < 0x100000000) :
    readSigned hex digits = .ok n := by
  obtain ⟨c, rest, rfl, hplus, _⟩ := h.exists_cons
  unfold readSigned
  split
  · rename_i heq
    exact absurd (List.cons.inj heq).1 hplus
  · exact readNumber_eq_ok.2 ⟨h, hlt⟩

theorem readSigned_eq_ok (h : readSigned hex digits = .ok n) :
    IsNumeral hex digits n ∨ ∃ rest, digits = '+' :: rest ∧ IsNumeral hex rest n := by
  unfold readSigned at h
  split at h
  · exact Or.inr ⟨_, rfl, (readNumber_eq_ok.1 h).1⟩
  · exact Or.inl (readNumber_eq_ok.1 h).1

theorem resolveReference_number : resolveReference ('#' :: code) = some c ↔
    ∃ n, readSigned (splitBase code).1 (splitBase code).2 = .ok n ∧ characterOf n = some c := by
  have hnumber : resolveReference ('#' :: code) =
      (readSigned (splitBase code).1 (splitBase code).2).toOption.bind characterOf := by
    simp only [resolveReference, namedCharacter_number]
    cases readSigned (splitBase code).1 (splitBase code).2 <;> rfl
  rw [hnumber, Option.bind_eq_some_iff]
  simp only [toOption_eq_some]

theorem denotes_of_resolveReference_number (h : resolveReference ('#' :: code) = some c) :
    Denotes ('#' :: code) c ∨ DenotesInText ('#' :: code) c := by
  obtain ⟨n, hn, hc⟩ := resolveReference_number.1 h
  obtain ⟨hvalid, rfl⟩ := characterOf_eq_some.1 hc
  rw [baseMark_splitBase code]
  rcases readSigned_eq_ok hn with hdigits | ⟨rest, hrest, hdigits⟩
  · rcases Nat.eq_zero_or_pos n with rfl | hpos
    · exact Or.inr (.null hdigits)
    · exact Or.inl (.number hdigits hpos hvalid)
  · rw [hrest]
    exact Or.inr (.signed hdigits hvalid)

/-- A number, perhaps behind a sign, stands for its character. -/
theorem resolveReference_of_readSigned (hx : ∀ rest, digits ≠ 'x' :: rest) (hread : readSigned hex digits = .ok n)
    (hvalid : n.isValidChar) : resolveReference ('#' :: (baseMark hex ++ digits)) = some (Char.ofNat n) := by
  refine resolveReference_number.2 ⟨n, ?_, characterOf_eq_some.2 ⟨hvalid, rfl⟩⟩
  rwa [splitBase_baseMark hx]

theorem Denotes.resolveReference (h : Denotes name c) : resolveReference name = some c := by
  cases h with
  | named hname => simp only [Xml.resolveReference, hname]
  | @number hex digits n hdigits hpos hvalid =>
      have hread := readSigned_unsigned hdigits (lt_of_isValidChar hvalid)
      exact resolveReference_of_readSigned hdigits.ne_baseMark hread hvalid

theorem DenotesInText.resolveReference (h : DenotesInText name c) : resolveReference name = some c := by
  cases h with
  | @signed hex digits n hdigits hvalid =>
      have hread := readSigned_signed hdigits (lt_of_isValidChar hvalid)
      exact resolveReference_of_readSigned (fun _ heq => absurd (List.cons.inj heq).1 (by decide)) hread hvalid
  | @null hex digits hdigits =>
      have hread := readSigned_unsigned hdigits (by decide)
      exact resolveReference_of_readSigned hdigits.ne_baseMark hread (by decide)

/-- What character data take as a reference. -/
theorem resolveReference_eq_some : resolveReference name = some c ↔ Denotes name c ∨ DenotesInText name c := by
  constructor
  · intro h
    cases hname : namedCharacter name with
    | some d =>
        simp only [resolveReference, hname] at h
        cases h
        exact Or.inl (.named hname)
    | none =>
        cases name with
        | nil => simp [resolveReference, hname] at h
        | cons x code =>
            by_cases hx : x = '#'
            · subst hx
              exact denotes_of_resolveReference_number h
            · simp [resolveReference, hname, hx] at h
  · rintro (h | h)
    · exact h.resolveReference
    · exact h.resolveReference

theorem resolveNumber_eq_ok : resolveNumber code = .ok c ↔
    ∃ n, IsNumeral (splitBase code).1 (splitBase code).2 n ∧ 0 < n ∧ n.isValidChar ∧ c = Char.ofNat n := by
  unfold resolveNumber
  dsimp only
  constructor
  · intro h
    split at h
    · cases h
    · cases h
    · split at h
      · cases h
      · rename_i n hn
        split at h
        · cases h
        · rename_i hpos
          split at h
          · rename_i d hd
            cases h
            obtain ⟨hvalid, rfl⟩ := characterOf_eq_some.1 hd
            exact ⟨n, (readNumber_eq_ok.1 hn).1, Nat.pos_of_ne_zero hpos, hvalid, rfl⟩
          · cases h
  · rintro ⟨n, hdigits, hpos, hvalid, rfl⟩
    obtain ⟨d, rest, hcons, hplus, hminus, _⟩ := hdigits.exists_cons
    have hread := readNumber_eq_ok.2 ⟨hdigits, lt_of_isValidChar hvalid⟩
    have hcharacter : characterOf n = some (Char.ofNat n) := characterOf_eq_some.2 ⟨hvalid, rfl⟩
    split
    · rename_i hhead
      exact absurd (Option.some.inj (by rwa [hcons] at hhead)) hplus
    · rename_i hhead
      exact absurd (Option.some.inj (by rwa [hcons] at hhead)) hminus
    · simp only [hread, if_neg (Nat.ne_of_gt hpos), hcharacter]

/-- What the values of attributes take as a reference. -/
theorem resolveInValue_eq_ok {start : Nat} : resolveInValue start name = .ok c ↔ Denotes name c := by
  constructor
  · intro h
    unfold resolveInValue at h
    split at h
    · rename_i code
      obtain ⟨n, hdigits, hpos, hvalid, rfl⟩ := resolveNumber_eq_ok.1 (mapError_eq_ok.1 h)
      rw [baseMark_splitBase code]
      exact .number hdigits hpos hvalid
    · split at h
      · rename_i hname
        cases h
        exact .named hname
      · cases h
  · intro h
    cases h with
    | named hname =>
        unfold resolveInValue
        split
        · cases hname
        · rw [hname]
    | @number hex digits n hdigits hpos hvalid =>
        refine mapError_eq_ok.2 (resolveNumber_eq_ok.2 ⟨n, ?_, hpos, hvalid, rfl⟩)
        rwa [splitBase_baseMark hdigits.ne_baseMark]

/-- What character data take alone, values do not take. -/
theorem DenotesInText.not_denotes {d : Char} (h : DenotesInText name c) : ¬Denotes name d := by
  intro hd
  have hresolve : resolveInValue 0 name = .ok d := resolveInValue_eq_ok.2 hd
  cases h with
  | @signed hex digits n hdigits hvalid =>
      obtain ⟨k, hk, _⟩ := resolveNumber_eq_ok.1 (mapError_eq_ok.1 hresolve)
      rw [splitBase_baseMark fun _ heq => absurd (List.cons.inj heq).1 (by decide)] at hk
      obtain ⟨x, rest, hcons, hplus, _⟩ := hk.exists_cons
      exact hplus (List.cons.inj hcons).1.symm
  | @null hex digits hdigits =>
      obtain ⟨k, hk, hpos, _⟩ := resolveNumber_eq_ok.1 (mapError_eq_ok.1 hresolve)
      rw [splitBase_baseMark hdigits.ne_baseMark] at hk
      exact absurd (hk.value.symm.trans hdigits.value) (Nat.ne_of_gt hpos)

/-! ## Texts with a reference -/

/-- A value with one reference, behind a plain text. -/
theorem unescape_reference (ht : ∀ c ∈ t, c ≠ '&') (hname : ∀ c ∈ name, endsName c = false) :
    unescape (t ++ '&' :: (name ++ [';'])) = .ok text ↔ ∃ c, Denotes name c ∧ text = t ++ [c] := by
  have hfrom : ∀ total start, unescapeFrom total start (t ++ '&' :: (name ++ [';'])) = .ok text ↔
      ∃ c, Denotes name c ∧ text = t ++ [c] := by
    intro total start
    induction t generalizing start text with
    | nil =>
        have hnil : ∀ start, unescapeFrom total start [] = .ok [] := fun _ => by rw [unescapeFrom.eq_def]
        have hreference : unescapeFrom total start ('&' :: (name ++ [';'])) = _ := unescapeFrom_reference hname
        rw [List.nil_append, hreference, bind_eq_ok]
        simp only [resolveInValue_eq_ok, hnil, bind, Except.bind, pure, Except.pure, Except.ok.injEq,
          eq_comm (a := text), List.nil_append]
    | cons d t ih =>
        obtain ⟨hd, ht⟩ := List.forall_mem_cons.1 ht
        rw [List.cons_append, unescapeFrom_plain hd]
        constructor
        · intro h
          obtain ⟨tail, htail, rfl⟩ := map_eq_ok h
          obtain ⟨c, hc, rfl⟩ := (ih ht _).1 htail
          exact ⟨c, hc, rfl⟩
        · rintro ⟨c, hc, rfl⟩
          rw [(ih ht _).2 ⟨c, hc, rfl⟩]
          rfl
  exact hfrom _ _

end Interchange.Xml
