import Interchange.Binding
import Interchange.Proofs.Rounding
import Interchange.Proofs.Spelling

/-!
# Whole numbers in the texts of fields

A whole number of 64 bits that is written down in decimal digits is read by way of the binary format. What is
stored is therefore the nearest number of the format (`Value.coerce_toString`): the number itself if the format
holds it, as it does all numbers up to `2 ^ 53`, and otherwise a neighbour. The last 512 numbers of 64 bits are
nearest to `2 ^ 63`, which has no place in the field.
-/

namespace Interchange

open Decimal (isInt64 Binary64 IsBinary IsNearest nearest)
open Interchange.Path (Trimmed digitsValue_toDigits isDigit_of_mem_toDigits)

variable {n : Int} {num : Nat} {negative : Bool} {c : Char} {cs ds : List Char}

/-! ## Decimal texts -/

/-- The text of a whole number: its digits, behind a minus if it is below zero. -/
theorem toList_toString (n : Int) : (toString n).toList =
    if n < 0 then '-' :: Nat.toDigits 10 n.natAbs else Nat.toDigits 10 n.natAbs := by
  cases n with
  | ofNat num => exact Nat.toList_repr
  | negSucc num =>
      rw [if_pos (Int.negSucc_lt_zero num)]
      exact (String.toList_append).trans (congrArg ('-' :: ·) Nat.toList_repr)

theorem mem_toString (hc : c ∈ (toString n).toList) : c = '-' ∨ c.isDigit = true := by
  rw [toList_toString] at hc
  split at hc
  · exact (List.mem_cons.1 hc).imp_right (isDigit_of_mem_toDigits c)
  · exact Or.inr (isDigit_of_mem_toDigits c hc)

theorem isWordChar_of_mem_toString : ∀ c ∈ (toString n).toList, Path.isWordChar c = true := by
  intro c hc
  rcases mem_toString hc with rfl | hdigit
  · decide
  · exact Path.isWordChar_of_isDigit hdigit

theorem trimChars_toString : Text.trimChars (toString n).toList = (toString n).toList :=
  (Trimmed.of_words isWordChar_of_mem_toString).trimChars

theorem trim_toString : Text.trim (toString n) = toString n := by
  rw [Text.trim, trimChars_toString, String.ofList_toList]

/-- The text of a whole number has no marks between groups of digits. -/
theorem plainNumber_toString : Value.plainNumber (toString n).toList = (toString n).toList := by
  have hcomma : ',' ∉ (toString n).toList := fun h => by
    rcases mem_toString h with h | h <;> exact absurd h (by decide)
  have hpoint : '.' ∉ (toString n).toList := fun h => by
    rcases mem_toString h with h | h <;> exact absurd h (by decide)
  have hcount : ¬1 < (toString n).toList.count '.' := by
    rw [List.count_eq_zero.2 hpoint]
    decide
  rw [Value.plainNumber, trimChars_toString, if_neg hcount, if_neg (by simpa using hcomma)]

/-! ## Numerals -/

namespace Decimal

theorem ofDigits_toDigits (num : Nat) : ofDigits (Nat.toDigits 10 num) = num := digitsValue_toDigits num

theorem digit_lt_ten (h : c.isDigit = true) : digit c < 10 ∧ (digit c).digitChar = c := by
  obtain ⟨hlow, hhigh⟩ : 48 ≤ c.toNat ∧ c.toNat ≤ 57 := Char.isDigit_iff_toNat.1 h
  have hdigit : digit c = c.toNat - 48 := rfl
  have hlt : digit c < 10 := by omega
  refine ⟨hlt, Char.toNat_inj.1 ?_⟩
  rw [Nat.toNat_digitChar_of_lt_ten hlt]
  omega

theorem ofDigits_concat (ds : List Char) (c : Char) : ofDigits (ds ++ [c]) = 10 * ofDigits ds + digit c := by
  rw [ofDigits, List.foldl_append, Nat.mul_comm]
  rfl

theorem ofDigits_lt (hds : ∀ c ∈ ds, c.isDigit = true) : ofDigits ds < 10 ^ ds.length := by
  induction ds using List.reverseRecOn with
  | nil => exact Nat.one_pos
  | append_singleton ds c ih =>
      obtain ⟨hfront, hc⟩ := List.forall_mem_append.1 hds
      have hlt := (digit_lt_ten (hc c (List.mem_singleton_self c))).1
      have hfrontlt := ih hfront
      rw [ofDigits_concat, List.length_append, List.length_singleton, Nat.pow_succ]
      omega

/-- Digits behind an optional sign. -/
theorem readNumeral_digits (hsign : splitSign cs = (negative, ds)) (hne : ds ≠ [])
    (hds : ∀ c ∈ ds, c.isDigit = true) : readNumeral cs = some ⟨negative, ofDigits ds, 0⟩ := by
  have htake : ds.takeWhile Char.isDigit = ds := List.takeWhile_eq_self_iff.2 hds
  have hdrop : ds.dropWhile Char.isDigit = [] := List.dropWhile_eq_nil_iff.2 hds
  simp [readNumeral, hsign, htake, hdrop, hne, readExponent]

/-- No digit is a sign. -/
theorem splitSign_cons (hc : c.isDigit = true) : splitSign (c :: cs) = (false, c :: cs) := by
  unfold splitSign
  split
  · rename_i heq
    cases heq
    exact absurd hc (by decide)
  · rename_i heq
    cases heq
    exact absurd hc (by decide)
  · rfl

theorem splitSign_digits (hds : ∀ c ∈ ds, c.isDigit = true) : splitSign ds = (false, ds) := by
  cases ds with
  | nil => rfl
  | cons c ds => exact splitSign_cons (hds c List.mem_cons_self)

theorem readNumeral_toString : readNumeral (toString n).toList = some ⟨decide (n < 0), n.natAbs, 0⟩ := by
  have hdigits : ∀ c ∈ Nat.toDigits 10 n.natAbs, c.isDigit = true := isDigit_of_mem_toDigits
  have hsign : splitSign (toString n).toList = (decide (n < 0), Nat.toDigits 10 n.natAbs) := by
    rw [toList_toString]
    split <;> rename_i hn
    · rw [decide_eq_true hn]
      rfl
    · rw [decide_eq_false hn, splitSign_digits hdigits]
  rw [readNumeral_digits hsign Nat.toDigits_ne_nil hdigits, ofDigits_toDigits]

namespace Binary64

theorem ofNumeral_whole (hnum : num < 2 ^ 64) : ofNumeral ⟨negative, num, 0⟩ = ofRatio negative num 1 := by
  have hlength : (toString num).length ≤ 20 :=
    (Nat.length_repr_le_iff (by decide)).2 (Nat.lt_trans hnum (by decide))
  have hlarge : ¬310 < ((toString num).length : Int) + 0 := by omega
  have hsmall : ¬((toString num).length : Int) + 0 < -330 := by omega
  have hscale : scaleByTen num 1 0 = (num, 1) := by simp [scaleByTen]
  unfold ofNumeral
  split
  · rename_i hzero
    exact (if_pos hzero).symm
  · simp only [if_neg hlarge, if_neg hsmall, hscale]

/-- The text of a whole number of 64 bits is read as the nearest number of the format. -/
theorem read_toString (hn : isInt64 n = true) :
    ∃ b, read (toString n).toList = some b ∧ b.round = nearest n := by
  have hnum : n.natAbs < 2 ^ 64 := by
    simp only [isInt64, Bool.and_eq_true, decide_eq_true_eq] at hn
    omega
  obtain ⟨b, hb, hround⟩ : ∃ b, ofRatio (decide (n < 0)) n.natAbs 1 = some b ∧ _ := round_ofRatio hnum
  refine ⟨b, ?_, ?_⟩
  · rw [read, readNumeral_toString, Option.bind_some, ofNumeral_whole hnum, hb]
  · rw [hround, nearest]
    by_cases h : n < 0
    · rw [if_pos h, decide_eq_true h]
      rfl
    · rw [if_neg h, decide_eq_false h]
      rfl

end Binary64

/-! ## The range -/

/-- The last numbers of 64 bits are nearest to the first one of 65 bits. -/
theorem nearest_of_last (hlow : 2 ^ 63 - 512 ≤ n) (hhigh : n < 2 ^ 63) : nearest n = 2 ^ 63 := by
  have hlog : n.natAbs.log2 = 62 := (Nat.log2_eq_iff (by omega)).2 ⟨by omega, by omega⟩
  have hplace : lastPlace n.natAbs = 1024 := by
    calc
      lastPlace n.natAbs = 2 ^ (62 - 52) := by rw [lastPlace, hlog]
      _ = 1024 := by decide
  have hquotient : n.natAbs / 1024 = 2 ^ 53 - 1 := by omega
  have hrest : 512 ≤ n.natAbs % 1024 := by omega
  -- halfway between two multiples, the lower one is odd
  have hround : roundToEven n.natAbs 1024 = 2 ^ 53 := by
    simp only [roundToEven, hquotient]
    rw [if_neg (by omega)]
    split <;> rfl
  rw [nearest, if_neg (by omega), nearestNat, hplace, hround]
  decide

/-- The number that a number of 64 bits is rounded to has 64 bits itself, but for the last ones. -/
theorem isInt64_nearest_iff (hn : isInt64 n = true) : isInt64 (nearest n) = true ↔ n < 2 ^ 63 - 512 := by
  simp only [isInt64, Bool.and_eq_true, decide_eq_true_eq] at hn ⊢
  constructor
  · intro h
    refine Int.not_le.1 fun hlast => ?_
    rw [nearest_of_last hlast hn.2] at h
    exact absurd h.2 (by decide)
  · intro h
    -- the ends of the range are numbers of the format
    have hnearest := isNearest_nearest n
    have hleast := hnearest.le (-2 ^ 63) ⟨1, 63, by decide, by decide⟩
    have hgreatest := hnearest.le (2 ^ 63 - 1024) ⟨2 ^ 53 - 1, 10, by decide, by decide⟩
    omega

end Decimal

/-! ## Reading and binding -/

theorem Value.readInteger_toString (hn : isInt64 n = true) : Value.readInteger (toString n) =
    if n < 2 ^ 63 - 512 then .ok (nearest n) else .error (.outOfRange (toString n)) := by
  obtain ⟨b, hb, hround⟩ := Binary64.read_toString hn
  simp only [Value.readInteger, Value.readNumber, plainNumber_toString, hb, hround, trim_toString,
    Decimal.isInt64_nearest_iff hn]

theorem Value.coerce_integer (text : String) :
    Value.coerce .integer text = (Value.readInteger text).map .integer := rfl

theorem Value.coerce_integer_eq_ok {text : String} {m : Int} :
    Value.coerce .integer text = .ok (.integer m) ↔ Value.readInteger text = .ok m := by
  rw [Value.coerce_integer]
  cases Value.readInteger text <;> simp [Except.map]

theorem Value.readInteger_toString_eq_ok (hn : isInt64 n = true) :
    Value.readInteger (toString n) = .ok n ↔ IsBinary n := by
  rw [Value.readInteger_toString hn, ← Decimal.nearest_eq_self_iff]
  constructor
  · intro h
    split at h
    · injection h
    · cases h
  · intro h
    have hrange : n < 2 ^ 63 - 512 := (Decimal.isInt64_nearest_iff hn).1 (h.symm ▸ hn)
    rw [if_pos hrange, h]

/-- What a rule for whole numbers puts into a field of 64 bits. -/
theorem Rule.bind_integer {R : Type} {r : Rule} {transforms : TransformTable} {fields : FieldTable R}
    {raw : String} {record : R} {set : Int → R → Except Crash R} (htype : r.type = .integer)
    (hfield : fields.find r.field = some (.int64 set)) : r.bind transforms fields raw record =
      match Value.readInteger (r.transformed transforms raw) with
      | .ok m => (set m record).mapError .crash
      | .error flaw => .error (.flaw flaw) := by
  rw [Rule.bind, hfield, htype, Value.coerce_integer]
  cases Value.readInteger (r.transformed transforms raw) <;> rfl

/-- A whole number of 64 bits that is written in decimal digits is read as the one number of the format that is
nearest to it, unless that is `2 ^ 63`. The number itself is read just if the format holds it, and so are all
numbers up to `2 ^ 53`. A rule puts what is read into a field of 64 bits. -/
theorem Value.coerce_toString (hn : isInt64 n = true) : ∃ m, IsNearest n m ∧ (∀ k, IsNearest n k → k = m) ∧
    (Value.coerce .integer (toString n) =
      if n < 2 ^ 63 - 512 then .ok (.integer m) else .error (.outOfRange (toString n))) ∧
    (Value.coerce .integer (toString n) = .ok (.integer n) ↔ IsBinary n) ∧ (n.natAbs ≤ 2 ^ 53 → IsBinary n) ∧
    ∀ {R : Type} (r : Rule) (transforms : TransformTable) (fields : FieldTable R) (raw : String) (record : R)
      (set : Int → R → Except Crash R), r.type = .integer → r.transformed transforms raw = toString n →
        fields.find r.field = some (.int64 set) → r.bind transforms fields raw record =
          if n < 2 ^ 63 - 512 then (set m record).mapError .crash else .error (.flaw (.outOfRange (toString n))) := by
  have hnearest := Decimal.isNearest_nearest n
  have hread := Value.readInteger_toString hn
  refine ⟨nearest n, hnearest, fun k hk => hnearest.unique hk, ?_, ?_, Decimal.isBinary_of_le, ?_⟩
  · rw [Value.coerce_integer, hread]
    split <;> rfl
  · exact Value.coerce_integer_eq_ok.trans (Value.readInteger_toString_eq_ok hn)
  · intro R r transforms fields raw record set htype hraw hfield
    rw [Rule.bind_integer htype hfield, hraw, hread]
    by_cases hrange : n < 2 ^ 63 - 512
    · simp only [if_pos hrange]
    · simp only [if_neg hrange]

/-- A rule for a number with sixteen digits. -/
def identifierRule : Rule := { Rule.new "ASN" "/ASN/@id" "identifier" with dataType := "integer" }

/-- A record of one number. -/
def identifierFields : FieldTable Int := FieldTable.empty.int64 "identifier" fun _ m => m

theorem identifierFields_find : identifierFields.find "identifier" = some (.int64 fun m _ => .ok m) := by
  have hname : FieldName.normalize "identifier" = "identifier" := by decide
  simp [identifierFields, FieldTable.int64, FieldTable.add, FieldTable.empty, FieldTable.find, hname]

theorem Value.coerce_toString_odd : isInt64 9007199254740993 = true ∧
    Value.coerce .integer (toString (9007199254740993 : Int)) = .ok (.integer 9007199254740992) ∧
    identifierRule.bind .empty identifierFields (toString (9007199254740993 : Int)) 0 = .ok 9007199254740992 := by
  have hn : isInt64 9007199254740993 = true := by decide
  have htype : identifierRule.type = .integer := by decide
  have hnearest : nearest 9007199254740993 = 9007199254740992 := by decide
  obtain ⟨m, _, hunique, hcoerce, _, _, hbind⟩ := Value.coerce_toString hn
  have hm : 9007199254740992 = m := hunique _ (hnearest ▸ Decimal.isNearest_nearest 9007199254740993)
  subst hm
  exact ⟨hn, hcoerce, hbind _ _ _ _ _ _ htype rfl identifierFields_find⟩

/-- The greatest number of 64 bits is said to be out of range, and the number behind `2 ^ 53` is read as `2 ^ 53`. -/
theorem Value.coerce_greatest : isInt64 9223372036854775807 = true ∧
    toString (9223372036854775807 : Int) = "9223372036854775807" ∧
    Value.coerce .integer "9223372036854775807" = .error (.outOfRange "9223372036854775807") ∧
    Value.coerce .integer "9007199254740993" = .ok (.integer 9007199254740992) := by
  decide

end Interchange
