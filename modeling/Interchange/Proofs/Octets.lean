import Interchange.Proofs.Traversal
import Interchange.Text.Utf8

/-!
# Reading and writing octets

Octets are the text of characters exactly if writing the characters gives these octets
(`Text.Utf8.decode_eq_ok`). Every octet of a character outside ASCII is one outside ASCII, so that the
octets that delimit markup are found where their characters stand.
-/

namespace Interchange.Text.Utf8

variable {c : Char} {cs : List Char} {a b : UInt8} {octets rest : Octets} {index n : Nat}

/-- The octets that are read as a character. -/
inductive Spells : Octets → Char → Prop
  | one {a : UInt8} (ha : a < 0x80) : Spells [a] (Char.ofNat a.toNat)
  | two {a b : UInt8} (ha : 0xC2 ≤ a ∧ a ≤ 0xDF) (hb : isTail b) :
      Spells [a, b] (Char.ofNat (a.toNat % 32 * 64 + low b))
  | three {a b c : UInt8} (ha : 0xE0 ≤ a ∧ a ≤ 0xEF) (hb : isSecondOfThree a b) (hc : isTail c) :
      Spells [a, b, c] (Char.ofNat ((a.toNat % 16 * 64 + low b) * 64 + low c))
  | four {a b c d : UInt8} (ha : 0xF0 ≤ a ∧ a ≤ 0xF4) (hb : isSecondOfFour a b) (hc : isTail c)
      (hd : isTail d) :
      Spells [a, b, c, d] (Char.ofNat (((a.toNat % 8 * 64 + low b) * 64 + low c) * 64 + low d))

/-! ## Octets as numbers -/

theorem toUInt8_eq (h : n = a.toNat) : n.toUInt8 = a := by
  rw [h, Nat.toUInt8_eq, UInt8.ofNat_toNat]

theorem toNat_toUInt8 (h : n < 256) : n.toUInt8.toNat = n := by
  rw [Nat.toUInt8_eq, UInt8.toNat_ofNat']
  exact Nat.mod_eq_of_lt h

theorem isTail_iff : isTail b ↔ 0x80 ≤ b.toNat ∧ b.toNat ≤ 0xBF := by
  simp [isTail, UInt8.le_iff_toNat_le]

theorem isSecondOfThree_iff : isSecondOfThree a b ↔ 0x80 ≤ b.toNat ∧ b.toNat ≤ 0xBF ∧
    (a.toNat = 0xE0 → 0xA0 ≤ b.toNat) ∧ (a.toNat = 0xED → b.toNat ≤ 0x9F) := by
  have hfirst : a = 0xE0 ↔ a.toNat = 0xE0 := by rw [← UInt8.toNat_inj]; rfl
  have hlast : a = 0xED ↔ a.toNat = 0xED := by rw [← UInt8.toNat_inj]; rfl
  simp only [isSecondOfThree, hfirst, hlast]
  split
  · simp only [Bool.and_eq_true, decide_eq_true_eq, UInt8.le_iff_toNat_le]
    simp
    omega
  split
  · simp only [Bool.and_eq_true, decide_eq_true_eq, UInt8.le_iff_toNat_le]
    simp
    omega
  · rw [isTail_iff]
    omega

theorem isSecondOfFour_iff : isSecondOfFour a b ↔ 0x80 ≤ b.toNat ∧ b.toNat ≤ 0xBF ∧
    (a.toNat = 0xF0 → 0x90 ≤ b.toNat) ∧ (a.toNat = 0xF4 → b.toNat ≤ 0x8F) := by
  have hfirst : a = 0xF0 ↔ a.toNat = 0xF0 := by rw [← UInt8.toNat_inj]; rfl
  have hlast : a = 0xF4 ↔ a.toNat = 0xF4 := by rw [← UInt8.toNat_inj]; rfl
  simp only [isSecondOfFour, hfirst, hlast]
  split
  · simp only [Bool.and_eq_true, decide_eq_true_eq, UInt8.le_iff_toNat_le]
    simp
    omega
  split
  · simp only [Bool.and_eq_true, decide_eq_true_eq, UInt8.le_iff_toNat_le]
    simp
    omega
  · rw [isTail_iff]
    omega

theorem toNat_ofNat (h : n < 0xD800 ∨ 0xDFFF < n ∧ n < 0x110000) : (Char.ofNat n).toNat = n := by
  rw [Char.ofNat, dif_pos h]
  rfl

/-! ## Each character is spelled in one way -/

theorem Spells.eq_encodeChar (h : Spells octets c) : octets = encodeChar c := by
  cases h with
  | @one a ha =>
      have hlt : a.toNat < 0x80 := UInt8.lt_iff_toNat_lt.1 ha
      have hn : (Char.ofNat a.toNat).toNat = a.toNat := toNat_ofNat (by omega)
      simp only [encodeChar, hn]
      rw [if_pos hlt, toUInt8_eq rfl]
  | @two a b ha hb =>
      have ha₁ : 0xC2 ≤ a.toNat := UInt8.le_iff_toNat_le.1 ha.1
      have ha₂ : a.toNat ≤ 0xDF := UInt8.le_iff_toNat_le.1 ha.2
      rw [isTail_iff] at hb
      simp only [low]
      have hn : (Char.ofNat (a.toNat % 32 * 64 + b.toNat % 64)).toNat =
          a.toNat % 32 * 64 + b.toNat % 64 := toNat_ofNat (by omega)
      simp only [encodeChar, hn]
      rw [if_neg (by omega), if_pos (by omega), toUInt8_eq (a := a) (by omega),
        toUInt8_eq (a := b) (by omega)]
  | @three a b c ha hb hc =>
      have ha₁ : 0xE0 ≤ a.toNat := UInt8.le_iff_toNat_le.1 ha.1
      have ha₂ : a.toNat ≤ 0xEF := UInt8.le_iff_toNat_le.1 ha.2
      rw [isSecondOfThree_iff] at hb
      rw [isTail_iff] at hc
      simp only [low]
      have hn : (Char.ofNat ((a.toNat % 16 * 64 + b.toNat % 64) * 64 + c.toNat % 64)).toNat =
          (a.toNat % 16 * 64 + b.toNat % 64) * 64 + c.toNat % 64 := toNat_ofNat (by omega)
      simp only [encodeChar, hn]
      rw [if_neg (by omega), if_neg (by omega), if_pos (by omega), toUInt8_eq (a := a) (by omega),
        toUInt8_eq (a := b) (by omega), toUInt8_eq (a := c) (by omega)]
  | @four a b c d ha hb hc hd =>
      have ha₁ : 0xF0 ≤ a.toNat := UInt8.le_iff_toNat_le.1 ha.1
      have ha₂ : a.toNat ≤ 0xF4 := UInt8.le_iff_toNat_le.1 ha.2
      rw [isSecondOfFour_iff] at hb
      rw [isTail_iff] at hc hd
      simp only [low]
      have hn : (Char.ofNat
          (((a.toNat % 8 * 64 + b.toNat % 64) * 64 + c.toNat % 64) * 64 + d.toNat % 64)).toNat =
          ((a.toNat % 8 * 64 + b.toNat % 64) * 64 + c.toNat % 64) * 64 + d.toNat % 64 :=
        toNat_ofNat (by omega)
      simp only [encodeChar, hn]
      rw [if_neg (by omega), if_neg (by omega), if_neg (by omega), toUInt8_eq (a := a) (by omega),
        toUInt8_eq (a := b) (by omega), toUInt8_eq (a := c) (by omega),
        toUInt8_eq (a := d) (by omega)]

theorem ofNat_eq (h : n = c.toNat) : Char.ofNat n = c := by
  rw [h, Char.ofNat_toNat]

theorem between_toUInt8 {x y : UInt8} (hn : n < 256) (hx : x.toNat ≤ n) (hy : n ≤ y.toNat) :
    x ≤ n.toUInt8 ∧ n.toUInt8 ≤ y := by
  rw [UInt8.le_iff_toNat_le, UInt8.le_iff_toNat_le, toNat_toUInt8 hn]
  exact ⟨hx, hy⟩

/-- Every character is spelled by the octets that it is written as. -/
theorem spells_encodeChar (c : Char) : Spells (encodeChar c) c := by
  have hvalid : c.toNat < 0xD800 ∨ 0xDFFF < c.toNat ∧ c.toNat < 0x110000 := c.valid
  have htail : ∀ k, isTail (0x80 + k % 64).toUInt8 = true := fun k => by
    rw [isTail_iff, toNat_toUInt8 (by omega)]
    omega
  by_cases hone : c.toNat < 0x80
  · have ha : c.toNat.toUInt8 < 0x80 := by
      rw [UInt8.lt_iff_toNat_lt, toNat_toUInt8 (by omega)]
      exact hone
    have h := Spells.one ha
    rw [toNat_toUInt8 (by omega), Char.ofNat_toNat] at h
    rw [encodeChar]
    simpa only [if_pos hone] using h
  by_cases htwo : c.toNat < 0x800
  · have ha := between_toUInt8 (x := 0xC2) (y := 0xDF) (n := 0xC0 + c.toNat / 64) (by omega)
      (show 0xC2 ≤ _ by omega) (show _ ≤ 0xDF by omega)
    have h := Spells.two ha (htail c.toNat)
    rw [low, toNat_toUInt8 (by omega), toNat_toUInt8 (by omega), ofNat_eq (c := c) (by omega)] at h
    simpa only [encodeChar, if_neg hone, if_pos htwo] using h
  by_cases hthree : c.toNat < 0x10000
  · have hb : isSecondOfThree (0xE0 + c.toNat / 4096).toUInt8 (0x80 + c.toNat / 64 % 64).toUInt8 = true := by
      rw [isSecondOfThree_iff, toNat_toUInt8 (by omega), toNat_toUInt8 (by omega)]
      omega
    have ha := between_toUInt8 (x := 0xE0) (y := 0xEF) (n := 0xE0 + c.toNat / 4096) (by omega)
      (show 0xE0 ≤ _ by omega) (show _ ≤ 0xEF by omega)
    have h := Spells.three ha hb (htail c.toNat)
    rw [low, low, toNat_toUInt8 (by omega), toNat_toUInt8 (by omega), toNat_toUInt8 (by omega),
      ofNat_eq (c := c) (by omega)] at h
    simpa only [encodeChar, if_neg hone, if_neg htwo, if_pos hthree] using h
  · have hb : isSecondOfFour (0xF0 + c.toNat / 262144).toUInt8 (0x80 + c.toNat / 4096 % 64).toUInt8 =
        true := by
      rw [isSecondOfFour_iff, toNat_toUInt8 (by omega), toNat_toUInt8 (by omega)]
      omega
    have ha := between_toUInt8 (x := 0xF0) (y := 0xF4) (n := 0xF0 + c.toNat / 262144) (by omega)
      (show 0xF0 ≤ _ by omega) (show _ ≤ 0xF4 by omega)
    have h := Spells.four ha hb (htail (c.toNat / 64)) (htail c.toNat)
    rw [low, low, low, toNat_toUInt8 (by omega), toNat_toUInt8 (by omega), toNat_toUInt8 (by omega),
      toNat_toUInt8 (by omega), ofNat_eq (c := c) (by omega)] at h
    simpa only [encodeChar, if_neg hone, if_neg htwo, if_neg hthree] using h

/-! ## Texts -/

/-- Octets that spell a character are read as this character and what follows. -/
theorem decodeFrom_spells (h : Spells octets c) :
    decodeFrom index (octets ++ rest) = (decodeFrom (index + octets.length) rest).map (c :: ·) := by
  cases h with
  | one ha =>
      rw [List.singleton_append, decodeFrom.eq_def]
      simp only [ha, if_true]
      rfl
  | @two a b ha hb =>
      have hone : ¬a < 0x80 := UInt8.not_lt.2 (UInt8.le_trans (by decide) ha.1)
      rw [List.cons_append, List.singleton_append, decodeFrom.eq_def]
      simp [hone, ha, hb]
  | @three a b d ha hb hd =>
      have hone : ¬a < 0x80 := UInt8.not_lt.2 (UInt8.le_trans (by decide) ha.1)
      have htwo : ¬a ≤ 0xDF := UInt8.not_le.2 (UInt8.lt_of_lt_of_le (by decide) ha.1)
      rw [List.cons_append, List.cons_append, List.singleton_append, decodeFrom.eq_def]
      simp [hone, htwo, ha, hb, hd]
  | @four a b d e ha hb hd he =>
      have hone : ¬a < 0x80 := UInt8.not_lt.2 (UInt8.le_trans (by decide) ha.1)
      have htwo : ¬a ≤ 0xDF := UInt8.not_le.2 (UInt8.lt_of_lt_of_le (by decide) ha.1)
      have hthree : ¬a ≤ 0xEF := UInt8.not_le.2 (UInt8.lt_of_lt_of_le (by decide) ha.1)
      rw [List.cons_append, List.cons_append, List.cons_append, List.singleton_append, decodeFrom.eq_def]
      simp [hone, htwo, hthree, ha, hb, hd, he]

theorem decodeFrom_encode : decodeFrom index (encode cs) = .ok cs := by
  induction cs generalizing index with
  | nil => rfl
  | cons c cs ih =>
      rw [encode_cons, decodeFrom_spells (spells_encodeChar c), ih]
      rfl

@[simp] theorem decode_encode : decode (encode cs) = .ok cs := decodeFrom_encode

/-- What is read comes apart into the first character and the rest. -/
theorem spells_of_decodeFrom (h : decodeFrom index octets = .ok cs) :
    (octets = [] ∧ cs = []) ∨ ∃ front rest c more, octets = front ++ rest ∧ Spells front c ∧
      decodeFrom (index + front.length) rest = .ok more ∧ cs = c :: more := by
  have hmap : ∀ {front : Octets} {c : Char} {rest : Octets}, octets = front ++ rest → Spells front c →
      (decodeFrom (index + front.length) rest).map (c :: ·) = .ok cs →
        (octets = [] ∧ cs = []) ∨ ∃ front rest c more, octets = front ++ rest ∧ Spells front c ∧
          decodeFrom (index + front.length) rest = .ok more ∧ cs = c :: more := by
    intro front c rest hfront hspells hrest
    cases hmore : decodeFrom (index + front.length) rest with
    | error e => simp [hmore, Except.map] at hrest
    | ok more =>
        simp only [hmore, Except.map, Except.ok.injEq] at hrest
        exact Or.inr ⟨front, rest, c, more, hfront, hspells, hmore, hrest.symm⟩
  rw [decodeFrom.eq_def] at h
  split at h
  · cases h
    exact Or.inl ⟨rfl, rfl⟩
  · rename_i a rest
    dsimp only at h
    split at h
    · rename_i ha
      exact hmap rfl (.one ha) h
    split at h
    · rename_i ha
      split at h
      · cases h
      split at h
      · cases h
      · rename_i b more hb
        exact @hmap [a, b] _ more rfl (.two (by simpa using ha) (by simpa using hb)) h
    split at h
    · rename_i ha
      split at h
      · cases h
      split at h
      · cases h
      rename_i b _ hb
      split at h
      · cases h
      split at h
      · cases h
      · rename_i d more hd
        exact @hmap [a, b, d] _ more rfl
          (.three (by simpa using ha) (by simpa using hb) (by simpa using hd)) h
    split at h
    · rename_i ha
      split at h
      · cases h
      split at h
      · cases h
      rename_i b _ hb
      split at h
      · cases h
      split at h
      · cases h
      rename_i d _ hd
      split at h
      · cases h
      split at h
      · cases h
      · rename_i e more he
        exact @hmap [a, b, d, e] _ more rfl
          (.four (by simpa using ha) (by simpa using hb) (by simpa using hd) (by simpa using he)) h
    · cases h

theorem Spells.ne_nil (h : Spells octets c) : octets ≠ [] := by
  cases h <;> simp

theorem eq_encode_of_decodeFrom {index : Nat} {octets : Octets} {cs : List Char}
    (h : decodeFrom index octets = .ok cs) : octets = encode cs := by
  rcases spells_of_decodeFrom h with ⟨rfl, rfl⟩ | ⟨front, rest, c, more, hoctets, hspells, hmore, rfl⟩
  · rfl
  · have hlt : rest.length < octets.length := by
      have hfront := List.length_pos_iff.2 hspells.ne_nil
      rw [hoctets, List.length_append]
      omega
    rw [encode_cons, ← hspells.eq_encodeChar, ← eq_encode_of_decodeFrom hmore, hoctets]
termination_by octets.length

/-- Octets are the text of characters exactly if they are what the characters are written as. -/
theorem decode_eq_ok : decode octets = .ok cs ↔ octets = encode cs := by
  constructor
  · exact eq_encode_of_decodeFrom
  · rintro rfl
    exact decode_encode

theorem decodeFrom_append : decodeFrom index (encode cs ++ rest) =
    (decodeFrom (index + (encode cs).length) rest).map (cs ++ ·) := by
  induction cs generalizing index with
  | nil => cases h : decodeFrom index rest <;> simp [h, Except.map]
  | cons c cs ih =>
      rw [encode_cons, List.append_assoc, decodeFrom_spells (spells_encodeChar c), ih, List.length_append,
        Nat.add_assoc]
      cases decodeFrom (index + ((encodeChar c).length + (encode cs).length)) rest <;> rfl

/-- What stands behind text in a text is text. -/
theorem append_eq_encode {ds : List Char} :
    encode cs ++ rest = encode ds ↔ ∃ more, rest = encode more ∧ ds = cs ++ more := by
  constructor
  · intro h
    have hread : decodeFrom 0 (encode cs ++ rest) = .ok ds := h ▸ decodeFrom_encode
    rw [decodeFrom_append] at hread
    obtain ⟨more, hmore, rfl⟩ := map_eq_ok hread
    exact ⟨more, eq_encode_of_decodeFrom hmore, rfl⟩
  · rintro ⟨more, rfl, rfl⟩
    exact (encode_append cs more).symm

/-- Different texts are written differently. -/
theorem encodeText_inj {s t : String} : encodeText s = encodeText t ↔ s = t := by
  refine ⟨fun h => ?_, congrArg _⟩
  have hdecode : decode (encodeText s) = .ok s.toList := decode_encode
  rw [h, encodeText, decode_encode, Except.ok.injEq] at hdecode
  exact String.toList_inj.1 hdecode.symm

/-! ## Octets of ASCII -/

/-- An octet of ASCII is the whole of its character. -/
theorem toNat_of_mem_encodeChar (ha : a.toNat < 0x80) (h : a ∈ encodeChar c) : c.toNat = a.toNat := by
  have htail : ∀ b : UInt8, isTail b = true → 0x80 ≤ b.toNat := fun b hb => (isTail_iff.1 hb).1
  have hlead : ∀ b x : UInt8, 0x80 ≤ x.toNat → x ≤ b → 0x80 ≤ b.toNat := fun b x hx hb =>
    Nat.le_trans hx (UInt8.le_iff_toNat_le.1 hb)
  have hspells := spells_encodeChar c
  generalize encodeChar c = octets at h hspells
  cases hspells with
  | one hone =>
      rw [List.mem_singleton.1 h] at ha ⊢
      exact toNat_ofNat (by omega)
  | @two b d hb hd =>
      have h₁ := hlead b 0xC2 (by decide) hb.1
      have h₂ := htail d hd
      simp only [List.mem_cons, List.not_mem_nil, or_false] at h
      rcases h with rfl | rfl <;> omega
  | @three b d e hb hd he =>
      have h₁ := hlead b 0xE0 (by decide) hb.1
      have h₂ := (isSecondOfThree_iff.1 hd).1
      have h₃ := htail e he
      simp only [List.mem_cons, List.not_mem_nil, or_false] at h
      rcases h with rfl | rfl | rfl <;> omega
  | @four b d e f hb hd he hf =>
      have h₁ := hlead b 0xF0 (by decide) hb.1
      have h₂ := (isSecondOfFour_iff.1 hd).1
      have h₃ := htail e he
      have h₄ := htail f hf
      simp only [List.mem_cons, List.not_mem_nil, or_false] at h
      rcases h with rfl | rfl | rfl | rfl <;> omega

/-- An octet of ASCII stands in a text exactly where its character does. -/
theorem mem_of_mem_encode (ha : a.toNat < 0x80) (h : a ∈ encode cs) : Char.ofNat a.toNat ∈ cs := by
  obtain ⟨c, hc, hmem⟩ := List.mem_flatMap.1 h
  rw [← toNat_of_mem_encodeChar ha hmem, Char.ofNat_toNat]
  exact hc

end Interchange.Text.Utf8
