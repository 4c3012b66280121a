import Interchange.Proofs.Octets
import Interchange.Xml.Canonical
import Interchange.Xml.Reference
import Interchange.Xml.Reader
import Interchange.Xml.Attribute

/-!
# Names and escaped texts

No octet of a name delimits markup. The characters of a text that would are written as references, from
which the text is read back (`unescape_escape`).
-/

namespace Interchange.Xml

open Text.Utf8 (Octets encode encodeText encode_append encodeText_inj mem_of_mem_encode)

/-! ## Names -/

/-- A character that may begin a name. -/
def isNameStart (c : Char) : Bool :=
  let n := c.toNat
  c == ':' || c == '_' || c.isAlpha || (0xC0 ≤ n && n ≤ 0xD6) || (0xD8 ≤ n && n ≤ 0xF6) ||
    (0xF8 ≤ n && n ≤ 0x2FF) || (0x370 ≤ n && n ≤ 0x37D) || (0x37F ≤ n && n ≤ 0x1FFF) ||
    (0x200C ≤ n && n ≤ 0x200D) || (0x2070 ≤ n && n ≤ 0x218F) || (0x2C00 ≤ n && n ≤ 0x2FEF) ||
    (0x3001 ≤ n && n ≤ 0xD7FF) || (0xF900 ≤ n && n ≤ 0xFDCF) || (0xFDF0 ≤ n && n ≤ 0xFFFD) ||
    (0x10000 ≤ n && n ≤ 0xEFFFF)

/-- A character that may stand in a name. -/
def isNameChar (c : Char) : Bool :=
  let n := c.toNat
  isNameStart c || c == '-' || c == '.' || c.isDigit || n == 0xB7 || (0x300 ≤ n && n ≤ 0x36F) ||
    (0x203F ≤ n && n ≤ 0x2040)

/-- The names of XML 1.0. -/
def isXmlName (name : String) : Bool :=
  match name.toList with
  | [] => false
  | c :: rest => isNameStart c && rest.all isNameChar

variable {name : String} {v : List Char} {b : UInt8}

theorem isNameChar_of_mem {c : Char} (h : isXmlName name) (hc : c ∈ name.toList) : isNameChar c := by
  unfold isXmlName at h
  cases hname : name.toList with
  | nil => simp [hname] at h
  | cons first more =>
      rw [hname, Bool.and_eq_true] at h
      rw [hname] at hc
      rcases List.mem_cons.1 hc with rfl | hc
      · simp [isNameChar, h.1]
      · exact List.all_eq_true.1 h.2 c hc

/-- An octet of ASCII stands in a name only if its character may. -/
theorem notMem_name (h : isXmlName name) (hb : b.toNat < 0x80)
    (hchar : isNameChar (Char.ofNat b.toNat) = false) : b ∉ encodeText name := fun hmem =>
  Bool.false_ne_true (hchar.symm.trans (isNameChar_of_mem h (mem_of_mem_encode hb hmem)))

theorem isSpace_name (h : isXmlName name) (hb : b ∈ encodeText name) : isSpace b = false := by
  rw [Bool.eq_false_iff]
  intro hspace
  simp only [isSpace, Bool.or_eq_true, beq_iff_eq] at hspace
  rcases hspace with ((rfl | rfl) | rfl) | rfl <;>
    exact notMem_name h (by decide) (by decide) hb

theorem endsKey_name (h : isXmlName name) (hb : b ∈ encodeText name) : endsKey b = false := by
  rw [endsKey, isSpace_name h hb, Bool.or_false, beq_eq_false_iff_ne]
  rintro rfl
  exact notMem_name h (by decide) (by decide) hb

/-- A name begins with an octet, and with none that opens other markup. -/
theorem exists_cons_name (h : isXmlName name) : ∃ b more, encodeText name = b :: more ∧
    b ≠ exclamation ∧ b ≠ slash ∧ b ≠ questionMark := by
  cases hoctets : encodeText name with
  | nil =>
      have hname : name = "" := encodeText_inj.1 hoctets
      simp [isXmlName, hname] at h
  | cons b more =>
      have hb : b ∈ encodeText name := by simp [hoctets]
      refine ⟨b, more, rfl, ?_, ?_, ?_⟩ <;>
        · rintro rfl
          exact notMem_name h (by decide) (by decide) hb

/-! ## Escaped characters -/

/-- The characters that are written as references. -/
def isSpecial (c : Char) : Bool := c == '<' || c == '>' || c == '&' || c == '\'' || c == '"'

theorem escapeChar_of_not_special {c : Char} (h : isSpecial c = false) : escapeChar c = [c] := by
  simp only [isSpecial, Bool.or_eq_false_iff, beq_eq_false_iff_ne] at h
  obtain ⟨⟨⟨⟨h₁, h₂⟩, h₃⟩, h₄⟩, h₅⟩ := h
  simp [escapeChar, h₁, h₂, h₃, h₄, h₅]

/-- A special character is written as a reference to its name. -/
theorem escapeChar_of_special {c : Char} (h : isSpecial c) : ∃ reference, namedCharacter reference = some c ∧
    reference.all Char.isAlpha ∧ escapeChar c = '&' :: reference ++ [';'] := by
  simp only [isSpecial, Bool.or_eq_true, beq_iff_eq] at h
  rcases h with (((rfl | rfl) | rfl) | rfl) | rfl
  · exact ⟨['l', 't'], rfl, by decide, rfl⟩
  · exact ⟨['g', 't'], rfl, by decide, rfl⟩
  · exact ⟨['a', 'm', 'p'], rfl, by decide, rfl⟩
  · exact ⟨['a', 'p', 'o', 's'], rfl, by decide, rfl⟩
  · exact ⟨['q', 'u', 'o', 't'], rfl, by decide, rfl⟩

@[simp] theorem escape_cons {c : Char} : escape (c :: v) = escapeChar c ++ escape v := rfl

/-- What stands in front of the first element that stops a run, and what stands from there on. -/
theorem takeWhile_run {α : Type} {stops : α → Bool} {run after : List α} {x : α}
    (hrun : ∀ y ∈ run, stops y = false) (hx : stops x = true) :
    (run ++ x :: after).takeWhile (!stops ·) = run := by
  rw [List.takeWhile_append_of_pos (by simpa using hrun), List.takeWhile_cons_of_neg (by simpa using hx),
    List.append_nil]

theorem dropWhile_run {α : Type} {stops : α → Bool} {run after : List α} {x : α}
    (hrun : ∀ y ∈ run, stops y = false) (hx : stops x = true) :
    (run ++ x :: after).dropWhile (!stops ·) = x :: after := by
  rw [List.dropWhile_append_of_pos (by simpa using hrun), List.dropWhile_cons_of_neg (by simpa using hx)]

/-- A reference is resolved, whatever follows it. -/
theorem unescapeFrom_reference {total start : Nat} {reference after : List Char}
    (hrun : ∀ x ∈ reference, endsName x = false) :
    unescapeFrom total start ('&' :: reference ++ ';' :: after) = (do
      let c ← resolveInValue (start + 1) reference
      let cs ← unescapeFrom total (start + octetCount reference + 2) after
      return c :: cs) := by
  have htake : (reference ++ ';' :: after).takeWhile (!endsName ·) = reference := takeWhile_run hrun rfl
  have hdrop : (reference ++ ';' :: after).dropWhile (!endsName ·) = ';' :: after := dropWhile_run hrun rfl
  rw [List.cons_append, unescapeFrom.eq_def]
  simp only [if_true]
  split
  · rename_i more hmore
    rw [hdrop, List.cons.injEq] at hmore
    rw [htake, ← hmore.2]
  · rename_i hnone
    exact absurd hdrop (hnone after)

theorem unescapeFrom_named {total start : Nat} {reference after : List Char} {c : Char}
    (hname : namedCharacter reference = some c) (halpha : reference.all Char.isAlpha) :
    unescapeFrom total start ('&' :: reference ++ ';' :: after) =
      (unescapeFrom total (start + octetCount reference + 2) after).map (c :: ·) := by
  have hrun : ∀ x ∈ reference, endsName x = false := by
    intro x hx
    have hx := List.all_eq_true.1 halpha x hx
    rw [Bool.eq_false_iff]
    intro hends
    simp only [endsName, Bool.or_eq_true, beq_iff_eq] at hends
    rcases hends with rfl | rfl <;> simp at hx
  have hresolve : resolveInValue (start + 1) reference = .ok c := by
    unfold resolveInValue
    split
    · simp at halpha
    · rw [hname]
  rw [unescapeFrom_reference hrun, hresolve]
  simp only [bind, Except.bind]
  cases unescapeFrom total (start + octetCount reference + 2) after <;> rfl

theorem unescapeFrom_plain {total start : Nat} {c : Char} {after : List Char} (hc : c ≠ '&') :
    unescapeFrom total start (c :: after) = (unescapeFrom total (start + c.utf8Size) after).map (c :: ·) := by
  rw [unescapeFrom.eq_def]
  simp only [if_neg hc]

/-- A value is what its escaped form stands for. -/
theorem unescape_escape : unescape (escape v) = .ok v := by
  have hfrom : ∀ total start, unescapeFrom total start (escape v) = .ok v := by
    induction v with
    | nil =>
        intro total start
        rw [escape, List.flatMap_nil, unescapeFrom.eq_def]
    | cons c v ih =>
        intro total start
        cases hspecial : isSpecial c with
        | true =>
            obtain ⟨reference, hname, halpha, hescape⟩ := escapeChar_of_special hspecial
            rw [escape_cons, hescape, List.append_assoc, List.singleton_append,
              unescapeFrom_named hname halpha, ih]
            rfl
        | false =>
            have hc : c ≠ '&' := by
              rintro rfl
              exact absurd hspecial (by decide)
            rw [escape_cons, escapeChar_of_not_special hspecial, List.singleton_append, unescapeFrom_plain hc, ih]
            rfl
  exact hfrom _ _

/-- No delimiter is left in what is escaped. -/
theorem notMem_escape {c : Char} (hspecial : isSpecial c) (hc : c ≠ '&') : c ∉ escape v := by
  intro hmem
  obtain ⟨x, _, hx⟩ := List.mem_flatMap.1 hmem
  cases h : isSpecial x with
  | true =>
      obtain ⟨reference, _, halpha, hescape⟩ := escapeChar_of_special h
      rw [hescape] at hx
      simp only [List.cons_append, List.mem_cons, List.mem_append, List.not_mem_nil, or_false] at hx
      rcases hx with rfl | hx | rfl
      · exact hc rfl
      · have hletter := List.all_eq_true.1 halpha c hx
        simp only [isSpecial, Bool.or_eq_true, beq_iff_eq] at hspecial
        rcases hspecial with (((rfl | rfl) | rfl) | rfl) | rfl <;> simp at hletter
      · exact absurd hspecial (by decide)
  | false =>
      rw [escapeChar_of_not_special h, List.mem_singleton] at hx
      rw [hx, h] at hspecial
      cases hspecial

theorem quoteMark_notMem : quoteMark ∉ encode (escape v) := fun hmem =>
  notMem_escape (by decide) (by decide) (mem_of_mem_encode (by decide) hmem)

end Interchange.Xml
