import Interchange.Proofs.AttributeLists
import Interchange.Proofs.Characters
import Interchange.Proofs.Numbering

/-!
# Line breaks in canonical documents

White space in texts is folded, and names hold none, so that a canonical document has a line break exactly if
the value of an attribute has one (`Document.lineBreak_mem_canonical`). A reference for a line break puts it
there (`Document.canonical_lineBreak_reference`).
-/

namespace Interchange.Xml

open Text.Utf8 (Octets encode encodeChar encodeText)

/-- A line feed or a carriage return. -/
def isLineBreak (c : Char) : Bool := c == '\n' || c == '\r'

theorem isLineBreak_iff {c : Char} : isLineBreak c = true ↔ c = '\n' ∨ c = '\r' := by
  simp [isLineBreak]

/-! ## Names -/

variable {c : Char} {cs : List Char} {octets : Octets}

/-- Octets without white space are no text with line breaks. -/
theorem notMem_of_isSpace (hc : isLineBreak c = true) (h : ∀ b ∈ encode cs, isSpace b = false) : c ∉ cs := by
  intro hmem
  have hoctet : ∃ b ∈ encodeChar c, isSpace b = true := by
    rcases isLineBreak_iff.1 hc with rfl | rfl
    · exact ⟨0x0A, by decide, by decide⟩
    · exact ⟨0x0D, by decide, by decide⟩
  obtain ⟨b, hb, hspace⟩ := hoctet
  rw [h b (List.mem_flatMap.2 ⟨c, hmem, hb⟩)] at hspace
  cases hspace

theorem RawAttribute.Spells.isSpace_key {item : RawAttribute} {text : Octets} (h : item.Spells text) :
    ∀ b ∈ item.key, isSpace b = false := by
  cases h with
  | mk hb hkey =>
      refine List.forall_mem_cons.2 ⟨hb, fun x hx => ?_⟩
      have hends := hkey x hx
      rw [endsKey, Bool.or_eq_false_iff] at hends
      exact hends.2

theorem AttributeList.isSpace_key {items : List RawAttribute} {text : Octets} (h : AttributeList items text) :
    ∀ item ∈ items, ∀ b ∈ item.key, isSpace b = false := by
  induction h with
  | nil => simp
  | cons _ hitem _ ih => exact List.forall_mem_cons.2 ⟨hitem.isSpace_key, ih⟩

/-- The attributes of a tag that is read have names without line breaks. -/
theorem notMem_readPairs {tag : Tag} {pairs : List (String × String)} (hc : isLineBreak c = true)
    (h : Assembly.readPairs tag.attributes = .ok pairs) : ∀ pair ∈ pairs, c ∉ pair.1.toList := by
  obtain ⟨items, hlist, _, hpairs⟩ := readPairs_attributes.1 h
  intro pair hpair
  obtain ⟨raw, hraw, hread⟩ := exists_of_mapM hpairs hpair
  have hspace := hlist.isSpace_key raw hraw
  rw [readPair_key hread] at hspace
  exact notMem_of_isSpace hc hspace

namespace Document

variable {d : Document} {i : Nat}

/-- Names have no line breaks. -/
theorem notMem_name (hc : isLineBreak c = true) (h : Document.parse octets = .ok d) (hi : i < d.size) :
    c ∉ (d.node i).name.toList := by
  obtain ⟨hd, hdeclares⟩ := wellFormed_of_parse h
  have hdeclared : ∀ p < d.size, (d.node p).isElement = true → ∃ tag, d.Declares tag p := fun p hp helement => by
    obtain ⟨tag, _, htag⟩ := exists_of_forall₂ hdeclares (List.mem_filter.2 ⟨List.mem_range.2 hp, helement⟩)
    exact ⟨tag, htag⟩
  cases hcontent : (d.node i).content with
  | document => simp [Node.name, hcontent]
  | text value => simp [Node.name, hcontent]
  | element name =>
      obtain ⟨tag, cs, hname, htag, _⟩ := hdeclared i hi (by simp [Node.isElement, hcontent])
      have hspace : ∀ b ∈ tag.name, isSpace b = false := fun b hb => Tag.isSpace_of_mem_name hb
      rw [readText_eq_ok.1 hname] at hspace
      rw [Node.name, htag, String.toList_ofList]
      exact notMem_of_isSpace hc hspace
  | attr name value =>
      -- an attribute stands in the tag of the element it hangs on
      have hroot : i ≠ rootId := by
        obtain ⟨_, hnode, _⟩ := hd.root
        rintro rfl
        rw [hnode] at hcontent
        cases hcontent
      obtain ⟨p, hlt, _, hlisted⟩ := hd.hangsOn i hi hroot
      have hmem : i ∈ (d.node p).attributes := by
        rw [← List.count_pos_iff, (hlisted p).2, if_pos ⟨rfl, by simp [Node.isAttribute, hcontent]⟩]
        exact Nat.one_pos
      obtain ⟨tag, _, _, _, hpairs⟩ :=
        hdeclared p (Nat.lt_trans hlt hi) (hd.isElement_of_attributes p (List.ne_nil_of_mem hmem))
      have hpair : (d.node i).pair ∈ d.attributePairs p := List.mem_map_of_mem hmem
      exact notMem_readPairs hc hpairs (d.node i).pair hpair

end Document

/-! ## Texts and values -/

theorem mem_escape (hc : isLineBreak c = true) : c ∈ escape cs ↔ c ∈ cs := by
  have hchar : ∀ x, c ∈ escapeChar x ↔ c = x := by
    intro x
    unfold escapeChar
    rcases isLineBreak_iff.1 hc with rfl | rfl
    · split_ifs <;> simp_all
    · split_ifs <;> simp_all
  simp only [escape, List.mem_flatMap, hchar, exists_eq_right']

/-- Behind folding, the only white space is the space. -/
theorem eq_space_of_mem_collapseFrom {b : Bool} (hc : Text.isBlank c = true) (h : c ∈ Text.collapseFrom b cs) :
    c = ' ' := by
  induction cs generalizing b with
  | nil => cases h
  | cons x cs ih =>
      rw [Text.collapseFrom] at h
      split_ifs at h with hx hb
      · exact ih h
      · rcases List.mem_cons.1 h with rfl | h
        · rfl
        · exact ih h
      · rcases List.mem_cons.1 h with rfl | h
        · exact absurd hc hx
        · exact ih h

theorem notMem_textChars (hc : isLineBreak c = true) : c ∉ textChars cs := by
  intro h
  have hblank : Text.isBlank c = true := by
    rcases isLineBreak_iff.1 hc with rfl | rfl <;> decide
  rw [textChars, mem_escape hc] at h
  rw [eq_space_of_mem_collapseFrom hblank h] at hc
  cases hc

theorem mem_pairChars {a : String × String} (hc : isLineBreak c = true) :
    c ∈ pairChars a ↔ c ∈ a.1.toList ∨ c ∈ a.2.toList := by
  have hdelimiters : c ≠ ' ' ∧ c ≠ '=' ∧ c ≠ '"' := by
    rcases isLineBreak_iff.1 hc with rfl | rfl <;> decide
  simp [pairChars, mem_escape hc, hdelimiters]

theorem mem_elementChars {name : String} {attributes : List (String × String)} {isEmpty : Bool}
    {inner : List Char} (hc : isLineBreak c = true) (hempty : isEmpty = true → inner = []) :
    c ∈ elementChars name attributes isEmpty inner ↔
      c ∈ name.toList ∨ (∃ a ∈ attributes, c ∈ a.1.toList ∨ c ∈ a.2.toList) ∨ c ∈ inner := by
  have hdelimiters : c ≠ '<' ∧ c ≠ '/' ∧ c ≠ '>' := by
    rcases isLineBreak_iff.1 hc with rfl | rfl <;> decide
  cases isEmpty with
  | true => simp [elementChars, openingChars, mem_pairChars hc, hempty rfl, hdelimiters]
  | false =>
      by_cases hname : c ∈ name.toList <;>
        simp [elementChars, openingChars, mem_pairChars hc, hdelimiters, hname]

/-- The node is an attribute whose value has the character. -/
def Node.HasInValue (n : Node) (c : Char) : Prop :=
  ∃ name value, n.content = .attr name value ∧ c ∈ value.toList

section Nodes

variable {p next : Nat} {t : List Char} {attributes : List (String × String)} {n : Node}

theorem not_hasInValue_textNodes (h : n ∈ textNodes p t) : ¬n.HasInValue c := by
  rintro ⟨name, value, hcontent, _⟩
  unfold textNodes at h
  split at h
  · cases h
  · rw [List.mem_singleton.1 h] at hcontent
    cases hcontent

theorem exists_attributeNodes : (∃ n ∈ attributeNodes p attributes, n.HasInValue c) ↔
    ∃ a ∈ attributes, c ∈ a.2.toList := by
  constructor
  · rintro ⟨n, hn, name, value, hcontent, hvalue⟩
    obtain ⟨a, ha, rfl⟩ := List.mem_map.1 hn
    cases hcontent
    exact ⟨a, ha, hvalue⟩
  · rintro ⟨a, ha, hvalue⟩
    exact ⟨_, List.mem_map_of_mem ha, a.1, a.2, rfl, hvalue⟩

/-- A line break is written for a row exactly if the value of an attribute has it. -/
theorem Row.mem_chars {row : Row} (hc : isLineBreak c = true)
    (hnames : ∀ n ∈ row.nodes p next, c ∉ n.name.toList) :
    c ∈ row.chars ↔ ∃ n ∈ row.nodes p next, n.HasInValue c := by
  induction row generalizing p next with
  | nil => simp [chars, nodes]
  | element before name attributes inner tail rest ihInner ihRest =>
      simp only [nodes, List.forall_mem_append, List.forall_mem_cons] at hnames
      obtain ⟨-, hname, hkeys, hinner, -, hrest⟩ := hnames
      have hname : c ∉ name.toList := hname
      have hempty : decide (inner = .nil ∧ tail = []) = true → inner.chars ++ textChars tail = [] := by
        rw [decide_eq_true_iff]
        rintro ⟨rfl, rfl⟩
        rfl
      have helement : ∀ ids attributes, ¬(Node.mk (.element name) (some p) ids attributes).HasInValue c := by
        rintro _ _ ⟨_, _, hcontent, _⟩
        cases hcontent
      have hattributes : (∃ a ∈ attributes, c ∈ a.1.toList ∨ c ∈ a.2.toList) ↔ ∃ a ∈ attributes, c ∈ a.2.toList :=
        exists_congr fun a => and_congr_right fun ha =>
          or_iff_right (hkeys ⟨.attr a.1 a.2, _, [], []⟩ (List.mem_map_of_mem ha))
      have htexts : ∀ p t, ¬∃ n ∈ textNodes p t, n.HasInValue c := by
        rintro p t ⟨n, hn, h⟩
        exact not_hasInValue_textNodes hn h
      simp only [chars, nodes, List.mem_append, List.mem_cons, mem_elementChars hc hempty, notMem_textChars hc,
        ihInner hinner, ihRest hrest, hattributes, hname, or_and_right, exists_or, exists_eq_left,
        exists_attributeNodes, htexts, helement, false_or, or_false, or_assoc]

end Nodes

/-! ## Canonical documents -/

namespace Document

/-- The canonical form of a document has a line break exactly if the value of an attribute has it. -/
theorem lineBreak_mem_canonical {d : Document} (hc : isLineBreak c = true) (h : Document.parse octets = .ok d) :
    c ∈ d.canonical.toList ↔ ∃ n ∈ d.nodes, ∃ name value, n.content = .attr name value ∧ c ∈ value.toList := by
  obtain ⟨name, attributes, inner, tail, -, hd⟩ := exists_row h
  have hcanonical : d.canonical = _ := hd ▸ Assembly.canonical_start_build
  obtain ⟨row, hrow⟩ : ∃ row, row = Row.element [] name attributes inner tail .nil := ⟨_, rfl⟩
  have hlist : d.nodes.toList = ⟨.document, none, row.ids 1, []⟩ :: row.nodes 0 1 := by
    rw [hrow, hd, ← list, Assembly.list_start_build]
  have hnames : ∀ n ∈ row.nodes 0 1, c ∉ n.name.toList := by
    intro n hn
    have hmem : n ∈ d.nodes := by
      rw [← Array.mem_toList_iff, hlist]
      exact List.mem_cons_of_mem _ hn
    obtain ⟨i, hi, rfl⟩ := Array.getElem_of_mem hmem
    rw [← node_of_lt hi]
    exact notMem_name hc h hi
  have hdeclaration : c ∉ declaration.toList := by
    rcases isLineBreak_iff.1 hc with rfl | rfl <;> decide
  have hdocument : ¬(Node.mk .document none (row.ids 1) []).HasInValue c := by
    rintro ⟨_, _, hcontent, _⟩
    cases hcontent
  rw [hcanonical, ← hrow, String.toList_ofList, List.mem_append, or_iff_right hdeclaration,
    Row.mem_chars hc hnames]
  simp only [← Array.mem_toList_iff, hlist, List.exists_mem_cons_iff]
  exact (or_iff_right hdocument).symm

/-- A line break that is written in the value of an attribute is kept. -/
theorem lineBreak_mem_canonical_written : ∃ d,
    Document.parse (encodeText "<a x='1\n2'>\n<b/></a>") = .ok d ∧
      ('\n' ∈ d.canonical.toList ↔
        ∃ n ∈ d.nodes, ∃ name value, n.content = .attr name value ∧ '\n' ∈ value.toList) ∧
      '\n' ∈ d.canonical.toList := by
  have hread : (Document.parse (encodeText "<a x='1\n2'>\n<b/></a>")).toOption.map
      (fun d => d.canonical) = some (declaration ++ "<a x=\"1\n2\"><b/></a>") := by
    decide +kernel
  cases hd : Document.parse (encodeText "<a x='1\n2'>\n<b/></a>") with
  | error m => simp [hd, Except.toOption] at hread
  | ok d =>
      have hcanonical : d.canonical = declaration ++ "<a x=\"1\n2\"><b/></a>" := by
        simpa [hd, Except.toOption] using hread
      refine ⟨d, rfl, lineBreak_mem_canonical (by decide) hd, ?_⟩
      rw [hcanonical]
      decide

/-- A reference puts a line break into the canonical form. -/
theorem canonical_lineBreak_reference : ∃ d, Document.parse (encodeText "<a x=\"1&#10;2\"/>") = .ok d ∧
    d.canonical = declaration ++ "<a x=\"1\n2\"/>" ∧ '\n' ∈ d.canonical.toList := by
  have hread : (Document.parse (encodeText "<a x=\"1&#10;2\"/>")).toOption.map
      (fun d => d.canonical) = some (declaration ++ "<a x=\"1\n2\"/>") := by
    decide +kernel
  cases hd : Document.parse (encodeText "<a x=\"1&#10;2\"/>") with
  | error m => simp [hd, Except.toOption] at hread
  | ok d =>
      have hcanonical : d.canonical = declaration ++ "<a x=\"1\n2\"/>" := by
        simpa [hd, Except.toOption] using hread
      refine ⟨d, rfl, hcanonical, ?_⟩
      rw [hcanonical]
      decide

end Document

end Interchange.Xml
