import Mathlib.Data.List.Count
import Mathlib.Logic.Relation
import Interchange.Proofs.Canonical
import Interchange.Proofs.Declared
import Interchange.Proofs.Nesting

/-!
# The numbers of a document's nodes

A node comes first, then its attributes, then the subtrees of its children one after the other, without a gap
(`Document.contiguous_ids`). A document that can be read is a tree that is numbered so
(`Document.wellFormed_of_parse`).
-/

namespace Interchange.Xml

namespace Document

variable {d : Document} {i next p start stop : Nat} {roots others : List Nat}

/-! ## Subtrees -/

/-- Node `n` is node `i`, or hangs below it by links of any kind. -/
def Below (d : Document) : Nat → Nat → Prop :=
  Relation.ReflTransGen fun p n => (d.node n).parent = some p

/-- The subtree of a node is the nodes from this one up to a number. -/
def Spans (d : Document) (i stop : Nat) : Prop := ∀ n, d.Below i n ↔ i ≤ n ∧ n < stop

/-- Subtrees one after the other: where the first starts, their roots, and where the last stops. -/
inductive Contiguous (d : Document) : Nat → List Nat → Nat → Prop
  | nil {n : Nat} : Contiguous d n [] n
  | cons {root next stop : Nat} {rest : List Nat} (hroot : d.Spans root next)
      (hrest : Contiguous d next rest stop) : Contiguous d root (root :: rest) stop

theorem Spans.lt (h : d.Spans i stop) : i < stop := ((h i).1 .refl).2

namespace Contiguous

theorem singleton (h : d.Spans i stop) : d.Contiguous i [i] stop := .cons h .nil

theorem append (h : d.Contiguous start roots next) (hothers : d.Contiguous next others stop) :
    d.Contiguous start (roots ++ others) stop := by
  induction h with
  | nil => exact hothers
  | cons hroot _ ih => exact .cons hroot (ih hothers)

theorem le (h : d.Contiguous start roots stop) : start ≤ stop := by
  induction h with
  | nil => exact Nat.le_refl _
  | cons hroot _ ih => exact Nat.le_trans (Nat.le_of_lt hroot.lt) ih

/-- Contiguous subtrees leave out no node between the first and the last. -/
theorem exists_below_iff (h : d.Contiguous start roots stop) (n : Nat) :
    (∃ root ∈ roots, d.Below root n) ↔ start ≤ n ∧ n < stop := by
  induction h with
  | nil =>
      simp only [List.not_mem_nil, false_and, exists_false, false_iff]
      omega
  | cons hroot hrest ih =>
      have hlt := hroot.lt
      have hle := hrest.le
      rw [List.exists_mem_cons_iff, ih, hroot n]
      omega

end Contiguous

theorem below_iff {n : Nat} : d.Below i n ↔ n = i ∨ ∃ c, (d.node c).parent = some i ∧ d.Below c n := by
  constructor
  · intro h
    rcases Relation.ReflTransGen.cases_head h with rfl | ⟨c, hc, hn⟩
    · exact Or.inl rfl
    · exact Or.inr ⟨c, hc, hn⟩
  · rintro (rfl | ⟨c, hc, hn⟩)
    · exact .refl
    · exact .head hc hn

theorem Below.le {n : Nat} (h : d.Below i n) : i ≤ n := by
  induction h with
  | refl => exact Nat.le_refl _
  | tail _ hparent ih => exact Nat.le_trans ih (Nat.le_of_lt (parent_lt hparent))

/-- No node is below two that have one parent. -/
theorem Below.unique {j n : Nat} (hi : (d.node i).parent = some p) (hj : (d.node j).parent = some p)
    (hin : d.Below i n) (hjn : d.Below j n) : i = j := by
  have happart : ∀ {a b : Nat}, (d.node a).parent = some p → (d.node b).parent = some p →
      d.Below a b → a = b := by
    intro a b ha hb hab
    rcases Relation.ReflTransGen.cases_tail hab with hab | ⟨q, haq, hqb⟩
    · exact hab.symm
    · rw [hb] at hqb
      cases hqb
      exact absurd (Below.le haq) (Nat.not_le_of_lt (parent_lt ha))
  have hunique : Relator.RightUnique (Function.swap fun p n => (d.node n).parent = some p) := by
    intro a b c hb hc
    exact Option.some.inj (hb.symm.trans hc)
  -- of two nodes above a third one, one is above the other
  rcases Relation.ReflTransGen.total_of_right_unique hunique (Relation.reflTransGen_swap.2 hin)
    (Relation.reflTransGen_swap.2 hjn) with hij | hji
  · exact (happart hj hi (Relation.reflTransGen_swap.1 hij)).symm
  · exact happart hi hj (Relation.reflTransGen_swap.1 hji)

/-- What names a node as its parent is listed there, as a child or as an attribute. -/
theorem Arranged.parent_eq_some (hd : d.Arranged) {c : Nat} :
    (d.node c).parent = some i ↔ c ∈ (d.node i).attributes ++ (d.node i).children := by
  have hattributes : c ∈ (d.node i).attributes ↔ _ := hd.mem_listed .attr
  have hchildren : c ∈ (d.node i).children ↔ _ := hd.mem_listed .child
  rw [List.mem_append, hattributes, hchildren]
  cases Link.of (d.node c).content <;> simp

/-- A node in front of the subtrees of what is listed on it. -/
theorem Contiguous.spans (hd : d.Arranged)
    (h : d.Contiguous (i + 1) ((d.node i).attributes ++ (d.node i).children) stop) : d.Spans i stop := by
  intro n
  have hle := h.le
  rw [below_iff]
  simp only [hd.parent_eq_some]
  rw [h.exists_below_iff]
  omega

/-! ## Rows -/

/-- How the nodes below a node are numbered. -/
def Laid (d : Document) (i : Nat) : Prop :=
  ∃ stop, d.Spans i stop ∧
    (d.node i).attributes = List.range' (i + 1) (d.node i).attributes.length ∧
    d.Contiguous (i + 1 + (d.node i).attributes.length) (d.node i).children stop

theorem spans_leaf (hd : d.Arranged) (hattributes : (d.node i).attributes = [])
    (hchildren : (d.node i).children = []) : d.Spans i (i + 1) := by
  refine Contiguous.spans hd ?_
  rw [hattributes, hchildren]
  exact .nil

theorem laid_leaf (hd : d.Arranged) (hattributes : (d.node i).attributes = [])
    (hchildren : (d.node i).children = []) : d.Laid i := by
  refine ⟨i + 1, spans_leaf hd hattributes hchildren, by rw [hattributes]; rfl, ?_⟩
  rw [hattributes, hchildren]
  exact .nil

variable {t : List Char} {attributes : List (String × String)} {row : Row}

theorem contiguous_textIds (hd : d.Arranged) (h : d.Holds next (textNodes p t)) :
    d.Contiguous next (textIds next t) (next + textSize t) := by
  cases t with
  | nil => exact .nil
  | cons c t =>
      have hnode : d.node next = ⟨.text (String.ofList (c :: t)), some p, [], []⟩ := h.1
      exact .singleton (spans_leaf hd (by rw [hnode]) (by rw [hnode]))

theorem contiguous_attributeNodes (hd : d.Arranged) (h : d.Holds next (attributeNodes p attributes)) :
    d.Contiguous next (List.range' next attributes.length) (next + attributes.length) := by
  induction attributes generalizing next with
  | nil => exact .nil
  | cons a attributes ih =>
      obtain ⟨hnode, hrest⟩ := h
      have hleaf : d.Spans next (next + 1) := spans_leaf hd (by rw [hnode]) (by rw [hnode])
      have hbehind := ih hrest
      rw [Nat.add_assoc, Nat.add_comm 1] at hbehind
      exact .cons hleaf hbehind

/-- An element is laid out where what it holds is. -/
theorem contiguous_element (hd : d.Arranged) {name : String} {tail : List Char} {inner : Row} {first : Nat}
    (hfirst : first = i + 1 + attributes.length)
    (hnode : d.node i = ⟨.element name, some p, inner.ids first ++ textIds (first + inner.size) tail,
      List.range' (i + 1) attributes.length⟩)
    (hattributes : d.Holds (i + 1) (attributeNodes i attributes))
    (hinner : d.Contiguous first (inner.ids first) (first + inner.size))
    (htail : d.Holds (first + inner.size) (textNodes i tail)) :
    d.Spans i (first + inner.size + textSize tail) ∧ d.Laid i := by
  have hchildren := hinner.append (contiguous_textIds hd htail)
  have hlisted : d.Contiguous (i + 1) ((d.node i).attributes ++ (d.node i).children)
      (first + inner.size + textSize tail) := by
    rw [hnode]
    exact (contiguous_attributeNodes hd hattributes).append (hfirst ▸ hchildren)
  refine ⟨hlisted.spans hd, _, hlisted.spans hd, ?_, ?_⟩
  · simp only [hnode, List.length_range']
  · simp only [hnode, List.length_range']
    exact hfirst ▸ hchildren

/-- The subtrees of a row follow one another. -/
theorem contiguous_ids (hd : d.Arranged) (h : d.Holds next (row.nodes p next)) :
    d.Contiguous next (row.ids next) (next + row.size) := by
  induction row generalizing p next with
  | nil => exact .nil
  | element before name attributes inner tail rest ihInner ihRest =>
      simp only [Row.nodes, holds_append, Holds, length_textNodes, length_attributeNodes, Row.length_nodes] at h
      obtain ⟨hbefore, hnode, hattributes, hinner, htail, hrest⟩ := h
      have hend : next + textSize before + 1 + attributes.length + inner.size + textSize tail =
          next + textSize before + (1 + attributes.length + inner.size + textSize tail) := by omega
      have helement := (contiguous_element hd rfl hnode hattributes (ihInner hinner) htail).1
      rw [hend] at hrest helement
      have hbehind := ihRest hrest
      have hsize : next + textSize before + (1 + attributes.length + inner.size + textSize tail) + rest.size =
          next + (Row.element before name attributes inner tail rest).size := by
        simp only [Row.size]
        omega
      rw [hsize] at hbehind
      exact (contiguous_textIds hd hbefore).append (.cons helement hbehind)

/-! ## The nodes of a row -/

/-- What a node is that a row describes. Texts are not blank; what an element holds stands behind it. -/
inductive Described (d : Document) (i : Nat) : Prop
  | text {q : Nat} {t : List Char} (hkept : t.all Text.isBlank = false)
      (hnode : d.node i = ⟨.text (String.ofList t), some q, [], []⟩)
  | attr {q : Nat} {a : String × String} (hnode : d.node i = ⟨.attr a.1 a.2, some q, [], []⟩)
  | element {q first : Nat} {name : String} {attributes : List (String × String)} {inner : Row}
      {tail : List Char} (hfirst : first = i + 1 + attributes.length)
      (hnode : d.node i = ⟨.element name, some q, inner.ids first ++ textIds (first + inner.size) tail,
        List.range' (i + 1) attributes.length⟩)
      (hattributes : d.Holds (i + 1) (attributeNodes i attributes))
      (hinner : d.Holds first (inner.nodes i first))
      (htail : d.Holds (first + inner.size) (textNodes i tail))

theorem described_of_textNodes (ht : Kept t) (h : d.Holds next (textNodes p t)) (hnext : next ≤ i)
    (hi : i < next + textSize t) : d.Described i := by
  cases t with
  | nil => exact absurd hi (Nat.not_lt_of_le hnext)
  | cons c t =>
      have hself : i = next := Nat.le_antisymm (Nat.le_of_lt_succ hi) hnext
      exact .text (ht.resolve_left (List.cons_ne_nil c t)) (hself ▸ h.1)

theorem described_of_attributeNodes (h : d.Holds next (attributeNodes p attributes)) (hnext : next ≤ i)
    (hi : i < next + attributes.length) : d.Described i := by
  induction attributes generalizing next with
  | nil => exact absurd hi (Nat.not_lt_of_le hnext)
  | cons a attributes ih =>
      by_cases hself : i = next
      · exact .attr (hself ▸ h.1)
      · rw [List.length_cons] at hi
        exact ih h.2 (by omega) (by omega)

theorem described_of_nodes (hs : row.Sound) (h : d.Holds next (row.nodes p next)) (hnext : next ≤ i)
    (hi : i < next + row.size) : d.Described i := by
  induction row generalizing p next with
  | nil => exact absurd hi (Nat.not_lt_of_le hnext)
  | element before name attributes inner tail rest ihInner ihRest =>
      simp only [Row.nodes, holds_append, Holds, length_textNodes, length_attributeNodes, Row.length_nodes] at h
      obtain ⟨hbefore, hnode, hattributes, hinner, htail, hrest⟩ := h
      obtain ⟨hsBefore, _, hsInner, hsTail, hsRest⟩ := hs
      have hend : next + textSize before + 1 + attributes.length + inner.size + textSize tail =
          next + textSize before + (1 + attributes.length + inner.size + textSize tail) := by omega
      rw [hend] at hrest
      rw [Row.size] at hi
      -- the text in front, the element, its attributes, what it holds, the text at its end, the other elements
      by_cases h₁ : i < next + textSize before
      · exact described_of_textNodes hsBefore hbefore hnext h₁
      by_cases h₂ : i = next + textSize before
      · exact .element rfl (h₂ ▸ hnode) (h₂ ▸ hattributes) (h₂ ▸ hinner) (h₂ ▸ htail)
      by_cases h₃ : i < next + textSize before + 1 + attributes.length
      · exact described_of_attributeNodes hattributes (by omega) h₃
      by_cases h₄ : i < next + textSize before + 1 + attributes.length + inner.size
      · exact ihInner hsInner hinner (by omega) h₄
      by_cases h₅ : i < next + textSize before + 1 + attributes.length + inner.size + textSize tail
      · exact described_of_textNodes hsTail htail (by omega) h₅
      · exact ihRest hsRest hrest (by omega) (by omega)

/-- At most one of two nodes is a text. -/
def Apart (d : Document) (m n : Nat) : Prop := (d.node m).isText = false ∨ (d.node n).isText = false

theorem isChain_cons_apart (hi : (d.node i).isText = false) (h : roots.IsChain d.Apart) :
    (i :: roots).IsChain d.Apart := by
  cases roots with
  | nil => exact .singleton i
  | cons c roots => exact .cons_cons (Or.inl hi) h

/-- Between two texts of a row stands an element. -/
theorem isChain_ids {tail : List Char} (h : d.Holds next (row.nodes p next)) :
    (row.ids next ++ textIds (next + row.size) tail).IsChain d.Apart := by
  induction row generalizing p next with
  | nil => cases tail <;> simp [Row.ids, textIds]
  | element before name attributes inner after rest _ ihRest =>
      simp only [Row.nodes, holds_append, Holds, length_textNodes, length_attributeNodes, Row.length_nodes] at h
      obtain ⟨_, hnode, _, _, _, hrest⟩ := h
      have hend : next + textSize before + 1 + attributes.length + inner.size + textSize after =
          next + textSize before + (1 + attributes.length + inner.size + textSize after) := by omega
      rw [hend] at hrest
      have hsize : next + textSize before + (1 + attributes.length + inner.size + textSize after) + rest.size =
          next + (Row.element before name attributes inner after rest).size := by
        simp only [Row.size]
        omega
      have hnoText : (d.node (next + textSize before)).isText = false := by
        rw [hnode]
        rfl
      have hbehind := isChain_cons_apart hnoText (hsize ▸ ihRest hrest)
      rw [Row.ids, List.append_assoc, List.cons_append]
      cases before with
      | nil => exact hbehind
      | cons c before => exact .cons_cons (Or.inr hnoText) hbehind

namespace Described

theorem laid (hd : d.Arranged) (h : d.Described i) : d.Laid i := by
  cases h with
  | text _ hnode => exact laid_leaf hd (by rw [hnode]) (by rw [hnode])
  | attr hnode => exact laid_leaf hd (by rw [hnode]) (by rw [hnode])
  | element hfirst hnode hattributes hinner htail =>
      exact (contiguous_element hd hfirst hnode hattributes (contiguous_ids hd hinner) htail).2

theorem apart (h : d.Described i) : (d.node i).children.IsChain d.Apart := by
  cases h with
  | text _ hnode => simp [hnode]
  | attr hnode => simp [hnode]
  | element _ hnode _ hinner _ =>
      rw [hnode]
      exact isChain_ids hinner

theorem parent_isSome (h : d.Described i) : ∃ q, (d.node i).parent = some q := by
  cases h with
  | text _ hnode | attr hnode | element _ hnode _ _ _ => exact ⟨_, by rw [hnode]⟩

theorem content_ne (h : d.Described i) : (d.node i).content ≠ .document := by
  cases h with
  | text _ hnode | attr hnode | element _ hnode _ _ _ => simp [hnode]

theorem isElement (h : d.Described i) (hne : (d.node i).attributes ≠ []) : (d.node i).isElement = true := by
  cases h with
  | text _ hnode | attr hnode => exact absurd (by rw [hnode]) hne
  | element _ hnode _ _ _ => rw [hnode]; rfl

theorem kept {value : String} (h : d.Described i) (hvalue : (d.node i).content = .text value) :
    ∃ c ∈ value.toList, Text.isBlank c = false := by
  cases h with
  | text hkept hnode =>
      rw [hnode] at hvalue
      cases hvalue
      simpa using hkept
  | attr hnode | element _ hnode _ _ _ =>
      rw [hnode] at hvalue
      cases hvalue

end Described

/-! ## Documents that can be read -/

/-- Node `i` hangs on node `p`, which comes first: it is listed there once, attributes apart from other nodes,
and nowhere else. -/
def HangsOn (d : Document) (p i : Nat) : Prop :=
  p < i ∧ (d.node i).parent = some p ∧ ∀ q,
    (d.node q).children.count i = (if q = p ∧ (d.node i).isAttribute = false then 1 else 0) ∧
    (d.node q).attributes.count i = (if q = p ∧ (d.node i).isAttribute = true then 1 else 0)

/-- A document as a tree: one element hangs on the document, every other node on an element, and nodes are
numbered in document order. Texts are not blank, and no two of them are neighbours. -/
structure WellFormed (d : Document) : Prop where
  root : ∃ c, d.node rootId = ⟨.document, none, [c], []⟩ ∧ (d.node c).isElement = true
  content_ne : ∀ i < d.size, i ≠ rootId → (d.node i).content ≠ .document
  hangsOn : ∀ i < d.size, i ≠ rootId → ∃ p, d.HangsOn p i
  isElement_of_children : ∀ i, i ≠ rootId → (d.node i).children ≠ [] → (d.node i).isElement = true
  isElement_of_attributes : ∀ i, (d.node i).attributes ≠ [] → (d.node i).isElement = true
  laid : ∀ i < d.size, d.Laid i
  kept : ∀ i < d.size, ∀ value, (d.node i).content = .text value →
    ∃ c ∈ value.toList, Text.isBlank c = false
  apart : ∀ i, (d.node i).children.IsChain d.Apart

theorem Arranged.count_listed (hd : d.Arranged) (hi : i < d.size) {link : Link} {q : Nat} :
    (link.listed (d.node q)).count i =
      if (d.node i).parent = some q ∧ Link.of (d.node i).content = link then 1 else 0 := by
  rw [hd.listed]
  split
  · rename_i hlisted
    rw [List.count_filter (by simpa using hlisted), ids, List.nodup_range.count,
      if_pos (List.mem_range.2 hi)]
  · rename_i hlisted
    exact List.count_eq_zero_of_not_mem fun hmem => hlisted (by simpa using (List.mem_filter.1 hmem).2)

theorem Arranged.hangsOn (hd : d.Arranged) (hi : i < d.size) (hparent : (d.node i).parent = some p) :
    d.HangsOn p i := by
  refine ⟨parent_lt hparent, hparent, fun q => ?_⟩
  have hchildren : (Link.child.listed (d.node q)).count i = _ := hd.count_listed hi
  have hattributes : (Link.attr.listed (d.node q)).count i = _ := hd.count_listed hi
  simp only [Link.listed, hparent, Option.some.injEq, Link.of_eq] at hchildren hattributes
  rw [hchildren, hattributes]
  cases (d.node i).isAttribute <;> simp [eq_comm]

theorem Arranged.isElement_of_children (hd : d.Arranged) (hi : i ≠ rootId)
    (hne : (d.node i).children ≠ []) : (d.node i).isElement = true := by
  obtain ⟨c, rest, hchildren⟩ := List.exists_cons_of_ne_nil hne
  have hparent : (d.node c).parent = some i := hd.parent_eq_some.2 (by simp [hchildren])
  exact (hd.inner c i hparent).resolve_left hi

/-- A document of one element that is described by its row. -/
theorem WellFormed.of_row (hd : d.Arranged) {name : String} {tail : List Char} {inner : Row}
    (hs : (Row.element [] name attributes inner tail .nil).Sound)
    (hsize : d.size = (Row.element [] name attributes inner tail .nil).size + 1)
    (hroot : d.node rootId = ⟨.document, none, [1], []⟩)
    (hnodes : d.Holds 1 ((Row.element [] name attributes inner tail .nil).nodes 0 1)) : d.WellFormed := by
  have hdescribed : ∀ i < d.size, i ≠ rootId → d.Described i := fun i hi hne =>
    described_of_nodes hs hnodes (Nat.pos_of_ne_zero hne) (by omega)
  have hleaf : ∀ i, d.size ≤ i → (d.node i).attributes = [] ∧ (d.node i).children = [] := fun i hi => by
    rw [node_of_le hi]
    exact ⟨rfl, rfl⟩
  constructor
  case root =>
    refine ⟨1, hroot, ?_⟩
    have hnode : d.node 1 = _ := hnodes.1
    rw [hnode]
    rfl
  case content_ne => exact fun i hi hne => (hdescribed i hi hne).content_ne
  case hangsOn =>
    intro i hi hne
    obtain ⟨p, hparent⟩ := (hdescribed i hi hne).parent_isSome
    exact ⟨p, hd.hangsOn hi hparent⟩
  case isElement_of_children => exact fun i hi hne => hd.isElement_of_children hi hne
  case isElement_of_attributes =>
    intro i hne
    by_cases hi : i < d.size
    · refine (hdescribed i hi ?_).isElement hne
      rintro rfl
      exact hne (by rw [hroot])
    · exact absurd (hleaf i (Nat.le_of_not_lt hi)).1 hne
  case laid =>
    intro i hi
    by_cases hne : i = rootId
    · have hbelow := contiguous_ids hd hnodes
      rw [Nat.add_comm, ← hsize] at hbelow
      have hlisted : d.Contiguous (rootId + 1) ((d.node rootId).attributes ++ (d.node rootId).children)
          d.size := by
        rw [hroot]
        exact hbelow
      subst hne
      refine ⟨d.size, hlisted.spans hd, by rw [hroot]; rfl, ?_⟩
      rw [hroot]
      exact hbelow
    · exact (hdescribed i hi hne).laid hd
  case kept =>
    intro i hi value hvalue
    refine (hdescribed i hi ?_).kept hvalue
    rintro rfl
    rw [hroot] at hvalue
    cases hvalue
  case apart =>
    intro i
    by_cases hi : i < d.size
    · by_cases hne : i = rootId
      · rw [hne, hroot]
        exact .singleton 1
      · exact (hdescribed i hi hne).apart
    · rw [(hleaf i (Nat.le_of_not_lt hi)).2]
      exact .nil

/-- A document that can be read is a tree in document order, and its elements are the tags of its source in
their order, each with the attributes of its tag in their order. -/
theorem wellFormed_of_parse {octets : Text.Utf8.Octets} (h : Document.parse octets = .ok d) :
    d.WellFormed ∧
      List.Forall₂ d.Declares ((read (dropMark (dropMark octets))).events.filterMap Event.tag?) d.elements := by
  refine ⟨?_, declares_of_parse h⟩
  have hd := Arranged.of_parse h
  obtain ⟨name, attributes, inner, tail, hs, rfl⟩ := exists_row h
  obtain ⟨hroot, hnodes⟩ := Assembly.holds_start_build
  exact .of_row hd hs Assembly.size_start_build hroot hnodes

theorem wellFormed_of_parse_mixed : ∃ d,
    Document.parse (Text.Utf8.encodeText "<a x='1' y='2'>t<b/> u&amp;<!-- c -->v</a>") = .ok d ∧
      (d.size, (d.node 1).attributes, (d.node 1).children) = (7, [2, 3], [4, 5, 6]) ∧ d.WellFormed := by
  have hread : (Document.parse (Text.Utf8.encodeText "<a x='1' y='2'>t<b/> u&amp;<!-- c -->v</a>")).toOption.map
      (fun d => (d.size, (d.node 1).attributes, (d.node 1).children)) = some (7, [2, 3], [4, 5, 6]) := by
    decide +kernel
  cases hd : Document.parse (Text.Utf8.encodeText "<a x='1' y='2'>t<b/> u&amp;<!-- c -->v</a>") with
  | error m => simp [hd, Except.toOption] at hread
  | ok d => exact ⟨d, rfl, by simpa [hd, Except.toOption] using hread, (wellFormed_of_parse hd).1⟩

end Document

end Interchange.Xml
