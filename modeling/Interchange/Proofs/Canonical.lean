import Interchange.Proofs.Rows
import Interchange.Xml.Canonical

/-!
# Canonical documents as trees

What is written for the nodes of a row is the row in canonical form (`Document.flatMap_ids`), and the white
space that writing folds is all that it changes (`Row.chars_collapsed`).
-/

namespace Interchange.Xml

open Text (collapseChars isBlank)

/-! ## Texts with white space folded -/

section Collapse

variable {b : Bool} {t : List Char}

theorem collapseFrom_collapseFrom {inner : Bool} (h : inner = true → b = true) :
    Text.collapseFrom inner (Text.collapseFrom b t) = Text.collapseFrom b t := by
  induction t generalizing b inner with
  | nil => rfl
  | cons c t ih =>
      have hspace : isBlank ' ' = true := by decide
      cases hc : isBlank c with
      | false => simp only [Text.collapseFrom, hc, Bool.false_eq_true, if_false, ih id]
      | true =>
          cases b with
          | true =>
              simp only [Text.collapseFrom, hc, if_true]
              exact ih fun _ => rfl
          | false =>
              have hinner : inner = false := by
                cases inner with
                | false => rfl
                | true => exact absurd (h rfl) (by simp)
              simp only [Text.collapseFrom, hc, hspace, hinner, if_true, Bool.false_eq_true, if_false,
                ih id]

@[simp] theorem collapseChars_collapseChars : collapseChars (collapseChars t) = collapseChars t :=
  collapseFrom_collapseFrom id

@[simp] theorem collapseChars_eq_nil : collapseChars t = [] ↔ t = [] := by
  cases t with
  | nil => simp [collapseChars, Text.collapseFrom]
  | cons c t =>
      simp only [collapseChars, Text.collapseFrom]
      split <;> simp

@[simp] theorem all_isBlank_collapseChars : (collapseChars t).all isBlank = t.all isBlank := by
  have hfrom : ∀ b, (Text.collapseFrom b t).all isBlank = t.all isBlank := by
    induction t with
    | nil => exact fun _ => rfl
    | cons c t ih =>
        have hspace : isBlank ' ' = true := by decide
        intro b
        cases hc : isBlank c <;> cases b <;> simp [Text.collapseFrom, hc, hspace, ih]
  exact hfrom false

end Collapse

def textChars (t : List Char) : List Char := escape (collapseChars t)

def pairChars (a : String × String) : List Char :=
  ' ' :: a.1.toList ++ ['=', '"'] ++ escape a.2.toList ++ ['"']

/-- What is written between the brackets of a tag. -/
def openingChars (name : String) (attributes : List (String × String)) : List Char :=
  name.toList ++ attributes.flatMap pairChars

/-- What is written for an element; one that holds nothing has one tag. -/
def elementChars (name : String) (attributes : List (String × String)) (isEmpty : Bool)
    (inner : List Char) : List Char :=
  if isEmpty then '<' :: openingChars name attributes ++ ['/', '>']
  else '<' :: openingChars name attributes ++ '>' :: inner ++ ['<', '/'] ++ name.toList ++ ['>']

namespace Row

def chars : Row → List Char
  | nil => []
  | element before name attributes inner tail rest =>
    textChars before ++
      (elementChars name attributes (inner = .nil ∧ tail = []) (inner.chars ++ textChars tail) ++ rest.chars)

/-- A row with the white space of its texts folded. -/
def collapsed : Row → Row
  | nil => nil
  | element before name attributes inner tail rest =>
    element (collapseChars before) name attributes inner.collapsed (collapseChars tail) rest.collapsed

variable {row : Row} {p next : Nat}

@[simp] theorem collapsed_eq_nil : row.collapsed = .nil ↔ row = .nil := by
  cases row <;> simp [collapsed]

/-- The canonical form of a row is that of the row with white space folded. -/
theorem chars_collapsed : row.collapsed.chars = row.chars := by
  induction row with
  | nil => rfl
  | element before name attributes inner tail rest ihInner ihRest =>
      simp only [collapsed, chars, textChars, ihInner, ihRest, collapseChars_collapseChars, collapsed_eq_nil,
        collapseChars_eq_nil]

end Row

/-- A node with white space folded, if it is a text. -/
def Node.collapsed (n : Node) : Node :=
  match n.content with
  | .text value => { n with content := .text (Text.collapse value) }
  | _ => n

section Nodes

variable {p next : Nat} {t : List Char} {row : Row}

@[simp] theorem textSize_collapseChars : textSize (collapseChars t) = textSize t := by
  cases t with
  | nil => rfl
  | cons c t =>
      simp only [textSize, collapseChars, Text.collapseFrom]
      split <;> simp

@[simp] theorem textIds_collapseChars : textIds next (collapseChars t) = textIds next t := by
  cases t with
  | nil => rfl
  | cons c t =>
      simp only [textIds, collapseChars, Text.collapseFrom]
      split <;> simp

theorem textNodes_collapseChars :
    textNodes p (collapseChars t) = (textNodes p t).map Node.collapsed := by
  cases t with
  | nil => rfl
  | cons c t =>
      have hne : (collapseChars (c :: t)).isEmpty = false := by
        rw [List.isEmpty_eq_false_iff]
        exact fun h => List.cons_ne_nil _ _ (collapseChars_eq_nil.1 h)
      simp [textNodes, hne, Node.collapsed, Text.collapse]

theorem map_collapsed_attributeNodes {attributes : List (String × String)} :
    (attributeNodes p attributes).map Node.collapsed = attributeNodes p attributes := by
  rw [attributeNodes, List.map_map]
  rfl

@[simp] theorem Row.size_collapsed : row.collapsed.size = row.size := by
  induction row with
  | nil => rfl
  | element before name attributes inner tail rest ihInner ihRest =>
      simp only [collapsed, size, textSize_collapseChars, ihInner, ihRest]

@[simp] theorem Row.ids_collapsed : row.collapsed.ids next = row.ids next := by
  induction row generalizing next with
  | nil => rfl
  | element before name attributes inner tail rest ihInner ihRest =>
      simp only [collapsed, ids, textSize_collapseChars, textIds_collapseChars, size_collapsed, ihRest]

/-- Folding white space in a row changes its texts, and nothing else. -/
theorem Row.nodes_collapsed : row.collapsed.nodes p next = (row.nodes p next).map Node.collapsed := by
  induction row generalizing p next with
  | nil => rfl
  | element before name attributes inner tail rest ihInner ihRest =>
      simp only [collapsed, nodes, textSize_collapseChars, textIds_collapseChars, size_collapsed, ids_collapsed,
        textNodes_collapseChars, ihInner, ihRest, List.map_append, List.map_cons, map_collapsed_attributeNodes]
      rfl

end Nodes

namespace Document

variable {d : Document} {i next p : Nat} {n : Node} {nodes more front back : List Node} {row : Row}
  {t : List Char}

/-! ## Nodes one after the other -/

/-- Nodes stand in a document from a number on. -/
def Holds (d : Document) : Nat → List Node → Prop
  | _, [] => True
  | next, n :: nodes => d.node next = n ∧ d.Holds (next + 1) nodes

theorem holds_append :
    d.Holds next (nodes ++ more) ↔ d.Holds next nodes ∧ d.Holds (next + nodes.length) more := by
  induction nodes generalizing next with
  | nil => simp [Holds]
  | cons n nodes ih =>
      rw [List.cons_append, Holds, Holds, ih, List.length_cons, and_assoc, Nat.add_assoc,
        Nat.add_comm 1 nodes.length]

theorem holds_of_list (h : d.list = front ++ (nodes ++ back)) : d.Holds front.length nodes := by
  induction nodes generalizing front with
  | nil => trivial
  | cons n nodes ih =>
      refine ⟨?_, ?_⟩
      · rw [node_eq_list, h]
        simp
      · have hnext : d.list = (front ++ [n]) ++ (nodes ++ back) := by simp [h]
        simpa using ih hnext

/-! ## The canonical form of a row -/

theorem canonicalChars_eq :
    d.canonicalChars i = d.wrapChars i ((d.node i).children.flatMap d.canonicalChars) := by
  rw [canonicalChars]
  simp only [List.flatMap_subtype, List.unattach_attach]

theorem flatMap_attributeChars {attributes : List (String × String)}
    (h : d.Holds next (attributeNodes p attributes)) :
    (List.range' next attributes.length).flatMap d.attributeChars = attributes.flatMap pairChars := by
  induction attributes generalizing next with
  | nil => rfl
  | cons a attributes ih =>
      obtain ⟨hnode, hrest⟩ := h
      rw [List.length_cons, List.range'_succ, List.flatMap_cons, List.flatMap_cons, ih hrest]
      simp only [attributeChars, hnode, Node.name, Node.value, pairChars, Option.getD_some]

theorem flatMap_textIds (h : d.Holds next (textNodes p t)) :
    (textIds next t).flatMap d.canonicalChars = textChars t := by
  cases t with
  | nil => rfl
  | cons c t =>
      have hnode : d.node next = ⟨.text (String.ofList (c :: t)), some p, [], []⟩ := h.1
      change [next].flatMap d.canonicalChars = _
      rw [List.flatMap_cons, List.flatMap_nil, List.append_nil, canonicalChars_eq]
      simp only [wrapChars, hnode, String.toList_ofList, textChars]

theorem ids_eq_nil : row.ids next = [] ↔ row = .nil := by
  cases row <;> simp [Row.ids]

theorem textIds_eq_nil : textIds next t = [] ↔ t = [] := by
  cases t <;> simp [textIds]

/-- What is written for the nodes of a row is its canonical form. -/
theorem flatMap_ids (h : d.Holds next (row.nodes p next)) :
    (row.ids next).flatMap d.canonicalChars = row.chars := by
  induction row generalizing p next with
  | nil => rfl
  | element before name attributes inner tail rest ihInner ihRest =>
      simp only [Row.nodes, holds_append, Holds, length_textNodes, length_attributeNodes, Row.length_nodes] at h
      obtain ⟨hbefore, hnode, hattributes, hinner, htail, hrest⟩ := h
      have hend : next + textSize before + 1 + attributes.length + inner.size + textSize tail =
          next + textSize before + (1 + attributes.length + inner.size + textSize tail) := by omega
      rw [hend] at hrest
      -- the children of the element are the nodes of what it holds, and the text in front of its closing tag
      have helement : d.canonicalChars (next + textSize before) =
          elementChars name attributes (inner = .nil ∧ tail = []) (inner.chars ++ textChars tail) := by
        have hempty : (inner.ids (next + textSize before + 1 + attributes.length) ++
            textIds (next + textSize before + 1 + attributes.length + inner.size) tail).isEmpty =
              decide (inner = .nil ∧ tail = []) := by
          rw [Bool.eq_iff_iff, List.isEmpty_iff, List.append_eq_nil_iff, ids_eq_nil, textIds_eq_nil,
            decide_eq_true_iff]
        rw [canonicalChars_eq]
        simp only [wrapChars, tagChars, hnode, hempty, List.flatMap_append, ihInner hinner,
          flatMap_textIds htail, flatMap_attributeChars hattributes, Node.name, elementChars, openingChars]
      rw [Row.ids, List.flatMap_append, List.flatMap_cons, flatMap_textIds hbefore, helement, ihRest hrest,
        Row.chars]

end Document

namespace Assembly

variable {row : Row}

theorem list_start_build : (start.build row.pieces).document.list =
    ⟨.document, none, row.ids 1, []⟩ :: row.nodes 0 1 :=
  list_build_row

theorem holds_start_build : (start.build row.pieces).document.Holds 0
    (⟨.document, none, row.ids 1, []⟩ :: row.nodes 0 1) := by
  have hlist : (start.build row.pieces).document.list =
      [] ++ (⟨.document, none, row.ids 1, []⟩ :: row.nodes 0 1 ++ []) := by
    rw [list_start_build, List.append_nil, List.nil_append]
  exact Document.holds_of_list hlist

theorem size_start_build : (start.build row.pieces).document.size = row.size + 1 := by
  rw [← Document.length_list, list_start_build, List.length_cons, Row.length_nodes]

theorem canonical_start_build : (start.build row.pieces).document.canonical =
    String.ofList (declaration.toList ++ row.chars) := by
  obtain ⟨hroot, hnodes⟩ : (start.build row.pieces).document.Holds 0 _ := holds_start_build
  rw [Document.canonical, Document.canonicalChars_eq]
  simp only [Document.wrapChars, Document.rootId, hroot, Document.flatMap_ids hnodes]

end Assembly

end Interchange.Xml
