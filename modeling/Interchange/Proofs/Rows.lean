import Interchange.Proofs.Arena

/-!
# Documents as trees

A row is what stands between two tags: elements one after the other, each with the text in front of it. The
pieces of a row become consecutive nodes, in document order, and hang on the node at hand
(`Assembly.list_build_row`).
-/

namespace Interchange.Xml

/-- Elements in a row. Each has the text in front of it, its attributes, what it holds, and the text in front
of its closing tag; an empty text stands for none. -/
inductive Row where
  | nil
  | element (before : List Char) (name : String) (attributes : List (String × String)) (inner : Row)
      (tail : List Char) (rest : Row)
  deriving DecidableEq, Repr

/-- The piece of a text, if there is one. -/
def textPieces (t : List Char) : List Piece := if t.isEmpty then [] else [.text t]

/-- The nodes of a text on a parent. -/
def textNodes (parent : Nat) (t : List Char) : List Node :=
  if t.isEmpty then [] else [⟨.text (String.ofList t), some parent, [], []⟩]

def textIds (next : Nat) (t : List Char) : List Nat := if t.isEmpty then [] else [next]

def textSize (t : List Char) : Nat := if t.isEmpty then 0 else 1

def attributeNodes (element : Nat) (attributes : List (String × String)) : List Node :=
  attributes.map fun a => ⟨.attr a.1 a.2, some element, [], []⟩

namespace Row

def pieces : Row → List Piece
  | nil => []
  | element before name attributes inner tail rest =>
    textPieces before ++ .opening name attributes ::
      (inner.pieces ++ (textPieces tail ++ .closing :: rest.pieces))

def size : Row → Nat
  | nil => 0
  | element before _ attributes inner tail rest =>
    textSize before + (1 + attributes.length + inner.size + textSize tail) + rest.size

/-- The nodes of a row that hang on its parent, when `next` is the number of the first. -/
def ids (next : Nat) : Row → List Nat
  | nil => []
  | element before _ attributes inner tail rest =>
    textIds next before ++ (next + textSize before) ::
      rest.ids (next + textSize before + (1 + attributes.length + inner.size + textSize tail))

/-- All nodes of a row, in document order. -/
def nodes (parent next : Nat) : Row → List Node
  | nil => []
  | element before name attributes inner tail rest =>
    let i := next + textSize before
    let first := i + 1 + attributes.length
    textNodes parent before ++
      ⟨.element name, some parent, inner.ids first ++ textIds (first + inner.size) tail,
        List.range' (i + 1) attributes.length⟩ ::
      (attributeNodes i attributes ++ (inner.nodes i first ++ (textNodes i tail ++
        rest.nodes parent (i + (1 + attributes.length + inner.size + textSize tail)))))

end Row

variable {p next : Nat} {t : List Char} {row : Row}

@[simp] theorem length_textNodes : (textNodes p t).length = textSize t := by
  unfold textNodes textSize
  split <;> rfl

@[simp] theorem length_attributeNodes {attributes : List (String × String)} :
    (attributeNodes p attributes).length = attributes.length := List.length_map _

@[simp] theorem Row.length_nodes : (row.nodes p next).length = row.size := by
  induction row generalizing p next with
  | nil => rfl
  | element before name attributes inner tail rest ihInner ihRest =>
      simp only [nodes, size, List.length_append, List.length_cons, length_textNodes, length_attributeNodes,
        ihInner, ihRest]
      omega

/-! ## Nodes that grow -/

def Node.adopt (ids : List Nat) (n : Node) : Node := { n with children := n.children ++ ids }

theorem Node.adopt_nil {n : Node} : n.adopt [] = n := by
  rw [adopt, List.append_nil]

theorem Node.adopt_adopt {n : Node} {xs ys : List Nat} : (n.adopt xs).adopt ys = n.adopt (xs ++ ys) := by
  rw [adopt, adopt, adopt, List.append_assoc]

/-- Nodes behind the others, some of which hang on one of these. -/
def grown (nodes : List Node) (p : Nat) (ids : List Nat) (more : List Node) : List Node :=
  nodes.modify p (Node.adopt ids) ++ more

variable {nodes more others : List Node} {n : Node} {xs ys : List Nat}

@[simp] theorem length_grown : (grown nodes p xs more).length = nodes.length + more.length := by
  rw [grown, List.length_append, List.length_modify]

theorem grown_nil : grown nodes p [] [] = nodes := by
  have hid : Node.adopt [] = id := funext fun _ => Node.adopt_nil
  rw [grown, hid, List.modify_id, List.append_nil]

theorem modify_append_left {f : Node → Node} (h : p < nodes.length) :
    (nodes ++ more).modify p f = nodes.modify p f ++ more := by
  induction nodes generalizing p with
  | nil => cases h
  | cons n nodes ih =>
      cases p with
      | zero => rfl
      | succ p =>
          rw [List.cons_append, List.modify_succ_cons, ih (Nat.lt_of_succ_lt_succ h)]
          rfl

theorem modify_append_cons {f : Node → Node} :
    (nodes ++ n :: more).modify nodes.length f = nodes ++ f n :: more := by
  induction nodes with
  | nil => rfl
  | cons m nodes ih =>
      rw [List.cons_append, List.length_cons, List.modify_succ_cons, ih]
      rfl

/-- Growth on the same node adds up. -/
theorem grown_grown (h : p < nodes.length) :
    grown (grown nodes p xs more) p ys others = grown nodes p (xs ++ ys) (more ++ others) := by
  have hadopt : Node.adopt ys ∘ Node.adopt xs = Node.adopt (xs ++ ys) := funext fun _ => Node.adopt_adopt
  rw [grown, grown, modify_append_left (by rwa [List.length_modify]), List.modify_modify_eq, hadopt,
    List.append_assoc, grown]

/-- Growth on a node that has grown itself stays within it. -/
theorem grown_grown_cons {i : Nat} {middle : List Node} (hi : i = nodes.length + more.length) :
    grown (grown nodes p xs (more ++ n :: middle)) i ys others =
      grown nodes p xs (more ++ n.adopt ys :: (middle ++ others)) := by
  subst hi
  have hlength : nodes.length + more.length = (nodes.modify p (Node.adopt xs) ++ more).length := by
    rw [List.length_append, List.length_modify]
  rw [grown, grown, grown, ← List.append_assoc, hlength, modify_append_cons]
  simp only [List.append_assoc, List.cons_append]

/-! ## Documents that grow -/

namespace Document

def list (d : Document) : List Node := d.nodes.toList

variable {d : Document} {i : Nat} {hi : i < d.size} {content : Content}

@[simp] theorem length_list : d.list.length = d.size := Array.length_toList

theorem node_eq_list : d.node i = d.list[i]?.getD ⟨.text "", none, [], []⟩ := by
  rw [node, list, Array.getElem?_toList]

theorem list_append {link : Link} : (d.append i hi link content).list =
    d.list.modify i (link.attach d.size) ++ [⟨content, some i, [], []⟩] := by
  rw [list, append, Array.toList_push, Array.toList_modify]
  rfl

theorem list_append_child :
    (d.append i hi .child content).list = grown d.list i [d.size] [⟨content, some i, [], []⟩] :=
  list_append

/-- Attributes are listed on their element, and stand behind all other nodes. -/
theorem list_appendAttributes {attributes : List (String × String)} {front middle : List Node}
    (hd : d.list = front ++ n :: middle) (hfront : i = front.length) :
    (d.appendAttributes i hi attributes).list =
      front ++ { n with attributes := n.attributes ++ List.range' d.size attributes.length } ::
        (middle ++ attributeNodes i attributes) := by
  induction attributes generalizing d n middle with
  | nil => simp [appendAttributes, hd, attributeNodes]
  | cons a rest ih =>
      have happend : (d.append i hi .attr (.attr a.1 a.2)).list =
          front ++ Link.attr.attach d.size n :: (middle ++ [⟨.attr a.1 a.2, some i, [], []⟩]) := by
        rw [list_append, hd, hfront, modify_append_cons, List.append_assoc, List.cons_append]
      rw [appendAttributes, ih happend, size_append]
      simp [Link.attach, attributeNodes, List.range'_succ]

end Document

namespace Assembly

variable {a : Assembly} {name : String} {attributes : List (String × String)}

theorem list_put_text : (a.put (.text t)).document.list =
    grown a.document.list a.current [a.document.size] [⟨.text (String.ofList t), some a.current, [], []⟩] := by
  rw [document_put_text, Document.list_append_child]

theorem list_put_opening : (a.put (.opening name attributes)).document.list =
    grown a.document.list a.current [a.document.size]
      (⟨.element name, some a.current, [], List.range' (a.document.size + 1) attributes.length⟩ ::
        attributeNodes a.document.size attributes) := by
  have hnew : (a.document.append a.current a.current_lt .child (.element name)).list = _ :=
    Document.list_append_child
  have hlength : a.document.size = (a.document.list.modify a.current (Node.adopt [a.document.size])).length := by
    rw [List.length_modify, Document.length_list]
  rw [document_put_opening, Document.list_appendAttributes hnew hlength, Document.size_append, grown]
  rfl

theorem list_build_text : (a.build (textPieces t)).document.list =
    grown a.document.list a.current (textIds a.document.size t) (textNodes a.current t) := by
  unfold textPieces textIds textNodes
  split
  · exact grown_nil.symm
  · exact list_put_text

theorem opened_build_text : (a.build (textPieces t)).opened = a.opened := by
  unfold textPieces
  split <;> rfl

theorem opened_build_row : (a.build row.pieces).opened = a.opened := by
  induction row generalizing a with
  | nil => rfl
  | element before name attributes inner tail rest ihInner ihRest =>
      simp only [Row.pieces, build_append, build_cons, ihRest]
      change ((Assembly.build _ (textPieces tail)).opened).tail = _
      rw [opened_build_text, ihInner]
      change (a.build (textPieces before)).opened = _
      exact opened_build_text

theorem current_eq {a b : Assembly} (h : a.opened = b.opened) : a.current = b.current := by
  rw [current, current, h]

theorem size_build_text : (a.build (textPieces t)).document.size = a.document.size + textSize t := by
  rw [← Document.length_list, list_build_text, length_grown, length_textNodes, Document.length_list]

theorem size_put_opening :
    (a.put (.opening name attributes)).document.size = a.document.size + 1 + attributes.length := by
  rw [← Document.length_list, list_put_opening, length_grown, List.length_cons, length_attributeNodes,
    Document.length_list]
  omega

/-- The pieces of a row become its nodes. They stand behind the others, and the node at hand holds those
that hang on it. -/
theorem list_build_row : (a.build row.pieces).document.list =
    grown a.document.list a.current (row.ids a.document.size) (row.nodes a.current a.document.size) := by
  induction row generalizing a with
  | nil => exact grown_nil.symm
  | element before name attributes inner tail rest ihInner ihRest =>
      have hlt : a.current < a.document.list.length := by
        rw [Document.length_list]
        exact a.current_lt
      -- the text in front, the element, what it holds and the text at its end
      obtain ⟨b, hb⟩ : ∃ b, a.build (textPieces before) = b := ⟨_, rfl⟩
      obtain ⟨c, hc⟩ : ∃ c, b.put (.opening name attributes) = c := ⟨_, rfl⟩
      obtain ⟨e, he⟩ : ∃ e, c.build inner.pieces = e := ⟨_, rfl⟩
      obtain ⟨f, hf⟩ : ∃ f, e.build (textPieces tail) = f := ⟨_, rfl⟩
      have hbOpened : b.opened = a.opened := hb ▸ opened_build_text
      have hcOpened : c.opened = b.document.size :: b.opened := by
        rw [← hc]
        rfl
      have heOpened : e.opened = c.opened := he ▸ opened_build_row
      have hfOpened : f.opened = e.opened := hf ▸ opened_build_text
      have hbCurrent : b.current = a.current := current_eq hbOpened
      have hcCurrent : c.current = b.document.size := by rw [current, hcOpened]; rfl
      have heCurrent : e.current = b.document.size := (current_eq heOpened).trans hcCurrent
      have hleave : f.leave.current = a.current := by
        refine current_eq ?_
        change f.opened.tail = _
        rw [hfOpened, heOpened, hcOpened, List.tail_cons, hbOpened]
      have hbSize : b.document.size = a.document.size + textSize before := hb ▸ size_build_text
      have hcSize : c.document.size = b.document.size + 1 + attributes.length := hc ▸ size_put_opening
      have heSize : e.document.size = c.document.size + inner.size := by
        rw [← Document.length_list, ← he, ihInner, length_grown, Row.length_nodes, Document.length_list]
      have hfSize : f.document.size = e.document.size + textSize tail := hf ▸ size_build_text
      have hfront : b.document.size =
          a.document.list.length + (textNodes a.current before).length := by
        rw [hbSize, length_textNodes, Document.length_list]
      have hbList : b.document.list = _ := hb ▸ list_build_text
      have hcList : c.document.list = _ := hc ▸ list_put_opening
      rw [hbList, hbCurrent, grown_grown hlt] at hcList
      have heList : e.document.list = _ := he ▸ ihInner
      rw [hcList, hcCurrent, grown_grown_cons hfront] at heList
      have hfList : f.document.list = _ := hf ▸ list_build_text
      rw [heList, heCurrent, grown_grown_cons hfront] at hfList
      have hpieces : a.build (Row.element before name attributes inner tail rest).pieces =
          f.leave.build rest.pieces := by
        rw [Row.pieces, build_append, hb, build_cons, hc, build_append, he, build_append, hf]
        rfl
      rw [hpieces, ihRest, hleave]
      have hnext : f.leave.document.size = a.document.size + textSize before +
          (1 + attributes.length + inner.size + textSize tail) := by
        change f.document.size = _
        omega
      change grown f.document.list _ _ _ = _
      rw [hnext, hfList, grown_grown hlt, heSize, hcSize, hbSize, Node.adopt_adopt]
      simp only [Row.ids, Row.nodes, Node.adopt, List.nil_append, List.append_assoc, List.cons_append]

end Assembly

end Interchange.Xml
