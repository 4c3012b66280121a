import Interchange.Text.Blank

/-!
Documents: nodes numbered in document order. Node 0 is the document itself; every other node has a
parent with a smaller number, and the children of a node have greater numbers, so that every walk
down or up a document ends.
-/

namespace Interchange.Xml

/-- What a node is. -/
inductive Content where
  | document
  | element (name : String)
  | attr (name value : String)
  | text (value : String)
  deriving DecidableEq, Repr

/-- A node and its place. The children of elements and of the document are elements and texts;
attributes belong to elements. -/
structure Node where
  content : Content
  parent : Option Nat
  children : List Nat
  attributes : List Nat
  deriving DecidableEq, Repr

namespace Node

/-- The qualified name of an element or attribute; other nodes have the empty name. -/
def name (n : Node) : String :=
  match n.content with
  | .element name => name
  | .attr name _ => name
  | _ => ""

/-- The value of an attribute or text. -/
def value (n : Node) : Option String :=
  match n.content with
  | .attr _ value => some value
  | .text value => some value
  | _ => none

def isElement (n : Node) : Bool :=
  match n.content with
  | .element _ => true
  | _ => false

def isAttribute (n : Node) : Bool :=
  match n.content with
  | .attr _ _ => true
  | _ => false

def isText (n : Node) : Bool :=
  match n.content with
  | .text _ => true
  | _ => false

end Node

/-- The part of a qualified name behind the first colon, or all of it. -/
def localPart (name : String) : String :=
  match Text.splitOnce ':' name.toList with
  | some (_, after) => String.ofList after
  | none => name

/-- The part of a qualified name in front of the first colon. -/
def prefixPart (name : String) : Option String :=
  (Text.splitOnce ':' name.toList).map fun (before, _) => String.ofList before

/-- Whether an attribute declares a namespace. -/
def declaresNamespace (name : String) : Bool :=
  name == "xmlns" || name.startsWith "xmlns:"

/-- A document. -/
structure Document where
  nodes : Array Node
  children_after : ∀ (i : Nat) (h : i < nodes.size), ∀ c ∈ nodes[i].children,
    i < c ∧ c < nodes.size
  attributes_after : ∀ (i : Nat) (h : i < nodes.size), ∀ a ∈ nodes[i].attributes,
    i < a ∧ a < nodes.size
  parent_before : ∀ (i : Nat) (h : i < nodes.size), ∀ p ∈ nodes[i].parent, p < i

namespace Document

@[ext] theorem ext {d e : Document} (h : d.nodes = e.nodes) : d = e := by
  cases d; cases e; cases h; rfl

/-- The document node, node 0. -/
def rootId : Nat := 0

/-- The node of a number; a number that names no node gives a text without content. -/
def node (d : Document) (i : Nat) : Node :=
  d.nodes[i]?.getD ⟨.text "", none, [], []⟩

def size (d : Document) : Nat := d.nodes.size

def ids (d : Document) : List Nat := List.range d.size

theorem node_of_lt {d : Document} {i : Nat} (h : i < d.size) : d.node i = d.nodes[i] := by
  simp [node, Array.getElem?_eq_getElem (h : i < d.nodes.size)]

theorem node_of_le {d : Document} {i : Nat} (h : d.size ≤ i) :
    d.node i = ⟨.text "", none, [], []⟩ := by
  simp [node, Array.getElem?_eq_none (h : d.nodes.size ≤ i)]

theorem lt_of_mem_children {d : Document} {i c : Nat} (h : c ∈ (d.node i).children) :
    i < c ∧ c < d.size := by
  by_cases hi : i < d.size
  · rw [node_of_lt hi] at h
    exact d.children_after i hi c h
  · rw [node_of_le (Nat.le_of_not_lt hi)] at h
    simp at h

theorem lt_of_mem_attributes {d : Document} {i a : Nat} (h : a ∈ (d.node i).attributes) :
    i < a ∧ a < d.size := by
  by_cases hi : i < d.size
  · rw [node_of_lt hi] at h
    exact d.attributes_after i hi a h
  · rw [node_of_le (Nat.le_of_not_lt hi)] at h
    simp at h

theorem parent_lt {d : Document} {i p : Nat} (h : (d.node i).parent = some p) : p < i := by
  by_cases hi : i < d.size
  · rw [node_of_lt hi] at h
    exact d.parent_before i hi p h
  · rw [node_of_le (Nat.le_of_not_lt hi)] at h
    simp at h

/-! ## Growth -/

/-- The document that holds nothing yet. -/
def empty : Document where
  nodes := #[⟨.document, none, [], []⟩]
  children_after := by simp
  attributes_after := by simp
  parent_before := by simp

/-- How a node hangs on its parent. -/
inductive Link where
  | child
  | attr
  deriving DecidableEq, Repr

/-- A node with one more node hanging on it. -/
def Link.attach (link : Link) (id : Nat) (n : Node) : Node :=
  match link with
  | .child => { n with children := n.children ++ [id] }
  | .attr => { n with attributes := n.attributes ++ [id] }

theorem Link.mem_children_attach {link : Link} {id c : Nat} {n : Node}
    (h : c ∈ (link.attach id n).children) : c ∈ n.children ∨ c = id := by
  cases link <;> simp_all [attach]

theorem Link.mem_attributes_attach {link : Link} {id a : Nat} {n : Node}
    (h : a ∈ (link.attach id n).attributes) : a ∈ n.attributes ∨ a = id := by
  cases link <;> simp_all [attach]

@[simp] theorem Link.parent_attach {link : Link} {id : Nat} {n : Node} :
    (link.attach id n).parent = n.parent := by
  cases link <;> rfl

/-- Adds a node behind all others, hanging on `parent`. -/
def append (d : Document) (parent : Nat) (h : parent < d.size) (link : Link)
    (content : Content) : Document where
  nodes := (d.nodes.modify parent (link.attach d.size)).push ⟨content, some parent, [], []⟩
  children_after := by
    intro i hi c hc
    rw [Array.size_push, Array.size_modify]
    rw [Array.getElem_push] at hc
    split at hc
    · rename_i hlt
      rw [Array.size_modify] at hlt
      rw [Array.getElem_modify] at hc
      split at hc
      · rcases Link.mem_children_attach hc with hc | rfl
        · have := d.children_after i hlt c hc
          omega
        · exact ⟨hlt, Nat.lt_succ_self _⟩
      · have := d.children_after i hlt c hc
        omega
    · simp at hc
  attributes_after := by
    intro i hi a ha
    rw [Array.size_push, Array.size_modify]
    rw [Array.getElem_push] at ha
    split at ha
    · rename_i hlt
      rw [Array.size_modify] at hlt
      rw [Array.getElem_modify] at ha
      split at ha
      · rcases Link.mem_attributes_attach ha with ha | rfl
        · have := d.attributes_after i hlt a ha
          omega
        · exact ⟨hlt, Nat.lt_succ_self _⟩
      · have := d.attributes_after i hlt a ha
        omega
    · simp at ha
  parent_before := by
    intro i hi p hp
    rw [Array.getElem_push] at hp
    split at hp
    · rename_i hlt
      rw [Array.size_modify] at hlt
      rw [Array.getElem_modify] at hp
      split at hp
      · rw [Link.parent_attach] at hp
        exact d.parent_before i hlt p hp
      · exact d.parent_before i hlt p hp
    · rename_i hge
      rw [Array.size_push] at hi
      rw [Array.size_modify] at hge hi
      simp only [Option.mem_def, Option.some.injEq] at hp
      have : d.nodes.size = i := by omega
      rw [← hp, ← this]
      exact h

@[simp] theorem size_append {d : Document} {parent : Nat} {h : parent < d.size} {link : Link}
    {content : Content} : (d.append parent h link content).size = d.size + 1 := by
  simp [append, size]

/-- Hangs attributes on an element, in order. -/
def appendAttributes (d : Document) (element : Nat) (h : element < d.size) :
    List (String × String) → Document
  | [] => d
  | (name, value) :: rest =>
    (d.append element h .attr (.attr name value)).appendAttributes element
      (by rw [size_append]; exact Nat.lt_succ_of_lt h) rest

theorem size_appendAttributes {d : Document} {element : Nat} {h : element < d.size}
    {attributes : List (String × String)} :
    (d.appendAttributes element h attributes).size = d.size + attributes.length := by
  induction attributes generalizing d with
  | nil => rfl
  | cons a rest ih =>
    rw [appendAttributes, ih, size_append, List.length_cons]
    omega

/-! ## Questions -/

def documentElement (d : Document) : Option Nat :=
  (d.node rootId).children.find? fun c => (d.node c).isElement

/-- The element children of a node. -/
def childElements (d : Document) (i : Nat) : List Nat :=
  (d.node i).children.filter fun c => (d.node c).isElement

/-- The element children of a local name. -/
def childrenNamed (d : Document) (i : Nat) (name : String) : List Nat :=
  (d.childElements i).filter fun c => localPart (d.node c).name == name

/-- The value of the first attribute of a local name. -/
def attributeValue (d : Document) (i : Nat) (name : String) : Option String :=
  ((d.node i).attributes.find? fun a => localPart (d.node a).name == name).bind
    fun a => (d.node a).value

/-- The nodes below a node, in document order. -/
def descendants (d : Document) (i : Nat) : List Nat :=
  (d.node i).children.attach.flatMap fun ⟨c, _⟩ =>
    c :: d.descendants c
termination_by d.size - i
decreasing_by
  rename_i h
  have := lt_of_mem_children h
  omega

/-- The text of a node: its own value, or the texts below it, joined. -/
def textContent (d : Document) (i : Nat) : String :=
  match (d.node i).value with
  | some value => value
  | none =>
    String.join ((d.descendants i).filterMap fun c =>
      if (d.node c).isText then (d.node c).value else none)

/-- The first declaration of a name on a node or on those around it. -/
def declarationOf (d : Document) (declared : String) (i : Nat) : Option Nat :=
  match (d.node i).attributes.find? fun a => (d.node a).name == declared with
  | some a => some a
  | none =>
    match h : (d.node i).parent with
    | none => none
    | some p =>
      have := parent_lt h
      d.declarationOf declared p
termination_by i

/-- The namespace bound to the name of a node: the nearest declaration of its prefix, or of the
default, counts, and an empty one binds nothing. -/
def namespaceOf (d : Document) (i : Nat) : Option String :=
  let declared :=
    match prefixPart (d.node i).name with
    | some p => "xmlns:" ++ p
    | none => "xmlns"
  ((d.declarationOf declared i).bind fun a => (d.node a).value).filter fun uri => !uri.isEmpty

end Document

end Interchange.Xml
