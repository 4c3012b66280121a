import Interchange.Proofs.Arena

/-!
# Elements and their tags

The elements of a document, in document order, are the tags of its source, in the order in which they were
written, and the attributes of an element are those of its tag (`Document.declares_of_parse`).
-/

namespace Interchange.Xml

open Text.Utf8 (Octets)

/-- The tag of an event that begins an element. -/
def Event.tag? : Event → Option Tag
  | .opening tag => some tag
  | .emptyElement tag => some tag
  | _ => none

/-- The name and the value of a node. -/
def Node.pair (n : Node) : String × String := (n.name, n.value.getD "")

theorem Node.pair_eq {m n : Node} (h : m.content = n.content) : m.pair = n.pair := by
  rw [pair, name, value, pair, name, value, h]

namespace Document

variable {d : Document} {p i : Nat} {hp : p < d.size} {link : Link} {content : Content}
  {attributes : List (String × String)} {tag : Tag}

/-- The elements, in document order. -/
def elements (d : Document) : List Nat := d.ids.filter fun i => (d.node i).isElement

/-- The attributes of a node, with their values. -/
def attributePairs (d : Document) (i : Nat) : List (String × String) :=
  (d.node i).attributes.map fun a => (d.node a).pair

/-- A node is the element of a tag: it has the tag's name, and the tag's attributes in the tag's order. -/
def Declares (d : Document) (tag : Tag) (i : Nat) : Prop :=
  ∃ name, readText tag.name = .ok name ∧ (d.node i).content = .element (String.ofList name) ∧
    Assembly.readPairs tag.attributes = .ok (d.attributePairs i)

theorem Declares.lt (h : d.Declares tag i) : i < d.size := by
  obtain ⟨name, _, hcontent, _⟩ := h
  refine Nat.lt_of_not_le fun hle => ?_
  rw [node_of_le hle] at hcontent
  cases hcontent

/-! ## Elements behind a write -/

theorem elements_append : (d.append p hp link content).elements =
    d.elements ++ [d.size].filter fun _ => (Node.mk content (some p) [] []).isElement := by
  have hold : (d.ids.filter fun i => ((d.append p hp link content).node i).isElement) = d.elements := by
    refine List.filter_congr fun i hi => ?_
    simp only [Node.isElement, content_append (List.mem_range.1 hi)]
  have hnew : ([d.size].filter fun i => ((d.append p hp link content).node i).isElement) =
      [d.size].filter fun _ => (Node.mk content (some p) [] []).isElement := by
    simp only [List.filter_cons, List.filter_nil, node_append_self]
  rw [elements, ids_append, List.filter_append, hold, hnew]

theorem elements_appendAttributes : (d.appendAttributes p hp attributes).elements = d.elements := by
  induction attributes generalizing d with
  | nil => rfl
  | cons a rest ih =>
      rw [appendAttributes, ih, elements_append]
      exact List.append_nil _

theorem attributePairs_append (hi : i < d.size) : (d.append p hp link content).attributePairs i =
    d.attributePairs i ++ if p = i ∧ link = .attr then [(Node.mk content (some p) [] []).pair] else [] := by
  have hold : ((d.node i).attributes.map fun a => ((d.append p hp link content).node a).pair) =
      d.attributePairs i :=
    List.map_congr_left fun a ha => Node.pair_eq (content_append (lt_of_mem_attributes ha).2)
  rw [attributePairs, node_append_of_lt hi]
  by_cases hpi : p = i
  · subst hpi
    cases link with
    | child => simpa [Link.attach] using hold
    | attr =>
        rw [if_pos rfl, if_pos ⟨rfl, rfl⟩, Link.attach, List.map_append, hold, List.map_singleton,
          node_append_self]
  · simpa [hpi] using hold

theorem attributePairs_appendAttributes_of_ne (hi : i < d.size) (hne : i ≠ p) :
    (d.appendAttributes p hp attributes).attributePairs i = d.attributePairs i := by
  induction attributes generalizing d with
  | nil => rfl
  | cons a rest ih =>
      have hlt : i < (d.append p hp .attr (.attr a.1 a.2)).size := by
        rw [size_append]
        exact Nat.lt_succ_of_lt hi
      rw [appendAttributes, ih hlt, attributePairs_append hi, if_neg fun h => hne h.1.symm, List.append_nil]

theorem attributePairs_appendAttributes :
    (d.appendAttributes p hp attributes).attributePairs p = d.attributePairs p ++ attributes := by
  induction attributes generalizing d with
  | nil => exact (List.append_nil _).symm
  | cons a rest ih =>
      rw [appendAttributes, ih, attributePairs_append hp, if_pos ⟨rfl, rfl⟩, List.append_assoc]
      rfl

theorem Declares.append (h : d.Declares tag i) : (d.append p hp .child content).Declares tag i := by
  have hlt := h.lt
  obtain ⟨name, hname, hcontent, hpairs⟩ := h
  refine ⟨name, hname, by rw [content_append hlt, hcontent], ?_⟩
  rw [attributePairs_append hlt, if_neg (by simp), List.append_nil]
  exact hpairs

theorem Declares.appendAttributes (h : d.Declares tag i) (hne : i ≠ p) :
    (d.appendAttributes p hp attributes).Declares tag i := by
  obtain ⟨name, hname, hcontent, hpairs⟩ := h
  have hlt : i < d.size := Declares.lt ⟨name, hname, hcontent, hpairs⟩
  refine ⟨name, hname, by rw [content_appendAttributes hlt, hcontent], ?_⟩
  rw [attributePairs_appendAttributes_of_ne hlt hne]
  exact hpairs

end Document

/-! ## Assemblies -/

namespace Assembly

variable {a b c : Assembly} {tags : List Tag} {tag : Tag} {e : Event}

/-- The elements so far are those of the tags so far. -/
def Follows (a : Assembly) (tags : List Tag) : Prop :=
  List.Forall₂ a.document.Declares tags a.document.elements

theorem Follows.start : start.Follows [] := .nil

theorem Follows.put_text (h : a.Follows tags) (cs : List Char) : (a.put (.text cs)).Follows tags := by
  have helements : (a.put (.text cs)).document.elements = a.document.elements := by
    rw [document_put_text, Document.elements_append]
    exact List.append_nil _
  rw [Follows, helements, document_put_text]
  exact h.imp fun _ _ => Document.Declares.append

theorem Follows.flush (h : a.Follows tags) (hflush : a.flush = .ok b) : b.Follows tags := by
  obtain ⟨rfl, _, _⟩ := flush_eq_ok hflush
  unfold flushed
  split
  · exact h
  · exact Follows.put_text (a := a.settled) h _

theorem Follows.addElement {enter : Bool} {name : List Char} {attributes : List (String × String)}
    (h : a.Follows tags) (hname : readText tag.name = .ok name)
    (hpairs : readPairs tag.attributes = .ok attributes) :
    (a.addElement enter (String.ofList name) attributes).Follows (tags ++ [tag]) := by
  have helements : (a.addElement enter (String.ofList name) attributes).document.elements =
      a.document.elements ++ [a.document.size] := by
    rw [Assembly.addElement, Document.elements_appendAttributes, Document.elements_append]
    rfl
  rw [Follows, helements]
  refine List.rel_append (h.imp fun _ i hi => ?_) (.cons ⟨name, hname, ?_, ?_⟩ .nil)
  · exact hi.append.appendAttributes (Nat.ne_of_lt hi.lt)
  · rw [Assembly.addElement, Document.content_appendAttributes (by simp), Document.node_append_self]
  · rw [Assembly.addElement, Document.attributePairs_appendAttributes, Document.attributePairs,
      Document.node_append_self]
    exact hpairs

theorem Follows.step (h : a.Follows tags) (hstep : a.step e = .ok b) : b.Follows (tags ++ e.tag?.toList) := by
  have hnone : tags ++ [] = tags := List.append_nil _
  cases e with
  | opening tag | emptyElement tag =>
      obtain ⟨c, name, attributes, hflush, _, hname, hpairs, rfl⟩ := openElement_eq_ok hstep
      exact (h.flush hflush).addElement hname hpairs
  | closing name =>
      obtain ⟨c, hflush, _, rfl⟩ := closeElement_eq_ok hstep
      have hc : c.Follows tags := h.flush hflush
      exact hnone.symm ▸ hc
  | characters _ | literal _ =>
      obtain ⟨_, _, hstep⟩ := bind_eq_ok.1 hstep
      cases hstep
      exact hnone.symm ▸ h
  | reference _ =>
      obtain ⟨_, _, hstep⟩ := bind_eq_ok.1 hstep
      split at hstep
      · cases hstep
        exact hnone.symm ▸ h
      · cases hstep
  | comment _ | instruction _ | doctype _ =>
      cases hstep
      exact hnone.symm ▸ h

/-- Behind all events, the elements are those of the tags that the events began elements with. -/
theorem follows_of_foldlM {events : List Event} (h : events.foldlM Assembly.step Assembly.start = .ok a) :
    a.Follows (events.filterMap Event.tag?) := by
  induction events using List.reverseRecOn generalizing a with
  | nil =>
      cases h
      exact .start
  | append_singleton events e ih =>
      rw [List.foldlM_append] at h
      obtain ⟨b, hfront, h⟩ := bind_eq_ok.1 h
      obtain ⟨c, hlast, h⟩ := bind_eq_ok.1 h
      cases h
      have hstep := (ih hfront).step hlast
      rw [List.filterMap_append]
      cases htag : e.tag? <;> simpa [htag] using hstep

end Assembly

/-- The elements of a document that can be read are the tags of its source, one by one and in order. -/
theorem Document.declares_of_parse {octets : Octets} {d : Document} (h : Document.parse octets = .ok d) :
    List.Forall₂ d.Declares ((read (dropMark (dropMark octets))).events.filterMap Event.tag?) d.elements := by
  obtain ⟨a, hevents, hfinish⟩ := Document.parse_eq_ok h
  obtain ⟨c, hflush, _, _, rfl⟩ := Assembly.finish_eq_ok hfinish
  exact (Assembly.follows_of_foldlM hevents).flush hflush

end Interchange.Xml
