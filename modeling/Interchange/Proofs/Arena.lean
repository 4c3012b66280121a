import Interchange.Proofs.Pieces

/-!
# The nodes of a document under construction

A node that is put in hangs on one node that is there, and changes no other. From this it follows that
documents are arranged (`Document.Arranged`): what hangs on a node is what names it as its parent, in the
order of the numbers, and nothing hangs on texts and attributes.
-/

namespace Interchange.Xml

namespace Document

variable {d : Document} {p i j : Nat} {hp : p < d.size} {link other : Link} {content : Content}
  {attributes : List (String × String)}

/-! ## Nodes behind a write -/

theorem node_append_self : (d.append p hp link content).node d.size = ⟨content, some p, [], []⟩ := by
  have hlt : d.size < (d.append p hp link content).size := by
    rw [size_append]
    exact Nat.lt_succ_self _
  rw [node_of_lt hlt]
  simp [append, size, Array.getElem_push]

theorem node_append_of_lt (hi : i < d.size) : (d.append p hp link content).node i =
    if p = i then link.attach d.size (d.node i) else d.node i := by
  have hlt : i < (d.append p hp link content).size := by
    rw [size_append]
    exact Nat.lt_succ_of_lt hi
  rw [node_of_lt hlt, node_of_lt hi]
  have hmodify : i < (d.nodes.modify p (link.attach d.size)).size := by
    rw [Array.size_modify]
    exact hi
  simp only [append, Array.getElem_push_lt hmodify, Array.getElem_modify]
  rfl

theorem node_append_of_ne (hi : i < d.size) (hne : i ≠ p) :
    (d.append p hp link content).node i = d.node i := by
  rw [node_append_of_lt hi, if_neg (Ne.symm hne)]

theorem node_appendAttributes_of_ne (hi : i < d.size) (hne : i ≠ p) :
    (d.appendAttributes p hp attributes).node i = d.node i := by
  induction attributes generalizing d with
  | nil => rfl
  | cons a rest ih =>
      have hlt : i < (d.append p hp .attr (.attr a.1 a.2)).size := by
        rw [size_append]
        exact Nat.lt_succ_of_lt hi
      rw [appendAttributes, ih hlt, node_append_of_ne hi hne]

theorem node_appendAttributes_self : (d.appendAttributes p hp attributes).node p =
    { d.node p with attributes := (d.node p).attributes ++ List.range' d.size attributes.length } := by
  induction attributes generalizing d with
  | nil => simp [appendAttributes]
  | cons a rest ih =>
      rw [appendAttributes, ih, node_append_of_lt hp, if_pos rfl, size_append]
      simp [Link.attach, List.range'_succ]

/-! ## Descendants -/

theorem descendants_eq : d.descendants i = (d.node i).children.flatMap fun c => c :: d.descendants c := by
  rw [descendants]
  simp only [List.flatMap_subtype, List.unattach_attach]

theorem mem_descendants : j ∈ d.descendants i ↔
    ∃ c ∈ (d.node i).children, j = c ∨ j ∈ d.descendants c := by
  rw [descendants_eq]
  simp only [List.mem_flatMap, List.mem_cons]

theorem lt_of_mem_descendants {i j : Nat} (h : j ∈ d.descendants i) : i < j ∧ j < d.size := by
  obtain ⟨c, hc, hj⟩ := mem_descendants.1 h
  have hchild := lt_of_mem_children hc
  rcases hj with rfl | hj
  · exact hchild
  · have hbelow := lt_of_mem_descendants hj
    exact ⟨Nat.lt_trans hchild.1 hbelow.1, hbelow.2⟩
termination_by d.size - i
decreasing_by omega

/-! ## Arranged documents -/

/-- What hangs on a node by a link. -/
def Link.listed : Link → Node → List Nat
  | .child, n => n.children
  | .attr, n => n.attributes

/-- The link by which a node hangs on its parent. -/
def Link.of (content : Content) : Link :=
  match content with
  | .attr _ _ => .attr
  | _ => .child

theorem Link.of_eq {n : Node} : Link.of n.content = if n.isAttribute then .attr else .child := by
  unfold Node.isAttribute Link.of
  cases n.content <;> rfl

theorem Link.listed_attach {n : Node} : other.listed (link.attach i n) =
    if link = other then other.listed n ++ [i] else other.listed n := by
  cases link <;> cases other <;> rfl

@[simp] theorem Link.content_attach {n : Node} : (link.attach i n).content = n.content := by
  cases link <;> rfl

/-- The document and the elements: nodes on which others may hang. -/
def IsInner (d : Document) (i : Nat) : Prop := i = rootId ∨ (d.node i).isElement

structure Arranged (d : Document) : Prop where
  listed : ∀ (link : Link) (i : Nat), link.listed (d.node i) = d.ids.filter fun c =>
    (d.node c).parent = some i ∧ Link.of (d.node c).content = link
  inner : ∀ i p, (d.node i).parent = some p → d.IsInner p

theorem parent_of_le (hi : d.size ≤ i) : (d.node i).parent = none := by
  rw [node_of_le hi]

theorem listed_of_le (hi : d.size ≤ i) : link.listed (d.node i) = [] := by
  rw [node_of_le hi]
  cases link <;> rfl

/-- What is listed on a node is what names it as its parent. -/
theorem Arranged.mem_listed (hd : d.Arranged) (link : Link) {c : Nat} :
    c ∈ link.listed (d.node i) ↔ (d.node c).parent = some i ∧ Link.of (d.node c).content = link := by
  rw [hd.listed, List.mem_filter, decide_eq_true_iff, and_iff_right_of_imp]
  rintro ⟨hparent, _⟩
  refine List.mem_range.2 (Nat.lt_of_not_le fun hle => ?_)
  rw [parent_of_le hle] at hparent
  cases hparent

theorem Arranged.empty : Document.empty.Arranged where
  listed link i := by
    have hids : Document.empty.ids = [0] := rfl
    have hnone : (Document.empty.node 0).parent = none := rfl
    have hlisted : link.listed (Document.empty.node i) = [] := by
      cases i with
      | zero => cases link <;> rfl
      | succ i => exact listed_of_le (Nat.succ_le_succ (Nat.zero_le _))
    rw [hlisted, hids]
    simp [hnone]
  inner i p h := by
    cases i with
    | zero => cases h
    | succ i =>
        rw [parent_of_le (show Document.empty.size ≤ i + 1 from Nat.succ_le_succ (Nat.zero_le _))] at h
        cases h

theorem content_append (hi : i < d.size) :
    ((d.append p hp link content).node i).content = (d.node i).content := by
  rw [node_append_of_lt hi]
  split <;> simp

theorem parent_append (hi : i < d.size) :
    ((d.append p hp link content).node i).parent = (d.node i).parent := by
  rw [node_append_of_lt hi]
  split <;> simp

theorem ids_append : (d.append p hp link content).ids = d.ids ++ [d.size] := by
  rw [ids, size_append, List.range_succ]
  rfl

theorem isInner_append (hi : i < d.size) : (d.append p hp link content).IsInner i ↔ d.IsInner i := by
  simp only [IsInner, Node.isElement, content_append hi]

/-- A node that is put in by its own link keeps a document arranged. -/
theorem Arranged.append (hd : d.Arranged) (hinner : d.IsInner p) (hlink : Link.of content = link) :
    (d.append p hp link content).Arranged where
  listed other i := by
    have hold : (d.ids.filter fun c => ((d.append p hp link content).node c).parent = some i ∧
        Link.of ((d.append p hp link content).node c).content = other) =
          other.listed (d.node i) := by
      rw [hd.listed]
      refine List.filter_congr fun c hc => ?_
      have hlt : c < d.size := List.mem_range.1 hc
      rw [content_append hlt, parent_append hlt]
    have hnew : ([d.size].filter fun c => ((d.append p hp link content).node c).parent = some i ∧
        Link.of ((d.append p hp link content).node c).content = other) =
          if p = i ∧ link = other then [d.size] else [] := by
      rw [List.filter_cons, List.filter_nil, node_append_self, hlink]
      simp
    rw [ids_append, List.filter_append, hold, hnew]
    by_cases hi : i < d.size
    · rw [node_append_of_lt hi]
      by_cases hpi : p = i
      · rw [if_pos hpi, Link.listed_attach]
        by_cases hother : link = other <;> simp [hpi, hother]
      · simp [hpi]
    · have hpi : p ≠ i := fun h => hi (h ▸ hp)
      rw [listed_of_le (Nat.le_of_not_lt hi), if_neg fun h => hpi h.1, List.append_nil]
      by_cases hself : i = d.size
      · rw [hself, node_append_self]
        cases other <;> rfl
      · exact listed_of_le (by rw [size_append]; omega)
  inner i q h := by
    by_cases hi : i < d.size
    · rw [parent_append hi] at h
      exact (isInner_append (Nat.lt_trans (parent_lt h) hi)).2 (hd.inner i q h)
    · by_cases hself : i = d.size
      · rw [hself, node_append_self] at h
        cases h
        exact (isInner_append hp).2 hinner
      · rw [parent_of_le (by rw [size_append]; omega)] at h
        cases h

theorem content_appendAttributes (hi : i < d.size) :
    ((d.appendAttributes p hp attributes).node i).content = (d.node i).content := by
  by_cases hpi : i = p
  · rw [hpi, node_appendAttributes_self]
  · rw [node_appendAttributes_of_ne hi hpi]

theorem Arranged.appendAttributes (hd : d.Arranged) (hinner : d.IsInner p) :
    (d.appendAttributes p hp attributes).Arranged := by
  induction attributes generalizing d with
  | nil => exact hd
  | cons a rest ih =>
      rw [Document.appendAttributes]
      exact ih (hd.append hinner rfl) ((isInner_append hp).2 hinner)

end Document

/-! ## Assemblies -/

namespace Assembly

open Document (Arranged)

variable {a : Assembly}

/-- The document is arranged, and the open elements are elements. -/
structure Sound (a : Assembly) : Prop where
  arranged : a.document.Arranged
  opened : ∀ i ∈ a.opened, a.document.IsInner i

theorem Sound.start : start.Sound where
  arranged := .empty
  opened := by
    intro i hi
    cases hi

theorem Sound.current (h : a.Sound) : a.document.IsInner a.current := by
  unfold Assembly.current
  cases hopened : a.opened with
  | nil => exact Or.inl rfl
  | cons i rest => exact h.opened i (by simp [hopened])

theorem size_le_put (piece : Piece) : a.document.size ≤ (a.put piece).document.size := by
  cases piece with
  | opening name attributes =>
      rw [document_put_opening, Document.size_appendAttributes, Document.size_append]
      omega
  | text cs =>
      rw [document_put_text, Document.size_append]
      exact Nat.le_succ _
  | closing => exact Nat.le_refl _

/-- What a node is does not change when a piece is put in. -/
theorem content_put {i : Nat} (piece : Piece) (hi : i < a.document.size) :
    ((a.put piece).document.node i).content = (a.document.node i).content := by
  cases piece with
  | opening name attributes =>
      rw [document_put_opening, Document.content_appendAttributes (by rw [Document.size_append]; omega),
        Document.content_append hi]
  | text cs => rw [document_put_text, Document.content_append hi]
  | closing => rfl

theorem content_build {i : Nat} (pieces : List Piece) (hi : i < a.document.size) :
    ((a.build pieces).document.node i).content = (a.document.node i).content := by
  induction pieces generalizing a with
  | nil => rfl
  | cons piece rest ih =>
      rw [build_cons, ih (Nat.lt_of_lt_of_le hi (size_le_put piece)), content_put piece hi]

theorem isInner_put {i : Nat} (piece : Piece) (hi : i < a.document.size) :
    (a.put piece).document.IsInner i ↔ a.document.IsInner i := by
  simp only [Document.IsInner, Node.isElement, content_put piece hi]

/-- An element that is opened comes behind the nodes that are there. -/
theorem content_put_opening {name : String} {attributes : List (String × String)} :
    ((a.put (.opening name attributes)).document.node a.document.size).content = .element name := by
  rw [document_put_opening, Document.content_appendAttributes (by simp), Document.node_append_self]

theorem isInner_put_opening {name : String} {attributes : List (String × String)} :
    (a.put (.opening name attributes)).document.IsInner a.document.size := by
  refine Or.inr ?_
  rw [Node.isElement, content_put_opening]

theorem Sound.arranged_put (h : a.Sound) (piece : Piece) : (a.put piece).document.Arranged := by
  cases piece with
  | opening name attributes =>
      rw [document_put_opening]
      have hnew : (a.document.append a.current a.current_lt .child (.element name)).Arranged :=
        h.arranged.append h.current rfl
      refine hnew.appendAttributes (Or.inr ?_)
      rw [Document.node_append_self]
      rfl
  | text cs =>
      rw [document_put_text]
      exact h.arranged.append h.current rfl
  | closing => exact h.arranged

theorem Sound.put (h : a.Sound) (piece : Piece) : (a.put piece).Sound where
  arranged := h.arranged_put piece
  opened := by
    have hkept : ∀ i ∈ a.opened, (a.put piece).document.IsInner i := fun i hi =>
      (isInner_put piece (a.opened_lt i hi)).2 (h.opened i hi)
    intro i hi
    cases piece with
    | opening name attributes =>
        rcases List.mem_cons.1 hi with rfl | hi
        · exact isInner_put_opening
        · exact hkept i hi
    | text cs => exact hkept i hi
    | closing => exact hkept i (List.mem_of_mem_tail hi)

theorem Sound.build (h : a.Sound) (pieces : List Piece) : (a.build pieces).Sound := by
  induction pieces generalizing a with
  | nil => exact h
  | cons piece rest ih => exact ih (h.put piece)

theorem Sound.flush {b : Assembly} (h : a.Sound) (hflush : a.flush = .ok b) : b.Sound := by
  obtain ⟨rfl, _, _⟩ := flush_eq_ok hflush
  exact Sound.build (a := a.settled) ⟨h.arranged, h.opened⟩ _

theorem Sound.advance {b : Assembly} (h : a.Sound) (hadvance : a.Advance b) : b.Sound := by
  cases hadvance with
  | characters cs => exact ⟨h.arranged, h.opened⟩
  | opening hflush _ _ | emptyElement hflush _ _ | closing hflush _ => exact (h.flush hflush).build _

end Assembly

/-- Documents that can be read are arranged. -/
theorem Document.Arranged.of_parse {octets : Text.Utf8.Octets} {d : Document}
    (h : Document.parse octets = .ok d) : d.Arranged := by
  obtain ⟨a, hevents, hfinish⟩ := Document.parse_eq_ok h
  obtain ⟨b, hflush, _, _, rfl⟩ := Assembly.finish_eq_ok hfinish
  have hsound : a.Sound := Assembly.events_induction .start (fun _ _ h => h.advance) hevents
  exact (hsound.flush hflush).arranged

end Interchange.Xml
