import Interchange.Proofs.Nesting
import Interchange.Proofs.Canonical
import Interchange.Xml.Walk

/-!
# Writing along a walk

A document is written in canonical form by one walk: a tag is written where its element is visited, a closing
tag where the walk leaves it, and a text where it is visited (`Document.canonical_eq_written`).
-/

namespace Interchange.Xml.Document

variable {d : Document} {i depth limit next p : Nat} {row : Row} {t : List Char}

/-- What is written when a walk comes to an event. -/
def writtenAt (d : Document) (e : WalkEvent) : List Char :=
  match e.action, (d.node e.id).content with
  | .visit, .document => declaration.toList
  | .visit, .element _ =>
    '<' :: d.tagChars e.id ++ if (d.node e.id).children.isEmpty then ['/', '>'] else ['>']
  | .visit, .text value => escape (Text.collapseChars value.toList)
  | .leave, .element name => ['<', '/'] ++ name.toList ++ ['>']
  | _, _ => []

/-- A walk of a child behind what was walked, as long as visits are left over. -/
def walkChild (d : Document) (depth : Nat) (walked : List WalkEvent × Nat) (c : Nat) : List WalkEvent × Nat :=
  (walked.1 ++ (d.walkFrom depth walked.2 c).1, (d.walkFrom depth walked.2 c).2)

theorem walkFrom_succ : d.walkFrom depth (limit + 1) i =
    if (d.node i).children.isEmpty then ([⟨.visit, i, depth⟩], limit)
    else
      let walked := (d.node i).children.foldl (d.walkChild (depth + 1)) ([], limit)
      (⟨.visit, i, depth⟩ :: ⟨.enter, i, depth⟩ :: walked.1 ++ [⟨.leave, i, depth⟩], walked.2) := by
  have hfold : ∀ init, (d.node i).children.attach.foldl (fun walked c => d.walkChild (depth + 1) walked c.1) init =
      (d.node i).children.foldl (d.walkChild (depth + 1)) init := by
    intro init
    rw [List.foldl_attach]
  rw [walkFrom, ← hfold]
  rfl

/-- Only the document and elements have children. -/
def LeavesBare (d : Document) : Prop :=
  ∀ i, (d.node i).isText ∨ (d.node i).isAttribute → (d.node i).children = []

theorem writtenAt_enter : d.writtenAt ⟨.enter, i, depth⟩ = [] := rfl

theorem wrapChars_of_leaf (depth : Nat) (h : (d.node i).children = []) :
    d.wrapChars i [] = d.writtenAt ⟨.visit, i, depth⟩ := by
  unfold wrapChars writtenAt
  cases (d.node i).content <;> simp [h]

theorem wrapChars_of_children (depth : Nat) (hd : d.LeavesBare) (h : (d.node i).children ≠ [])
    {inner : List Char} :
    d.wrapChars i inner = d.writtenAt ⟨.visit, i, depth⟩ ++ (inner ++ d.writtenAt ⟨.leave, i, depth⟩) := by
  have hbare := hd i
  unfold wrapChars writtenAt
  cases hcontent : (d.node i).content with
  | document => simp
  | element name => simp [h]
  | attr name value => exact absurd (hbare (Or.inr (by rw [Node.isAttribute, hcontent]))) h
  | text value => exact absurd (hbare (Or.inl (by rw [Node.isText, hcontent]))) h

/-- Walking the children one after the other writes them, if walking each of them does. -/
theorem written_foldl {cs : List Nat} {walked : List WalkEvent × Nat}
    (hwalk : ∀ c ∈ cs, ∀ limit, (d.descendants c).length < limit →
      (d.walkFrom depth limit c).1.flatMap d.writtenAt = d.canonicalChars c ∧
        (d.walkFrom depth limit c).2 + ((d.descendants c).length + 1) = limit)
    (h : (cs.flatMap fun c => c :: d.descendants c).length ≤ walked.2) :
    (cs.foldl (d.walkChild depth) walked).1.flatMap d.writtenAt =
        walked.1.flatMap d.writtenAt ++ cs.flatMap d.canonicalChars ∧
      (cs.foldl (d.walkChild depth) walked).2 + (cs.flatMap fun c => c :: d.descendants c).length =
        walked.2 := by
  induction cs generalizing walked with
  | nil => simp
  | cons c cs ih =>
      have hlength : ((c :: cs).flatMap fun c => c :: d.descendants c).length = (d.descendants c).length + 1 +
          (cs.flatMap fun c => c :: d.descendants c).length := by
        rw [List.flatMap_cons, List.length_append, List.length_cons]
      rw [hlength] at h ⊢
      obtain ⟨hwritten, hleft⟩ := hwalk c List.mem_cons_self walked.2 (by omega)
      have hchild : (d.walkChild depth walked c).2 + ((d.descendants c).length + 1) = walked.2 := hleft
      have hfit : (cs.flatMap fun c => c :: d.descendants c).length ≤ (d.walkChild depth walked c).2 := by omega
      obtain ⟨hrest, hrestLeft⟩ := ih (fun x hx => hwalk x (List.mem_cons_of_mem c hx)) hfit
      refine ⟨?_, by rw [List.foldl_cons]; omega⟩
      rw [List.foldl_cons, hrest, walkChild, List.flatMap_append, hwritten, List.flatMap_cons,
        List.append_assoc]

/-- A walk that may visit a node and all below it writes the node, and has the other visits left over. -/
theorem written_walkFrom (hd : d.LeavesBare) {i depth limit : Nat} (h : (d.descendants i).length < limit) :
    (d.walkFrom depth limit i).1.flatMap d.writtenAt = d.canonicalChars i ∧
      (d.walkFrom depth limit i).2 + ((d.descendants i).length + 1) = limit := by
  obtain ⟨limit, rfl⟩ : ∃ k, limit = k + 1 := Nat.exists_eq_succ_of_ne_zero (by omega)
  rw [canonicalChars_eq, walkFrom_succ]
  rw [descendants_eq] at h ⊢
  by_cases hchildren : (d.node i).children = []
  · rw [hchildren, List.flatMap_nil, wrapChars_of_leaf depth hchildren]
    simp
  · have hfit : ((d.node i).children.flatMap fun c => c :: d.descendants c).length ≤
        (([], limit) : List WalkEvent × Nat).2 := Nat.le_of_lt_succ h
    have hwalk : ∀ c ∈ (d.node i).children, ∀ left, (d.descendants c).length < left →
        (d.walkFrom (depth + 1) left c).1.flatMap d.writtenAt = d.canonicalChars c ∧
          (d.walkFrom (depth + 1) left c).2 + ((d.descendants c).length + 1) = left := fun c hc left hleft =>
      have := lt_of_mem_children hc
      written_walkFrom hd hleft
    obtain ⟨hwritten, hleft⟩ := written_foldl hwalk hfit
    rw [if_neg (by simpa using hchildren)]
    refine ⟨?_, by simp only; omega⟩
    rw [wrapChars_of_children depth hd hchildren]
    simp only [List.cons_append, List.flatMap_cons, List.flatMap_append, hwritten, writtenAt_enter,
      List.flatMap_nil, List.nil_append, List.append_nil]
termination_by d.size - i
decreasing_by omega

/-! ## Documents that were read -/

theorem length_below_textIds (h : d.Holds next (textNodes p t)) :
    ((textIds next t).flatMap fun c => c :: d.descendants c).length = textSize t := by
  cases t with
  | nil => rfl
  | cons c t =>
      have hnode : d.node next = ⟨.text (String.ofList (c :: t)), some p, [], []⟩ := h.1
      have hbelow : d.descendants next = [] := by rw [descendants_eq, hnode, List.flatMap_nil]
      change ([next].flatMap fun c => c :: d.descendants c).length = 1
      rw [List.flatMap_singleton, hbelow, List.length_singleton]

/-- At most the nodes of a row hang on its nodes, and at most these are visited. -/
theorem length_below_ids (h : d.Holds next (row.nodes p next)) :
    ((row.ids next).flatMap fun c => c :: d.descendants c).length ≤ row.size := by
  induction row generalizing p next with
  | nil => exact Nat.le_refl _
  | element before name attributes inner tail rest ihInner ihRest =>
      simp only [Row.nodes, holds_append, Holds, length_textNodes, length_attributeNodes, Row.length_nodes] at h
      obtain ⟨hbefore, hnode, hattributes, hinner, htail, hrest⟩ := h
      have hend : next + textSize before + 1 + attributes.length + inner.size + textSize tail =
          next + textSize before + (1 + attributes.length + inner.size + textSize tail) := by omega
      rw [hend] at hrest
      have hbelow := ihInner hinner
      have hbehind := ihRest hrest
      rw [Row.ids, List.flatMap_append, List.flatMap_cons, descendants_eq, hnode]
      simp only [List.flatMap_append, List.length_append, List.length_cons, length_below_textIds hbefore,
        length_below_textIds htail, Row.size]
      omega

theorem LeavesBare.of_arranged (hd : d.Arranged) (hroot : (d.node rootId).content = .document) :
    d.LeavesBare := by
  intro i hleaf
  rw [List.eq_nil_iff_forall_not_mem]
  intro c hc
  have hlisted : c ∈ (d.node i).children ↔ _ := hd.mem_listed .child
  have hparent : (d.node c).parent = some i := (hlisted.1 hc).1
  rcases hd.inner c i hparent with rfl | helement
  · simp [Node.isText, Node.isAttribute, hroot] at hleaf
  · unfold Node.isText Node.isAttribute at hleaf
    unfold Node.isElement at helement
    cases hcontent : (d.node i).content <;> simp [hcontent] at hleaf helement

/-- The canonical form of a document that was read is what is written along a walk through all of it. -/
theorem canonical_eq_written {octets : Text.Utf8.Octets} (h : Document.parse octets = .ok d) :
    d.canonical = String.ofList ((d.fullWalk rootId).flatMap d.writtenAt) := by
  obtain ⟨name, attributes, inner, tail, _, hd⟩ := exists_row h
  obtain ⟨hroot, hnodes⟩ : d.Holds 0 _ := hd ▸ Assembly.holds_start_build
  have hsize : (d.descendants rootId).length < d.size := by
    have hbelow := length_below_ids hnodes
    have hlength : d.size = _ := hd ▸ Assembly.size_start_build
    rw [descendants_eq, rootId, hroot, hlength]
    exact Nat.lt_succ_of_le hbelow
  have hbare : d.LeavesBare := .of_arranged (Arranged.of_parse h) (by rw [rootId, hroot])
  rw [canonical, fullWalk, walk, (written_walkFrom hbare hsize).1]

end Interchange.Xml.Document
