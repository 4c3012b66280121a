import Mathlib.Logic.Relation
import Mathlib.Tactic.Tauto
import Interchange.Proofs.Checked
import Interchange.Proofs.Selection

/-!
# What a path selects, as a relation

A node is selected when a chain of nodes leads to it, each selected by a step from the one before
(`Path.Chain`). Axes are read off the parents that nodes name, and predicates off the places that candidates
have among each other. In arranged documents evaluation finds exactly these nodes, although it searches
below elements alone (`Path.mem_select`).
-/

namespace Interchange

open Xml (Document)

namespace Path

/-! ## The relation -/

/-- The nodes along an axis, by the parents that they name. -/
def Axis.Leads (d : Document) (origin n : Nat) : Axis → Prop
  | .child => (d.node n).parent = some origin ∧ (d.node n).isAttribute = false
  | .attr => (d.node n).parent = some origin ∧ (d.node n).isAttribute = true ∧
      Xml.declaresNamespace (d.node n).name = false
  | .self => n = origin
  | .parent => (d.node origin).parent = some n

instance (d : Document) (origin n : Nat) : (axis : Axis) → Decidable (axis.Leads d origin n)
  | .child => inferInstanceAs (Decidable (_ ∧ _))
  | .attr => inferInstanceAs (Decidable (_ ∧ _ ∧ _))
  | .self => inferInstanceAs (Decidable (_ = _))
  | .parent => inferInstanceAs (Decidable (_ = _))

/-- The candidates of a step from an origin: the nodes on its axis that pass its test, in document order. -/
def Step.candidates (s : Step) (d : Document) (origin : Nat) : List Nat :=
  d.ids.filter fun n => s.axis.Leads d origin n ∧ s.matchesNode d n

/-- Whether a predicate holds of a node that stands at a position among as many candidates as `last`. -/
def Predicate.Holds (d : Document) (n position last : Nat) : Predicate → Prop
  | .position p => position = p
  | .last => position = last
  | .holds operand => operand.values d n ≠ []
  | .equals operand literal => literal ∈ operand.values d n

instance (d : Document) (n position last : Nat) : (p : Predicate) → Decidable (p.Holds d n position last)
  | .position _ => inferInstanceAs (Decidable (_ = _))
  | .last => inferInstanceAs (Decidable (_ = _))
  | .holds _ => inferInstanceAs (Decidable (_ ≠ _))
  | .equals _ _ => inferInstanceAs (Decidable (_ ∈ _))

/-- The candidates of which a predicate holds; positions count from one. -/
def Predicate.survivors (p : Predicate) (d : Document) (candidates : List Nat) : List Nat :=
  ((candidates.zipIdx 1).filter fun c => p.Holds d c.1 c.2 candidates.length).map (·.1)

/-- A node that a step selects from an origin: a candidate that survives the predicates one after the
other, with positions among those that are left. -/
def Step.Selects (s : Step) (d : Document) (origin n : Nat) : Prop :=
  n ∈ s.predicates.foldl (fun candidates p => p.survivors d candidates) (s.candidates d origin)

/-- A node and all below it, of whatever kind. -/
def DescendantOrSelf (d : Document) : Nat → Nat → Prop := Relation.ReflTransGen (Axis.Leads d · · .child)

/-- From where a step may start behind a node. -/
def Step.StartsAt (s : Step) (d : Document) (node origin : Nat) : Prop :=
  if s.recursive then DescendantOrSelf d node origin else origin = node

/-- Steps that lead from a node to another. -/
inductive Chain (d : Document) : List Step → Nat → Nat → Prop
  | nil {n : Nat} : Chain d [] n n
  | cons {s : Step} {rest : List Step} {node origin m n : Nat} (hstart : s.StartsAt d node origin)
      (hselects : s.Selects d origin m) (hrest : Chain d rest m n) : Chain d (s :: rest) node n

variable {d : Document} {i origin n : Nat} {nodes candidates : List Nat}

/-! ## Axes -/

theorem filter_ids_eq (h : i < d.size) : (d.ids.filter fun n => n = i) = [i] := by
  rw [List.filter_eq, Document.ids, List.nodup_range.count, if_pos (List.mem_range.2 h)]
  rfl

/-- In an arranged document the nodes along an axis are those that the parents say. -/
theorem Axis.nodes_eq (hd : d.Arranged) (h : origin < d.size) (axis : Axis) :
    axis.nodes d origin = d.ids.filter fun n => axis.Leads d origin n := by
  cases axis with
  | child =>
      refine (hd.listed .child origin).trans (List.filter_congr fun n _ => ?_)
      rw [Bool.eq_iff_iff, decide_eq_true_iff, decide_eq_true_iff]
      simp [Leads, Document.Link.of_eq]
  | attr =>
      have hlisted : (d.node origin).attributes = _ := hd.listed .attr origin
      rw [nodes, hlisted, List.filter_filter]
      refine List.filter_congr fun n _ => ?_
      rw [Bool.eq_iff_iff, Bool.and_eq_true, decide_eq_true_iff, decide_eq_true_iff]
      simp [Leads, Document.Link.of_eq, and_comm, and_assoc]
  | self => exact (filter_ids_eq h).symm
  | parent =>
      rw [nodes]
      cases hparent : (d.node origin).parent with
      | none => simp [Leads, hparent]
      | some p =>
          have hlt : p < d.size := Nat.lt_trans (Document.parent_lt hparent) h
          rw [Option.toList_some, ← filter_ids_eq hlt]
          refine List.filter_congr fun n _ => ?_
          simp [Leads, hparent, eq_comm]

theorem mem_children (hd : d.Arranged) : n ∈ (d.node origin).children ↔ Axis.child.Leads d origin n := by
  have hlisted : n ∈ (d.node origin).children ↔ _ := hd.mem_listed .child
  rw [hlisted, Axis.Leads, Document.Link.of_eq]
  cases (d.node n).isAttribute <;> simp

/-- Along the axes of children and attributes there is nothing but from the document and from elements. -/
theorem Axis.isInner_of_leads (hd : d.Arranged) {axis : Axis} (haxis : axis = .child ∨ axis = .attr)
    (h : axis.Leads d origin n) : d.IsInner origin := by
  rcases haxis with rfl | rfl
  · exact hd.inner n origin h.1
  · exact hd.inner n origin h.1

theorem descendantOrSelf_iff (hd : d.Arranged) {i n : Nat} :
    DescendantOrSelf d i n ↔ n = i ∨ n ∈ d.descendants i := by
  constructor
  · intro h
    induction h using Relation.ReflTransGen.head_induction_on with
    | refl => exact Or.inl rfl
    | head hchild _ ih => exact Or.inr (Document.mem_descendants.2 ⟨_, (mem_children hd).2 hchild, ih⟩)
  · rintro (rfl | h)
    · exact .refl
    · obtain ⟨c, hc, hn⟩ := Document.mem_descendants.1 h
      have hlt := Document.lt_of_mem_children hc
      exact .head ((mem_children hd).1 hc) ((descendantOrSelf_iff hd).2 hn)
termination_by d.size - i

/-! ## Predicates -/

theorem filter_zipIdx_position {k : Nat} {xs : List Nat} (hk : k ≤ n) :
    ((xs.zipIdx k).filter fun c => c.2 = n).map (·.1) = xs[n - k]?.toList := by
  induction xs generalizing k with
  | nil => rfl
  | cons x xs ih =>
      rw [List.zipIdx_cons, List.filter_cons]
      by_cases hkn : k = n
      · subst hkn
        have hnone : (xs.zipIdx (k + 1)).filter (fun c => c.2 = k) = [] := by
          refine List.filter_eq_nil_iff.2 fun c hc => ?_
          have := List.le_snd_of_mem_zipIdx hc
          simp only [decide_eq_true_eq]
          omega
        simp [hnone]
      · have hsucc : n - k = (n - (k + 1)) + 1 := by omega
        simp only [hkn, decide_false, Bool.false_eq_true, if_false]
        rw [ih (by omega), hsucc, List.getElem?_cons_succ]

theorem filter_zipIdx_fst {k : Nat} {xs : List Nat} {q : Nat → Bool} :
    ((xs.zipIdx k).filter fun c => q c.1).map (·.1) = xs.filter q := by
  have hfst : (xs.zipIdx k).map (·.1) = xs := List.zipIdx_map_fst k xs
  conv_rhs => rw [← hfst, List.filter_map]
  rfl

/-- A predicate selects the candidates of which it holds. -/
theorem Predicate.select_eq_survivors {p : Predicate} (hp : p.Counts) :
    p.select d candidates = p.survivors d candidates := by
  unfold survivors
  cases p with
  | position m => exact (filter_zipIdx_position (hp m rfl)).symm
  | last =>
      rw [select, List.getLast?_eq_getElem?]
      cases candidates with
      | nil => rfl
      | cons x xs => exact (filter_zipIdx_position (Nat.succ_pos _)).symm
  | holds operand =>
      have hholds : ∀ c ∈ candidates.zipIdx 1, decide (Holds d c.1 c.2 candidates.length (.holds operand)) =
          !(operand.values d c.1).isEmpty := by
        intro c _
        rw [Bool.eq_iff_iff, decide_eq_true_iff]
        simp [Holds]
      rw [List.filter_congr hholds, filter_zipIdx_fst (q := fun i => !(operand.values d i).isEmpty), select]
  | equals operand literal =>
      have hholds : ∀ c ∈ candidates.zipIdx 1,
          decide (Holds d c.1 c.2 candidates.length (.equals operand literal)) =
            (operand.values d c.1).contains literal := by
        intro c _
        rw [Bool.eq_iff_iff, decide_eq_true_iff]
        simp [Holds]
      rw [List.filter_congr hholds, filter_zipIdx_fst (q := fun i => (operand.values d i).contains literal),
        select]

/-! ## Steps -/

variable {s : Step}

theorem Step.selectFrom_eq (hd : d.Arranged) (hs : ∀ p ∈ s.predicates, p.Counts) (h : origin < d.size) :
    s.selectFrom d origin =
      s.predicates.foldl (fun candidates p => p.survivors d candidates) (s.candidates d origin) := by
  have hcandidates : (s.axis.nodes d origin).filter (s.matchesNode d) = s.candidates d origin := by
    rw [Axis.nodes_eq hd h, List.filter_filter, candidates]
    refine List.filter_congr fun n _ => ?_
    rw [Bool.eq_iff_iff, Bool.and_eq_true, decide_eq_true_iff, decide_eq_true_iff, and_comm]
  rw [selectFrom, hcandidates]
  generalize s.candidates d origin = candidates
  generalize s.predicates = ps at hs
  induction ps generalizing candidates with
  | nil => rfl
  | cons p ps ih =>
      rw [List.foldl_cons, List.foldl_cons, Predicate.select_eq_survivors (hs p List.mem_cons_self)]
      exact ih _ fun q hq => hs q (List.mem_cons_of_mem _ hq)

theorem getD_foldl_mark {marked : Array Bool} : (nodes.foldl (fun marked i =>
    marked.setIfInBounds i true) marked).getD n false = true ↔
      marked.getD n false = true ∨ n < marked.size ∧ n ∈ nodes := by
  induction nodes generalizing marked with
  | nil => simp
  | cons i nodes ih =>
      rw [List.foldl_cons, ih, Array.size_setIfInBounds, Array.getD_eq_getD_getElem?,
        Array.getElem?_setIfInBounds, List.mem_cons]
      by_cases hi : i = n
      · subst hi
        by_cases hlt : i < marked.size <;> simp [hlt]
      · simp [hi, Ne.symm hi]

theorem mem_inDocumentOrder : n ∈ inDocumentOrder d nodes ↔ n < d.size ∧ n ∈ nodes := by
  have hclear : (Array.replicate d.size false).getD n false = false := by
    rw [Array.getD_eq_getD_getElem?, Array.getElem?_replicate]
    split <;> rfl
  have hmarks : (marks d nodes).getD n false = true ↔ n < d.size ∧ n ∈ nodes := by
    rw [marks, getD_foldl_mark, Array.size_replicate, hclear]
    simp
  simp only [inDocumentOrder, List.mem_filter, Document.ids, List.mem_range, hmarks]
  tauto

namespace Step

theorem mem_selectFrom (hd : d.Arranged) (hs : ∀ p ∈ s.predicates, p.Counts) (h : origin < d.size) :
    n ∈ s.selectFrom d origin ↔ s.Selects d origin n := by
  rw [selectFrom_eq hd hs h, Selects]

theorem leads_of_mem_selectFrom (hd : d.Arranged) (h : origin < d.size) (hn : n ∈ s.selectFrom d origin) :
    n < d.size ∧ s.axis.Leads d origin n := by
  have hnode := selectFrom_subset n hn
  rw [Axis.nodes_eq hd h, List.mem_filter, decide_eq_true_iff] at hnode
  exact ⟨List.mem_range.1 hnode.1, hnode.2⟩

/-- Searching below elements alone loses nothing where the axis leads from elements alone. -/
theorem mem_origins (hd : d.Arranged) (haxis : s.recursive = true → s.axis = .child ∨ s.axis = .attr)
    (hn : n ∈ s.selectFrom d origin) (h : origin < d.size) :
    origin ∈ s.origins d nodes ↔ ∃ node ∈ nodes, s.StartsAt d node origin := by
  unfold origins StartsAt
  cases hrecursive : s.recursive with
  | false => simp
  | true =>
      simp only [if_true, mem_inDocumentOrder, List.mem_flatMap, List.mem_cons, List.mem_filter,
        descendantOrSelf_iff hd]
      constructor
      · rintro ⟨_, node, hnode, heq | ⟨hbelow, _⟩⟩
        · exact ⟨node, hnode, Or.inl heq⟩
        · exact ⟨node, hnode, Or.inr hbelow⟩
      · rintro ⟨node, hnode, heq | hbelow⟩
        · exact ⟨h, node, hnode, Or.inl heq⟩
        · refine ⟨h, node, hnode, Or.inr ⟨hbelow, ?_⟩⟩
          -- the document is below no node, so what leads on is an element
          have hinner := Axis.isInner_of_leads hd (haxis hrecursive) (leads_of_mem_selectFrom hd h hn).2
          refine hinner.resolve_left fun hroot => ?_
          have hlt := (Document.lt_of_mem_descendants hbelow).1
          rw [hroot] at hlt
          exact Nat.not_lt_zero _ hlt

theorem startsAt_lt (hd : d.Arranged) (h : i < d.size) (hstart : s.StartsAt d i origin) : origin < d.size := by
  unfold StartsAt at hstart
  split at hstart
  · rcases (descendantOrSelf_iff hd).1 hstart with rfl | hbelow
    · exact h
    · exact (Document.lt_of_mem_descendants hbelow).2
  · rw [hstart]
    exact h

theorem mem_select (hd : d.Arranged) (hs : ∀ p ∈ s.predicates, p.Counts)
    (haxis : s.recursive = true → s.axis = .child ∨ s.axis = .attr) (hnodes : ∀ i ∈ nodes, i < d.size) :
    n ∈ s.select d nodes ↔
      ∃ node ∈ nodes, ∃ origin, s.StartsAt d node origin ∧ s.Selects d origin n := by
  rw [select, mem_inDocumentOrder, List.mem_flatMap]
  constructor
  · rintro ⟨_, origin, horigin, hn⟩
    have hlt := origins_lt hnodes origin horigin
    obtain ⟨node, hnode, hstart⟩ := (mem_origins hd haxis hn hlt).1 horigin
    exact ⟨node, hnode, origin, hstart, (mem_selectFrom hd hs hlt).1 hn⟩
  · rintro ⟨node, hnode, origin, hstart, hselects⟩
    have hlt := startsAt_lt hd (hnodes node hnode) hstart
    have hn := (mem_selectFrom hd hs hlt).2 hselects
    exact ⟨(leads_of_mem_selectFrom hd hlt hn).1, origin,
      (mem_origins hd haxis hn hlt).2 ⟨node, hnode, hstart⟩, hn⟩

end Step

/-! ## Paths -/

variable {p : Path} {context : Nat}

theorem mem_foldl_select (hd : d.Arranged) {steps : List Step}
    (hsteps : ∀ s ∈ steps, ∀ q ∈ s.predicates, q.Counts)
    (haxis : ∀ s ∈ steps, s.recursive = true → s.axis = .child ∨ s.axis = .attr)
    (hnodes : ∀ i ∈ nodes, i < d.size) :
    n ∈ steps.foldl (fun nodes s => s.select d nodes) nodes ↔ ∃ node ∈ nodes, Chain d steps node n := by
  induction steps generalizing nodes with
  | nil =>
      constructor
      · exact fun hn => ⟨n, hn, .nil⟩
      · rintro ⟨node, hnode, hchain⟩
        cases hchain
        exact hnode
  | cons s steps ih =>
      rw [List.foldl_cons, ih (fun t ht => hsteps t (List.mem_cons_of_mem _ ht))
        (fun t ht => haxis t (List.mem_cons_of_mem _ ht)) Step.select_lt]
      have hselect : ∀ m, m ∈ s.select d nodes ↔ ∃ node ∈ nodes, ∃ origin,
          s.StartsAt d node origin ∧ s.Selects d origin m := fun m =>
        Step.mem_select hd (hsteps s List.mem_cons_self) (haxis s List.mem_cons_self) hnodes
      constructor
      · rintro ⟨m, hm, hrest⟩
        obtain ⟨node, hnode, origin, hstart, hselects⟩ := (hselect m).1 hm
        exact ⟨node, hnode, .cons hstart hselects hrest⟩
      · rintro ⟨node, hnode, hchain⟩
        cases hchain with
        | cons hstart hselects hrest =>
            exact ⟨_, (hselect _).2 ⟨node, hnode, _, hstart, hselects⟩, hrest⟩

/-- Evaluating a path that can be read, at a node of a document that can be read: every look-up finds its
node and every position is at least one; the nodes come in document order, each once; and where recursive
steps go along children or attributes, these are the nodes to which a chain of steps leads. -/
theorem select_eq_chain {octets : Text.Utf8.Octets} {text : String} (hd : Document.parse octets = .ok d)
    (hp : parse text = .ok p) (h : context < d.size) :
    p.select? d context = some (p.select d context) ∧
      (p.select d context).Pairwise (· < ·) ∧
      ((∀ s ∈ p.steps, s.recursive = true → s.axis = .child ∨ s.axis = .attr) → ∀ n,
        n ∈ p.select d context ↔
          Chain d p.steps (if p.absolute then Document.rootId else context) n) := by
  have hcounts := Counts.of_parse hp
  refine ⟨select?_eq hcounts h, select_pairwise p d context, fun haxis n => ?_⟩
  have hstart : ∀ i ∈ [if p.absolute then Document.rootId else context], i < d.size := by
    intro i hi
    rw [List.mem_singleton.1 hi]
    exact start_lt h
  rw [select, mem_foldl_select (Document.Arranged.of_parse hd) hcounts haxis hstart]
  simp

theorem select_eq_chain_lines : ∃ d p,
    Document.parse (Text.Utf8.encodeText "<a><b/><c><b k='1'/>x<b k='2'/></c></a>") = .ok d ∧
    parse "//b[@k][last()]" = .ok p ∧ 0 < d.size ∧ p.select? d 0 = some (p.select d 0) ∧
    p.select d 0 = [7] ∧ ∀ n, n ∈ p.select d 0 ↔ Chain d p.steps 0 n := by
  have hpath : parse "//b[@k][last()]" =
      .ok ⟨true, [⟨true, .child, .name "b", [.holds (.attr "k"), .last]⟩]⟩ := by decide +kernel
  have hread : (Document.parse (Text.Utf8.encodeText "<a><b/><c><b k='1'/>x<b k='2'/></c></a>")).toOption.map
      (fun d => (d.size, (Path.mk true [⟨true, .child, .name "b", [.holds (.attr "k"), .last]⟩]).select d 0)) =
        some (9, [7]) := by decide +kernel
  cases hd : Document.parse (Text.Utf8.encodeText "<a><b/><c><b k='1'/>x<b k='2'/></c></a>") with
  | error m => simp [hd, Except.toOption] at hread
  | ok d =>
      obtain ⟨hsize, hselect⟩ : d.size = 9 ∧ _ = [7] := by
        simpa [hd, Except.toOption] using hread
      have hlt : 0 < d.size := by omega
      obtain ⟨hchecked, _, hchain⟩ := select_eq_chain hd hpath hlt
      exact ⟨d, _, rfl, hpath, hlt, hchecked, hselect, hchain (by simp)⟩

end Path

end Interchange
