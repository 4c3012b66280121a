import Interchange.Path.Selection
import Interchange.Proofs.Arena
import Interchange.Proofs.Splitting

/-!
# Evaluation that checks what it looks up

Evaluation as a partial function: a node is looked up by a number that must be there, and a position is
counted down from one that must not be zero. On every document, from every node of it, a path that can be
read is evaluated to the end, with the result of evaluation without checks (`Path.select?_eq`).
-/

namespace Interchange

open Xml (Document)

/-- The members of a list that pass a test that may fail. -/
def keep? (test : Nat → Option Bool) : List Nat → Option (List Nat)
  | [] => some []
  | i :: rest => do
    let kept ← test i
    let more ← keep? test rest
    return if kept then i :: more else more

theorem keep?_eq {test : Nat → Option Bool} {p : Nat → Bool} {xs : List Nat}
    (h : ∀ i ∈ xs, test i = some (p i)) : keep? test xs = some (xs.filter p) := by
  induction xs with
  | nil => rfl
  | cons i rest ih =>
      have hrest := ih fun j hj => h j (List.mem_cons_of_mem _ hj)
      rw [keep?, h i List.mem_cons_self, hrest, List.filter_cons]
      rfl

theorem mapM_eq {β : Type} {f : Nat → Option β} {g : Nat → β} {xs : List Nat}
    (h : ∀ i ∈ xs, f i = some (g i)) : xs.mapM f = some (xs.map g) := by
  induction xs with
  | nil => rfl
  | cons i rest ih =>
      have hrest := ih fun j hj => h j (List.mem_cons_of_mem _ hj)
      rw [List.mapM_cons, h i List.mem_cons_self, hrest]
      rfl

namespace Xml.Document

variable {d : Document} {i : Nat}

theorem getElem?_nodes (h : i < d.size) : d.nodes[i]? = some (d.node i) := by
  rw [node_of_lt h]
  exact Array.getElem?_eq_getElem h

theorem lt_of_children {n : Node} {c : Nat} (hn : d.nodes[i]? = some n) (hc : c ∈ n.children) :
    i < c ∧ c < d.size := by
  obtain ⟨hi, rfl⟩ := Array.getElem?_eq_some_iff.1 hn
  exact d.children_after i hi c hc

/-- The nodes below a node, looked up one by one. -/
def descendants? (d : Document) (i : Nat) : Option (List Nat) :=
  match _hn : d.nodes[i]? with
  | none => none
  | some n => do
    let parts ← n.children.attach.mapM fun ⟨c, _⟩ => (d.descendants? c).map (c :: ·)
    return parts.flatten
termination_by d.size - i
decreasing_by
  rename_i hc
  have := lt_of_children _hn hc
  omega

/-- The text of a node, looked up. -/
def textContent? (d : Document) (i : Nat) : Option String := do
  let n ← d.nodes[i]?
  match n.value with
  | some value => return value
  | none =>
    let below ← d.descendants? i
    let nodes ← below.mapM fun c => d.nodes[c]?
    return String.join (nodes.filterMap fun m => if m.isText then m.value else none)

theorem descendants?_of_lt (h : i < d.size) : d.descendants? i =
    ((d.node i).children.mapM fun c => (d.descendants? c).map (c :: ·)).map List.flatten := by
  rw [descendants?]
  split
  · rename_i hn
    rw [getElem?_nodes h] at hn
    cases hn
  · rename_i n hn
    obtain rfl : d.node i = n := by simpa [getElem?_nodes h] using hn
    simp only [List.mapM_subtype, List.unattach_attach]
    cases (d.node i).children.mapM fun c => (d.descendants? c).map (c :: ·) <;> rfl

theorem descendants?_eq {i : Nat} (h : i < d.size) : d.descendants? i = some (d.descendants i) := by
  have hparts : ((d.node i).children.mapM fun c => (d.descendants? c).map (c :: ·)) =
      some ((d.node i).children.map fun c => c :: d.descendants c) := by
    refine mapM_eq fun c hc => ?_
    have hlt := lt_of_mem_children hc
    rw [descendants?_eq hlt.2]
    rfl
  rw [descendants?_of_lt h, hparts, descendants_eq]
  rfl
termination_by d.size - i
decreasing_by omega

theorem textContent?_eq (h : i < d.size) : d.textContent? i = some (d.textContent i) := by
  unfold textContent? textContent
  rw [getElem?_nodes h]
  cases hvalue : (d.node i).value with
  | some value => simp [hvalue]
  | none =>
      have hbelow : (d.descendants i).mapM (fun c => d.nodes[c]?) = some ((d.descendants i).map d.node) :=
        mapM_eq fun c hc => getElem?_nodes (lt_of_mem_descendants hc).2
      simp [hvalue, descendants?_eq h, hbelow, List.filterMap_map]

end Xml.Document

namespace Path

variable {d : Document} {i origin : Nat} {candidates nodes : List Nat}

/-- The nodes that an operand stands for, looked up. -/
def Operand.values? (d : Document) (i : Nat) : Operand → Option (List String)
  | .context => (d.textContent? i).map ([·])
  | .attr name => do
    let n ← d.nodes[i]?
    let attributes ← n.attributes.mapM fun a => d.nodes[a]?
    return (attributes.filter fun m => nameMatches name m.name).filterMap (·.value)
  | .child name => do
    let n ← d.nodes[i]?
    let elements ← keep? (fun c => (d.nodes[c]?).map (·.isElement)) n.children
    let named ← keep? (fun c => (d.nodes[c]?).map fun m => nameMatches name m.name) elements
    named.mapM d.textContent?

/-- The candidates that satisfy a predicate; there is no position zero. -/
def Predicate.select? (d : Document) (candidates : List Nat) : Predicate → Option (List Nat)
  | .position p => if p = 0 then none else some candidates[p - 1]?.toList
  | .last => some candidates.getLast?.toList
  | .holds operand => keep? (fun i => (operand.values? d i).map fun values => !values.isEmpty) candidates
  | .equals operand literal =>
    keep? (fun i => (operand.values? d i).map (·.contains literal)) candidates

/-- The nodes along an axis, looked up. -/
def Axis.nodes? (d : Document) (origin : Nat) (axis : Axis) : Option (List Nat) := do
  let n ← d.nodes[origin]?
  match axis with
  | .child => return n.children
  | .attr => keep? (fun a => (d.nodes[a]?).map fun m => !Xml.declaresNamespace m.name) n.attributes
  | .self => return [origin]
  | .parent => return n.parent.toList

/-- Whether a node, looked up, passes the test of a step. -/
def Step.matchesNode? (s : Step) (d : Document) (i : Nat) : Option Bool := do
  let n ← d.nodes[i]?
  match s.test with
  | .node => return true
  | .text => return n.isText
  | .any => return s.axis.isPrincipal n
  | .name name => return s.axis.isPrincipal n && nameMatches name n.name

def Step.selectFrom? (s : Step) (d : Document) (origin : Nat) : Option (List Nat) := do
  let nodes ← s.axis.nodes? d origin
  let candidates ← keep? (s.matchesNode? d) nodes
  s.predicates.foldlM (fun candidates p => p.select? d candidates) candidates

def Step.origins? (s : Step) (d : Document) (nodes : List Nat) : Option (List Nat) :=
  if s.recursive then do
    let parts ← nodes.mapM fun i => do
      let below ← d.descendants? i
      let elements ← keep? (fun c => (d.nodes[c]?).map (·.isElement)) below
      return i :: elements
    return inDocumentOrder d parts.flatten
  else some nodes

def Step.select? (s : Step) (d : Document) (nodes : List Nat) : Option (List Nat) := do
  let origins ← s.origins? d nodes
  let parts ← origins.mapM (s.selectFrom? d)
  return inDocumentOrder d parts.flatten

/-- Evaluation of a path that ends without a result where a number names no node or a position is zero. -/
def select? (p : Path) (d : Document) (context : Nat) : Option (List Nat) :=
  p.steps.foldlM (fun nodes s => s.select? d nodes) [if p.absolute then Document.rootId else context]

/-! ## No look-up fails -/

theorem Operand.values?_eq (h : i < d.size) (operand : Operand) :
    operand.values? d i = some (operand.values d i) := by
  cases operand with
  | context =>
      rw [values?, Document.textContent?_eq h]
      rfl
  | attr name =>
      have hattributes : ((d.node i).attributes.mapM fun a => d.nodes[a]?) =
          some ((d.node i).attributes.map d.node) :=
        mapM_eq fun a ha => Document.getElem?_nodes (Document.lt_of_mem_attributes ha).2
      simp only [values?, values, Document.getElem?_nodes h, Option.bind_eq_bind, Option.bind_some]
      rw [hattributes]
      simp [List.filter_map, List.filterMap_map, Function.comp_def]
  | child name =>
      have hchildren : ∀ c ∈ (d.node i).children, d.nodes[c]? = some (d.node c) := fun c hc =>
        Document.getElem?_nodes (Document.lt_of_mem_children hc).2
      have helements : keep? (fun c => (d.nodes[c]?).map (·.isElement)) (d.node i).children =
          some (d.childElements i) :=
        keep?_eq fun c hc => by rw [hchildren c hc]; rfl
      have hnamed : keep? (fun c => (d.nodes[c]?).map fun m => nameMatches name m.name) (d.childElements i) =
          some ((d.childElements i).filter fun c => nameMatches name (d.node c).name) :=
        keep?_eq fun c hc => by rw [hchildren c (List.mem_of_mem_filter hc)]; rfl
      have htexts : ((d.childElements i).filter fun c => nameMatches name (d.node c).name).mapM
          d.textContent? = some (((d.childElements i).filter fun c =>
            nameMatches name (d.node c).name).map d.textContent) := by
        refine mapM_eq fun c hc => Document.textContent?_eq ?_
        exact (Document.lt_of_mem_children (List.mem_of_mem_filter (List.mem_of_mem_filter hc))).2
      simp only [values?, values, Document.getElem?_nodes h]
      simp [helements, hnamed, htexts]

/-- Positions count from one. -/
def Predicate.Counts (p : Predicate) : Prop := ∀ n, p = .position n → 0 < n

theorem Predicate.select?_eq {p : Predicate} (hp : p.Counts) (h : ∀ i ∈ candidates, i < d.size) :
    p.select? d candidates = some (p.select d candidates) := by
  cases p with
  | position n => exact if_neg (Nat.ne_of_gt (hp n rfl))
  | last => rfl
  | holds operand => exact keep?_eq fun i hi => by rw [operand.values?_eq (h i hi)]; rfl
  | equals operand literal => exact keep?_eq fun i hi => by rw [operand.values?_eq (h i hi)]; rfl

theorem Predicate.select_sublist (p : Predicate) : (p.select d candidates).Sublist candidates := by
  cases p with
  | position n =>
      rw [select]
      cases h : candidates[n - 1]? with
      | none => exact List.nil_sublist _
      | some i => exact List.singleton_sublist.2 (List.mem_of_getElem? h)
  | last =>
      rw [select]
      cases h : candidates.getLast? with
      | none => exact List.nil_sublist _
      | some i => exact List.singleton_sublist.2 (List.mem_of_getLast? h)
  | holds operand => exact List.filter_sublist
  | equals operand literal => exact List.filter_sublist

theorem Axis.nodes_lt {axis : Axis} (h : origin < d.size) : ∀ i ∈ axis.nodes d origin, i < d.size := by
  intro i hi
  cases axis with
  | child => exact (Document.lt_of_mem_children hi).2
  | attr => exact (Document.lt_of_mem_attributes (List.mem_of_mem_filter hi)).2
  | self =>
      rw [List.mem_singleton.1 hi]
      exact h
  | parent => exact Nat.lt_trans (Document.parent_lt (Option.mem_toList.1 hi)) h

theorem Axis.nodes?_eq (h : origin < d.size) (axis : Axis) :
    axis.nodes? d origin = some (axis.nodes d origin) := by
  unfold nodes? nodes
  rw [Document.getElem?_nodes h]
  cases axis with
  | attr =>
      refine keep?_eq fun a ha => ?_
      rw [Document.getElem?_nodes (Document.lt_of_mem_attributes ha).2]
      rfl
  | child | self | parent => rfl

namespace Step

variable {s : Step}

theorem matchesNode?_eq (h : i < d.size) : s.matchesNode? d i = some (s.matchesNode d i) := by
  unfold matchesNode? matchesNode
  rw [Document.getElem?_nodes h]
  cases s.test <;> rfl

/-- The nodes that a step selects are on its axis. -/
theorem selectFrom_subset : ∀ i ∈ s.selectFrom d origin, i ∈ s.axis.nodes d origin := by
  have hpredicates : ∀ (ps : List Predicate) (candidates : List Nat),
      (ps.foldl (fun candidates p => p.select d candidates) candidates).Sublist candidates := by
    intro ps
    induction ps with
    | nil => exact List.Sublist.refl
    | cons p ps ih => exact fun candidates => (ih _).trans p.select_sublist
  exact fun i hi => List.mem_of_mem_filter ((hpredicates _ _).subset hi)

theorem selectFrom?_eq (hs : ∀ p ∈ s.predicates, p.Counts) (h : origin < d.size) :
    s.selectFrom? d origin = some (s.selectFrom d origin) := by
  have hnodes := s.axis.nodes_lt h
  have hcandidates : keep? (s.matchesNode? d) (s.axis.nodes d origin) =
      some ((s.axis.nodes d origin).filter (s.matchesNode d)) :=
    keep?_eq fun i hi => matchesNode?_eq (hnodes i hi)
  have hlt : ∀ i ∈ (s.axis.nodes d origin).filter (s.matchesNode d), i < d.size := fun i hi =>
    hnodes i (List.mem_of_mem_filter hi)
  simp only [selectFrom?, selectFrom, Axis.nodes?_eq h, hcandidates, Option.bind_eq_bind, Option.bind_some]
  clear hcandidates hnodes
  -- what is left of the candidates stays within the document
  generalize (s.axis.nodes d origin).filter (s.matchesNode d) = candidates at hlt ⊢
  generalize s.predicates = ps at hs ⊢
  induction ps generalizing candidates with
  | nil => rfl
  | cons p ps ih =>
      rw [List.foldlM_cons, Predicate.select?_eq (hs p List.mem_cons_self) hlt, List.foldl_cons]
      exact ih _ (fun i hi => hlt i (p.select_sublist.subset hi))
        fun q hq => hs q (List.mem_cons_of_mem _ hq)

theorem origins_lt (h : ∀ i ∈ nodes, i < d.size) : ∀ i ∈ s.origins d nodes, i < d.size := by
  intro i hi
  unfold origins at hi
  split at hi
  · exact List.mem_range.1 (List.mem_of_mem_filter hi)
  · exact h i hi

theorem select_lt : ∀ i ∈ s.select d nodes, i < d.size := fun _ hi =>
  List.mem_range.1 (List.mem_of_mem_filter hi)

theorem origins?_eq (h : ∀ i ∈ nodes, i < d.size) : s.origins? d nodes = some (s.origins d nodes) := by
  unfold origins? origins
  split
  · have hparts : (nodes.mapM fun i => do
        let below ← d.descendants? i
        let elements ← keep? (fun c => (d.nodes[c]?).map (·.isElement)) below
        return i :: elements) =
          some (nodes.map fun i => i :: (d.descendants i).filter fun c => (d.node c).isElement) := by
      refine mapM_eq fun i hi => ?_
      have helements : keep? (fun c => (d.nodes[c]?).map (·.isElement)) (d.descendants i) =
          some ((d.descendants i).filter fun c => (d.node c).isElement) := by
        refine keep?_eq fun c hc => ?_
        rw [Document.getElem?_nodes (Document.lt_of_mem_descendants hc).2]
        rfl
      rw [Document.descendants?_eq (h i hi), Option.bind_eq_bind, Option.bind_some, helements]
      rfl
    rw [hparts]
    rfl
  · rfl

theorem select?_eq (hs : ∀ p ∈ s.predicates, p.Counts) (h : ∀ i ∈ nodes, i < d.size) :
    s.select? d nodes = some (s.select d nodes) := by
  have hparts : (s.origins d nodes).mapM (s.selectFrom? d) =
      some ((s.origins d nodes).map (s.selectFrom d)) :=
    mapM_eq fun i hi => selectFrom?_eq hs (origins_lt h i hi)
  rw [select?, origins?_eq h, Option.bind_eq_bind, Option.bind_some, hparts]
  rfl

end Step

variable {p : Path} {context : Nat}

/-- Positions in a path count from one. -/
def Counts (p : Path) : Prop := ∀ s ∈ p.steps, ∀ q ∈ s.predicates, q.Counts

theorem start_lt (h : context < d.size) : (if p.absolute then Document.rootId else context) < d.size := by
  have hpos : Document.rootId < d.size := Nat.lt_of_le_of_lt (Nat.zero_le context) h
  split
  · exact hpos
  · exact h

theorem select?_eq (hp : p.Counts) (h : context < d.size) :
    p.select? d context = some (p.select d context) := by
  have hsteps : ∀ (steps : List Step) (nodes : List Nat), (∀ s ∈ steps, ∀ q ∈ s.predicates, q.Counts) →
      (∀ i ∈ nodes, i < d.size) →
        steps.foldlM (fun nodes s => s.select? d nodes) nodes =
          some (steps.foldl (fun nodes s => s.select d nodes) nodes) := by
    intro steps
    induction steps with
    | nil => exact fun _ _ _ => rfl
    | cons s steps ih =>
        intro nodes hcounts hnodes
        rw [List.foldlM_cons, Step.select?_eq (hcounts s List.mem_cons_self) hnodes, List.foldl_cons]
        exact ih _ (fun t ht => hcounts t (List.mem_cons_of_mem _ ht)) Step.select_lt
  refine hsteps p.steps _ hp fun i hi => ?_
  rw [List.mem_singleton.1 hi]
  exact start_lt h

/-! ## Positions of paths that can be read -/

theorem readPredicate_counts {text : List Char} {q : Predicate} (h : readPredicate text = .ok q) :
    q.Counts := by
  rintro n rfl
  unfold readPredicate at h
  split at h
  · cases h
  split at h
  · cases h
  split at h
  · -- the text is a number
    dsimp only at h
    split at h
    · cases h
    split at h
    · cases h
    · rename_i hne
      cases h
      exact Nat.pos_of_ne_zero hne
  split at h
  · rename_i left right _
    obtain ⟨operand, _, h⟩ := bind_eq_ok.1 h
    obtain ⟨literal, _, h⟩ := bind_eq_ok.1 h
    cases h
  · obtain ⟨operand, _, heq⟩ := map_eq_ok h
    cases heq

theorem readPredicates_counts {ps : List Predicate} (text : List Char)
    (h : readPredicates text = .ok ps) : ∀ q ∈ ps, q.Counts := by
  match text with
  | [] =>
      rw [readPredicates] at h
      cases h
      exact fun _ hq => absurd hq List.not_mem_nil
  | c :: rest =>
      by_cases hc : c = '['
      · subst hc
        obtain ⟨inside, after, p, more, hcut, hp, hmore, rfl⟩ := readPredicates_bracket.1 h
        have hlt := length_behind_bracket hcut
        intro q hq
        rcases List.mem_cons.1 hq with rfl | hq
        · exact readPredicate_counts hp
        · exact readPredicates_counts (Text.trimLeft after) hmore q hq
      · exact absurd h (readPredicates_cons_ne hc)
termination_by text.length

theorem readSteps_counts {recursive : Bool} {segs : List (List Char)} {steps : List Step}
    (h : readSteps recursive segs = .ok steps) : ∀ s ∈ steps, ∀ q ∈ s.predicates, q.Counts := by
  induction segs generalizing recursive steps with
  | nil =>
      cases h
      exact fun _ hs => absurd hs List.not_mem_nil
  | cons segment segs ih =>
      rcases readSteps_cons_cases h with ⟨_, _, _, hrest⟩ | ⟨step, more, hstep, hmore, rfl⟩
      · exact ih hrest
      · intro s hs
        rcases List.mem_cons.1 hs with rfl | hs
        · obtain ⟨_, _, ps, _, hps, _, rfl⟩ := readStep_eq_ok.1 hstep
          exact readPredicates_counts _ hps
        · exact ih hmore s hs

theorem Counts.of_parse {text : String} (h : parse text = .ok p) : p.Counts := by
  have hread := parse_eq_ok.1 h
  rcases segments_of_readTrimmed hread with ⟨body, segs, heq, hsegs⟩ | ⟨c, rest, segs, heq, hc, hsegs⟩
  · rw [heq, readTrimmed_absolute hsegs] at hread
    split at hread
    · cases hread
      exact fun _ hs => absurd hs List.not_mem_nil
    · obtain ⟨steps, hsteps, rfl⟩ := map_eq_ok hread
      exact readSteps_counts hsteps
  · rw [heq, readTrimmed_relative hc hsegs] at hread
    obtain ⟨steps, hsteps, rfl⟩ := map_eq_ok hread
    exact readSteps_counts hsteps

end Path

end Interchange
