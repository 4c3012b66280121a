import Interchange.Mapping
import Interchange.Proofs.Binding
import Interchange.Proofs.LineGroup
import Interchange.Proofs.Selection
import Interchange.Proofs.Traversal

/-!
# The lines of a document

Binding lines comes apart into places and what is bound there (`bindLines_eq`). The places are read off the
rules and the document alone: each node is bound once, under the first parent that selects it.
-/

namespace Interchange

open Xml (Document)
open LineGroup (parents membersOf)

/-! ## Places -/

/-- The nodes that a parent selects; a text that is no path selects none. -/
def Xml.Document.repeated (d : Document) (p : String) : List Nat :=
  match d.selectPath Document.rootId p with
  | .ok nodes => nodes
  | .error _ => []

/-- Whether a parent selects a node. -/
def Xml.Document.repeats (d : Document) (node : Nat) (p : String) : Bool := (d.repeated p).contains node

/-- Where a line is bound: at a node with its number among all nodes that a parent selects. -/
structure LinePlace where
  parent : String
  number : Nat
  node : Nat
  deriving DecidableEq, Repr

/-- The places under a parent: the nodes that it selects and no parent in front of it does. -/
def placesUnder (d : Document) (ps : List String) (p : String) : List LinePlace :=
  ((d.repeated p).zipIdx 1).filterMap fun (node, number) =>
    if ps.find? (d.repeats node) = some p then some ⟨p, number, node⟩ else none

/-- The places at which rules bind lines, parent by parent. -/
def linePlaces (d : Document) (rules : List Rule) : List LinePlace :=
  (parents rules).flatMap (placesUnder d (parents rules))

/-- The line that is bound at a place, by the rules of its parent. -/
def Shape.lineAt {L : Type} (shape : Shape L) (transforms : TransformTable) (d : Document)
    (rules : List Rule) (place : LinePlace) : Except Crash (BoundLine L) :=
  (shape.bound transforms d place.node (membersOf rules place.parent)).map fun record =>
    ⟨place.number, place.node, record,
      shape.flaws transforms d place.node (membersOf rules place.parent)⟩

/-- The errors under a parent: one for each of its rules if it is no path. -/
def errorsUnder (rules : List Rule) (p : String) : List BindingError :=
  match Path.parse p with
  | .ok _ => []
  | .error e => (rules.filter (·.parent == p)).map fun r => r.error (.invalidPath e.message)

variable {L : Type} {transforms : TransformTable} {shape : Shape L} {d : Document} {rules : List Rule}
  {p : String} {ps : List String} {node : Nat}

theorem Xml.Document.mem_repeated :
    node ∈ d.repeated p ↔ ∃ nodes, d.selectPath Document.rootId p = .ok nodes ∧ node ∈ nodes := by
  unfold repeated
  split <;> simp_all

theorem Xml.Document.repeats_iff : d.repeats node p = true ↔ node ∈ d.repeated p := by
  simp [repeats]

theorem Xml.Document.repeated_pairwise : (d.repeated p).Pairwise (· < ·) := by
  unfold repeated
  split
  · exact selectPath_pairwise ‹_›
  · exact List.Pairwise.nil

theorem Xml.Document.selectPath_error {c : Nat} {e : Path.Invalid} :
    d.selectPath c p = .error e ↔ Path.parse p = .error e := by
  unfold selectPath
  cases Path.parse p <;> simp [Except.map]

theorem Xml.Document.parse_of_selectPath {c : Nat} {nodes : List Nat}
    (h : d.selectPath c p = .ok nodes) : ∃ path, Path.parse p = .ok path := by
  cases hp : Path.parse p with
  | error e => simp [selectPath_error.2 hp] at h
  | ok path => exact ⟨path, rfl⟩

/-! ## Binding is binding at places -/

theorem bindGroup_eq (nodes : List (Nat × Nat)) :
    bindGroup transforms shape d ⟨p, membersOf rules p⟩ nodes =
      (nodes.map fun x => LinePlace.mk p x.2 x.1).mapM (shape.lineAt transforms d rules) := by
  rw [bindGroup, List.mapM_map]
  refine congrArg (List.mapM · nodes) (funext fun x => ?_)
  obtain ⟨n, number⟩ := x
  simp only [Function.comp, Shape.lineAt, bindRecord_eq]
  cases shape.bound transforms d n (membersOf rules p) <;> rfl

theorem lineAt_eq_ok {place : LinePlace} {line : BoundLine L} :
    shape.lineAt transforms d rules place = .ok line ↔
      ∃ record, shape.bound transforms d place.node (membersOf rules place.parent) = .ok record ∧
        line = ⟨place.number, place.node, record,
          shape.flaws transforms d place.node (membersOf rules place.parent)⟩ := by
  unfold Shape.lineAt
  cases shape.bound transforms d place.node (membersOf rules place.parent) <;>
    simp [Except.map, eq_comm]

/-- The places under a parent are its nodes that have not been seen in front of it. -/
theorem placesUnder_eq {before after : List String} {seen : List Nat} (hp : p ∉ before)
    (hseen : ∀ n, n ∈ seen ↔ ∃ q ∈ before, n ∈ d.repeated q) :
    placesUnder d (before ++ p :: after) p =
      (freshNodes seen (d.repeated p)).map fun x => LinePlace.mk p x.2 x.1 := by
  rw [placesUnder, freshNodes, List.map_filterMap]
  refine List.filterMap_congr fun x hx => ?_
  obtain ⟨n, number⟩ := x
  have hn : d.repeats n p = true := Document.repeats_iff.2 (List.fst_mem_of_mem_zipIdx hx)
  show (if (before ++ p :: after).find? (d.repeats n) = some p then some (LinePlace.mk p number n)
    else none) = (if seen.contains n then none else some (n, number)).map _
  rw [List.find?_append, List.find?_cons_of_pos hn]
  by_cases hs : n ∈ seen
  · -- a parent in front selects the node, and that parent is another one
    obtain ⟨q, hq, hnq⟩ := (hseen n).1 hs
    obtain ⟨first, hfirst⟩ := Option.isSome_iff_exists.1
      (List.find?_isSome.2 ⟨q, hq, Document.repeats_iff.2 hnq⟩)
    have hne : first ≠ p := fun e => hp (e ▸ List.mem_of_find?_eq_some hfirst)
    simp [hs, hfirst, hne]
  · have hnone : before.find? (d.repeats n) = none := by
      rw [List.find?_eq_none]
      exact fun q hq h => hs ((hseen n).2 ⟨q, hq, Document.repeats_iff.1 h⟩)
    simp [hs, hnone]

/-- Binding the groups of the parents that are left, behind the nodes of those in front. -/
theorem bindGroups_eq (before after : List String) (seen : List Nat)
    (hps : (before ++ after).Nodup) (hseen : ∀ n, n ∈ seen ↔ ∃ q ∈ before, n ∈ d.repeated q) :
    bindGroups transforms shape d seen (after.map fun p => ⟨p, membersOf rules p⟩) =
      ((after.flatMap (placesUnder d (before ++ after))).mapM (shape.lineAt transforms d rules)).map
        (⟨·, after.flatMap (errorsUnder rules)⟩) := by
  induction after generalizing before seen with
  | nil => rfl
  | cons p rest ih =>
      have hsplit : before ++ p :: rest = (before ++ [p]) ++ rest := by simp
      have hp : p ∉ before := by
        intro h
        exact (List.nodup_append.1 hps).2.2 p h p (by simp) rfl
      have hmem : ∀ n, n ∈ seen ++ d.repeated p ↔ ∃ q ∈ before ++ [p], n ∈ d.repeated q := by
        intro n
        simp [hseen n, or_and_right, exists_or]
      have hplaces : placesUnder d (before ++ p :: rest) p =
          (freshNodes seen (d.repeated p)).map fun x => LinePlace.mk p x.2 x.1 := placesUnder_eq hp hseen
      rw [List.map_cons, bindGroups, List.flatMap_cons, List.flatMap_cons, List.mapM_append, hplaces]
      have hrest := ih (before ++ [p]) (seen ++ d.repeated p) (hsplit ▸ hps) hmem
      rw [← hsplit] at hrest
      cases hsel : d.selectPath Document.rootId p with
      | error e =>
          have hnone : d.repeated p = [] := by simp [Document.repeated, hsel]
          have herrors : errorsUnder rules p =
              (membersOf rules p).map fun x => x.1.error (.invalidPath e.message) := by
            simp [errorsUnder, membersOf, Document.selectPath_error.1 hsel]
          rw [hnone, List.append_nil] at hrest
          rw [hnone, herrors]
          simp only [hrest]
          cases (rest.flatMap (placesUnder d (before ++ p :: rest))).mapM
            (shape.lineAt transforms d rules) <;> rfl
      | ok nodes =>
          have hnodes : d.repeated p = nodes := by simp [Document.repeated, hsel]
          rw [hnodes] at hrest
          obtain ⟨path, hpath⟩ := Document.parse_of_selectPath hsel
          have herrors : errorsUnder rules p = [] := by simp [errorsUnder, hpath]
          rw [hnodes, herrors]
          simp only [bindGroup_eq, hrest]
          cases ((freshNodes seen nodes).map fun x => LinePlace.mk p x.2 x.1).mapM
            (shape.lineAt transforms d rules) with
          | error crash => rfl
          | ok lines =>
              cases (rest.flatMap (placesUnder d (before ++ p :: rest))).mapM
                (shape.lineAt transforms d rules) <;> rfl

/-- Binding lines binds a line at each place, and reports the groups whose parents are no paths. -/
theorem bindLines_eq (rules : List Rule) :
    bindLines transforms shape d rules =
      ((linePlaces d (activeRules rules)).mapM (shape.lineAt transforms d (activeRules rules))).map
        (⟨·, (parents (activeRules rules)).flatMap (errorsUnder (activeRules rules))⟩) := by
  rw [bindLines, LineGroup.ofRules_eq, linePlaces]
  exact bindGroups_eq [] _ [] (LineGroup.nodup_parents _) (by simp)

end Interchange
