import Interchange.Path.Selection

/-!
# What a path selects, in order

The nodes that a path selects are in document order, each once.
-/

namespace Interchange

open Xml (Document)

namespace Path

theorem inDocumentOrder_pairwise (d : Document) (nodes : List Nat) :
    (inDocumentOrder d nodes).Pairwise (· < ·) :=
  List.Pairwise.filter _ List.pairwise_lt_range

theorem select_pairwise (p : Path) (d : Document) (context : Nat) :
    (p.select d context).Pairwise (· < ·) := by
  obtain ⟨absolute, steps⟩ := p
  -- whatever a step starts from, it ends in document order; without steps there is one node
  have hsteps : ∀ nodes : List Nat, nodes.Pairwise (· < ·) →
      (steps.foldl (fun nodes s => s.select d nodes) nodes).Pairwise (· < ·) := by
    induction steps with
    | nil => exact fun _ h => h
    | cons s rest ih => exact fun _ _ => ih _ (inDocumentOrder_pairwise d _)
  exact hsteps _ (List.pairwise_singleton _ _)

end Path

namespace Xml.Document

theorem selectPath_pairwise {d : Document} {context : Nat} {path : String} {nodes : List Nat}
    (h : d.selectPath context path = .ok nodes) : nodes.Pairwise (· < ·) := by
  unfold selectPath at h
  cases hp : Path.parse path with
  | error e => simp [hp, Except.map] at h
  | ok p =>
      simp only [hp, Except.map, Except.ok.injEq] at h
      exact h ▸ Path.select_pairwise p d context

end Xml.Document

end Interchange
