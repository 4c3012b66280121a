import Mathlib

/-!
# Sorting by a key

There is one way to put a list in the order of a key and leave the elements of one key as they are
(`InOrder.unique`). Sorting a list at once is that way (`inOrder_sortBy`).
-/

namespace Interchange

variable {α κ : Type} [LinearOrder κ] {key : α → κ} {xs sorted others : List α} {a b : α} {k : κ}

/-- The elements of a list from the least key to the greatest, those of one key as they are. -/
def sortBy (key : α → κ) (xs : List α) : List α := xs.mergeSort fun a b => key a ≤ key b

/-- The elements of a list in the order of a key, those of one key in the order of the list. -/
structure InOrder (key : α → κ) (xs sorted : List α) : Prop where
  pairwise : sorted.Pairwise (key · ≤ key ·)
  filter_eq : ∀ k, sorted.filter (key · == k) = xs.filter (key · == k)

/-- It does not matter how the elements of one key are told from the others. -/
theorem InOrder.of_filter (hpairwise : sorted.Pairwise (key · ≤ key ·))
    (h : ∀ k (p : α → Bool), (∀ a, p a = true ↔ key a = k) → sorted.filter p = xs.filter p) :
    InOrder key xs sorted :=
  ⟨hpairwise, fun k => h k _ fun _ => beq_iff_eq⟩

/-! ## Only one order -/

/-- The first element of a sorted list has the least key of all. -/
theorem key_le_of_mem (h : (a :: sorted).Pairwise (key · ≤ key ·)) (hb : b ∈ a :: sorted) :
    key a ≤ key b := by
  rcases List.mem_cons.1 hb with rfl | hb
  · exact le_rfl
  · exact List.rel_of_pairwise_cons h hb

theorem mem_of_filter_eq (h : ∀ k, sorted.filter (key · == k) = others.filter (key · == k))
    (ha : a ∈ sorted) : a ∈ others := by
  have hmem : a ∈ others.filter (key · == key a) := h _ ▸ List.mem_filter.2 ⟨ha, by simp⟩
  exact (List.mem_filter.1 hmem).1

theorem eq_of_filter_eq (hsorted : sorted.Pairwise (key · ≤ key ·))
    (hothers : others.Pairwise (key · ≤ key ·))
    (h : ∀ k, sorted.filter (key · == k) = others.filter (key · == k)) : sorted = others := by
  induction sorted generalizing others with
  | nil =>
      refine (List.eq_nil_iff_forall_not_mem.2 fun a ha => ?_).symm
      exact List.not_mem_nil (mem_of_filter_eq (fun k => (h k).symm) ha)
  | cons a sorted ih =>
      have ha : a ∈ others := mem_of_filter_eq h List.mem_cons_self
      obtain ⟨b, rest, rfl⟩ := List.exists_cons_of_ne_nil (List.ne_nil_of_mem ha)
      -- both lists start with the first element of the least key
      have hle : key a ≤ key b := key_le_of_mem hsorted (mem_of_filter_eq (fun k => (h k).symm) List.mem_cons_self)
      have hkey : key b = key a := le_antisymm (key_le_of_mem hothers ha) hle
      have hab : a = b := by
        have hfirst := h (key a)
        rw [List.filter_cons_of_pos (by simp), List.filter_cons_of_pos (by simp [hkey])] at hfirst
        exact (List.cons.inj hfirst).1
      subst hab
      refine congrArg _ (ih hsorted.of_cons hothers.of_cons fun k => ?_)
      have hk := h k
      rw [List.filter_cons, List.filter_cons] at hk
      split at hk
      · exact (List.cons.inj hk).2
      · exact hk

theorem InOrder.unique (h : InOrder key xs sorted) (hothers : InOrder key xs others) : sorted = others :=
  eq_of_filter_eq h.pairwise hothers.pairwise fun k => (h.filter_eq k).trans (hothers.filter_eq k).symm

/-! ## Sorting at once -/

theorem inOrder_sortBy (key : α → κ) (xs : List α) : InOrder key xs (sortBy key xs) := by
  have htrans : ∀ a b c : α, decide (key a ≤ key b) = true → decide (key b ≤ key c) = true →
      decide (key a ≤ key c) = true := by
    simp only [decide_eq_true_eq]
    exact fun a b c => le_trans
  have htotal : ∀ a b : α, (decide (key a ≤ key b) || decide (key b ≤ key a)) = true := by
    simp only [Bool.or_eq_true, decide_eq_true_eq]
    exact fun a b => le_total _ _
  constructor
  case pairwise => exact (List.pairwise_mergeSort htrans htotal xs).imp fun h => of_decide_eq_true h
  case filter_eq =>
    intro k
    -- the elements of one key are in order already, so that they stay a part of the sorted list
    have hequal : (xs.filter (key · == k)).Pairwise fun a b => decide (key a ≤ key b) = true := by
      refine List.pairwise_of_forall_mem_list fun a ha b hb => ?_
      have ha : key a = k := by simpa using (List.mem_filter.1 ha).2
      have hb : key b = k := by simpa using (List.mem_filter.1 hb).2
      rw [ha, hb]
      exact decide_eq_true le_rfl
    have hpart := (List.sublist_mergeSort htrans htotal hequal List.filter_sublist).filter (key · == k)
    rw [List.filter_filter, List.filter_congr (q := (key · == k)) (by simp)] at hpart
    refine (hpart.eq_of_length ?_).symm
    exact ((List.mergeSort_perm xs _).filter _).length_eq.symm

theorem InOrder.eq_sortBy (h : InOrder key xs sorted) : sorted = sortBy key xs := h.unique (inOrder_sortBy key xs)

/-- What is left out of a list may be left out of the sorted one. -/
theorem InOrder.filter (h : InOrder key xs sorted) (p : α → Bool) :
    InOrder key (xs.filter p) (sorted.filter p) where
  pairwise := h.pairwise.filter p
  filter_eq k := by
    have hboth : ∀ ys : List α, (ys.filter p).filter (key · == k) = (ys.filter (key · == k)).filter p := by
      intro ys
      rw [List.filter_filter, List.filter_filter]
      exact List.filter_congr fun a _ => Bool.and_comm _ _
    rw [hboth, h.filter_eq, hboth]

end Interchange
