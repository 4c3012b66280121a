import Mathlib.Data.List.Forall2

/-!
# Computations that may fail

What the result of a computation that may fail says of the results it was made of.
-/

namespace Interchange

variable {α β γ δ ε : Type} {f : α → Except ε β} {xs : List α} {ys : List β}

/-! ## One computation behind another -/

theorem bind_eq_ok {x : Except ε α} {y : β} : (x >>= f) = .ok y ↔ ∃ a, x = .ok a ∧ f a = .ok y := by
  cases x with
  | error e => simp [bind, Except.bind]
  | ok a => simp [bind, Except.bind]

theorem mapError_eq_ok {g : ε → δ} {x : Except ε α} {a : α} : x.mapError g = .ok a ↔ x = .ok a := by
  cases x <;> simp [Except.mapError]

theorem map_eq_ok {g : α → β} {x : Except ε α} {y : β} (h : x.map g = .ok y) : ∃ a, x = .ok a ∧ y = g a := by
  cases x with
  | error e => cases h
  | ok a =>
      cases h
      exact ⟨a, rfl, rfl⟩

theorem map_ne_error {g : α → β} {x : Except ε α} {e : ε} (h : x ≠ .error e) : x.map g ≠ .error e := by
  cases x with
  | error other => exact fun heq => h (by cases heq; rfl)
  | ok a => simp [Except.map]

/-! ## Traversals -/

theorem forall₂_of_mapM (h : xs.mapM f = .ok ys) : List.Forall₂ (fun x y => f x = .ok y) xs ys := by
  induction xs generalizing ys with
  | nil =>
      cases h
      exact .nil
  | cons x rest ih =>
      rw [List.mapM_cons] at h
      obtain ⟨y, hx, h⟩ := bind_eq_ok.1 h
      obtain ⟨more, hrest, h⟩ := bind_eq_ok.1 h
      cases h
      exact .cons hx (ih hrest)

theorem exists_of_forall₂ {R : α → β → Prop} {y : β} (h : List.Forall₂ R xs ys) (hy : y ∈ ys) :
    ∃ x ∈ xs, R x y := by
  induction h with
  | nil => cases hy
  | cons hx _ ih =>
      rcases List.mem_cons.1 hy with rfl | hy
      · exact ⟨_, List.mem_cons_self, hx⟩
      · obtain ⟨x, hx, hxy⟩ := ih hy
        exact ⟨x, List.mem_cons_of_mem _ hx, hxy⟩

theorem exists_of_mapM {y : β} (h : xs.mapM f = .ok ys) (hy : y ∈ ys) : ∃ x ∈ xs, f x = .ok y :=
  exists_of_forall₂ (R := fun x y => f x = .ok y) (forall₂_of_mapM h) hy

theorem ok_of_mapM {x : α} (h : xs.mapM f = .ok ys) (hx : x ∈ xs) : ∃ y, f x = .ok y := by
  have hflip : List.Forall₂ (fun y x => f x = .ok y) ys xs := (forall₂_of_mapM h).flip
  obtain ⟨y, _, hy⟩ := exists_of_forall₂ (R := fun y x => f x = .ok y) hflip hx
  exact ⟨y, hy⟩

theorem mapM_total (h : ∀ x ∈ xs, ∃ y, f x = .ok y) : ∃ ys, xs.mapM f = .ok ys := by
  induction xs with
  | nil => exact ⟨[], rfl⟩
  | cons x rest ih =>
      obtain ⟨y, hy⟩ := h x (by simp)
      obtain ⟨ys, hys⟩ := ih fun z hz => h z (List.mem_cons_of_mem _ hz)
      exact ⟨y :: ys, by rw [List.mapM_cons, hy, hys]; rfl⟩

/-- A traversal keeps what its function keeps. -/
theorem map_of_mapM {g : α → γ} {k : β → γ} (h : xs.mapM f = .ok ys) (hf : ∀ x y, f x = .ok y → g x = k y) :
    xs.map g = ys.map k := by
  have hall := forall₂_of_mapM h
  clear h
  induction hall with
  | nil => rfl
  | cons hx _ ih => rw [List.map_cons, List.map_cons, hf _ _ hx, ih]

end Interchange
