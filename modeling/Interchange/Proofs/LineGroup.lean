import Mathlib.Data.List.Induction
import Interchange.LineGroup

/-!
# Groups as classes of rules

Grouping parts rules by the parents of their paths (`LineGroup.ofRules_eq`): each parent has one group, the
groups come in the order in which their parents first come up, and a group holds the rules of its parent in
their order.
-/

namespace Interchange

/-! ## Each value once -/

section

variable {α : Type} [BEq α] [LawfulBEq α]

theorem nodup_eraseDups (xs : List α) : xs.eraseDups.Nodup := by
  match xs with
  | [] => simp
  | x :: rest =>
      rw [List.eraseDups_cons, List.nodup_cons]
      refine ⟨by simp, nodup_eraseDups (rest.filter fun y => !y == x)⟩
termination_by xs.length
decreasing_by exact Nat.lt_succ_of_le (List.length_filter_le _ _)

theorem eraseDups_concat (xs : List α) (x : α) : (xs ++ [x]).eraseDups =
    if x ∈ xs then xs.eraseDups else xs.eraseDups ++ [x] := by
  rw [List.eraseDups_append]
  split
  · rename_i h
    have hnone : [x].removeAll xs = [] := by
      rw [List.cons_removeAll, if_neg (by simpa using h)]
      rfl
    rw [hnone, List.eraseDups_nil, List.append_nil]
  · rename_i h
    have hself : [x].removeAll xs = [x] := by
      rw [List.cons_removeAll, if_pos (by simpa using h)]
      rfl
    rw [hself]
    rfl

end

/-- The path that selects the nodes a rule is read from. -/
def Rule.parent (r : Rule) : String := (Path.splitLast (Text.trim r.path)).1

/-- The last step of a rule's path, which is read from each of these nodes. -/
def Rule.lastStep (r : Rule) : String := (Path.splitLast (Text.trim r.path)).2

namespace LineGroup

variable {rules : List Rule} {r : Rule} {p : String}

/-- The parents of rules, each once, in the order in which they first come up. -/
def parents (rules : List Rule) : List String := (rules.map (·.parent)).eraseDups

/-- The rules of a parent, each with its last step. -/
def membersOf (rules : List Rule) (p : String) : List (Rule × String) :=
  (rules.filter (·.parent == p)).map fun r => (r, r.lastStep)

/-! ## Parents -/

theorem nodup_parents (rules : List Rule) : (parents rules).Nodup := nodup_eraseDups _

theorem mem_parents : p ∈ parents rules ↔ ∃ r ∈ rules, r.parent = p := by
  simp [parents]

theorem parents_concat : parents (rules ++ [r]) =
    if r.parent ∈ parents rules then parents rules else parents rules ++ [r.parent] := by
  have hmem : r.parent ∈ parents rules ↔ r.parent ∈ rules.map (·.parent) := List.mem_eraseDups
  rw [parents, List.map_append, List.map_singleton, eraseDups_concat]
  exact if_congr hmem.symm rfl rfl

/-! ## Members -/

theorem mem_membersOf {path : String} : (r, path) ∈ membersOf rules p ↔
    r ∈ rules ∧ r.parent = p ∧ path = r.lastStep := by
  simp only [membersOf, List.mem_map, List.mem_filter, beq_iff_eq, Prod.mk.injEq]
  constructor
  · rintro ⟨_, ⟨hr, hparent⟩, rfl, hpath⟩
    exact ⟨hr, hparent, hpath.symm⟩
  · rintro ⟨hr, hparent, hpath⟩
    exact ⟨r, ⟨hr, hparent⟩, rfl, hpath.symm⟩

theorem membersOf_concat : membersOf (rules ++ [r]) p =
    if p = r.parent then membersOf rules p ++ [(r, r.lastStep)] else membersOf rules p := by
  by_cases h : p = r.parent
  · simp [membersOf, List.filter_append, h]
  · simp [membersOf, List.filter_append, h, Ne.symm h]

theorem membersOf_eq_nil (h : p ∉ parents rules) : membersOf rules p = [] := by
  rw [membersOf, List.map_eq_nil_iff, List.filter_eq_nil_iff]
  intro r hr hp
  exact h (mem_parents.2 ⟨r, hr, by simpa using hp⟩)

/-! ## Groups -/

/-- Putting a member in, when every group is what `members` says of its parent. -/
theorem insert_map {members : String → List (Rule × String)} {m : Rule × String} {ps : List String}
    (hps : ps.Nodup) :
    insert p m (ps.map fun q => ⟨q, members q⟩) =
      if p ∈ ps then ps.map fun q => ⟨q, if q = p then members q ++ [m] else members q⟩
      else ps.map (fun q => ⟨q, members q⟩) ++ [⟨p, [m]⟩] := by
  induction ps with
  | nil => rfl
  | cons q rest ih =>
      rw [List.nodup_cons] at hps
      rw [List.map_cons, insert]
      by_cases h : q = p
      · -- the group is here, and no later group has its parent
        have hrest : ∀ s ∈ rest, s ≠ p := fun s hs e => hps.1 (h.trans e.symm ▸ hs)
        rw [if_pos h, if_pos (by simp [h]), List.map_cons, if_pos h]
        refine congrArg _ (List.map_congr_left fun s hs => ?_)
        rw [if_neg (hrest s hs)]
      · rw [if_neg h, ih hps.2]
        by_cases hp : p ∈ rest
        · simp [hp, h]
        · simp [hp, Ne.symm h]

theorem ofRules_concat : ofRules (rules ++ [r]) =
    insert r.parent (r, r.lastStep) (ofRules rules) := by
  simp [ofRules, List.foldl_append, add, Rule.parent, Rule.lastStep]

theorem ofRules_eq (rules : List Rule) :
    ofRules rules = (parents rules).map fun p => ⟨p, membersOf rules p⟩ := by
  induction rules using List.reverseRecOn with
  | nil => rfl
  | append_singleton rules r ih =>
      rw [ofRules_concat, ih, insert_map (nodup_parents rules), parents_concat]
      by_cases h : r.parent ∈ parents rules
      · simp only [if_pos h, membersOf_concat]
      · have hold : ∀ q ∈ parents rules, q ≠ r.parent := fun q hq e => h (e ▸ hq)
        rw [if_neg h, if_neg h, List.map_append, List.map_singleton, membersOf_concat, if_pos rfl,
          membersOf_eq_nil h, List.nil_append]
        refine congrArg (· ++ _) (List.map_congr_left fun q hq => ?_)
        rw [membersOf_concat, if_neg (hold q hq)]

end LineGroup

end Interchange
