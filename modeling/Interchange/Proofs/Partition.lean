import Mathlib.Data.List.Perm.Basic
import Interchange.Proofs.LineGroup

/-!
# Groups as a stable partition

Grouping loses no rule and doubles none, and keeps the order of rules within groups and of groups among
themselves, and there is no other way to do so (`LineGroup.ofRules_stable`).
-/

namespace Interchange.LineGroup

variable {rules front back : List Rule} {r s : Rule} {p : String} {groups : List LineGroup}

/-! ## The order of parents -/

/-- How many rules stand in front of the first one of a parent. -/
def firstOf (rules : List Rule) (p : String) : Nat := rules.findIdx (·.parent == p)

theorem firstOf_lt_length : firstOf rules p < rules.length ↔ p ∈ parents rules := by
  simp [firstOf, mem_parents]

theorem firstOf_concat : firstOf (rules ++ [r]) p =
    if p ∈ parents rules then firstOf rules p else [r].findIdx (·.parent == p) + rules.length := by
  rw [firstOf, List.findIdx_append]
  exact if_congr firstOf_lt_length rfl rfl

theorem pairwise_parents (rules : List Rule) :
    (parents rules).Pairwise fun p q => firstOf rules p < firstOf rules q := by
  induction rules using List.reverseRecOn with
  | nil => exact List.Pairwise.nil
  | append_singleton rules r ih =>
      have hold : (parents rules).Pairwise fun p q => firstOf (rules ++ [r]) p < firstOf (rules ++ [r]) q :=
        ih.imp_of_mem fun hp hq h => by rwa [firstOf_concat, firstOf_concat, if_pos hp, if_pos hq]
      rw [parents_concat]
      split
      · exact hold
      · -- a new parent first comes up behind all rules so far
        rename_i hnew
        refine List.pairwise_append.2 ⟨hold, List.pairwise_singleton _ _, fun p hp q hq => ?_⟩
        rw [List.mem_singleton.1 hq, firstOf_concat, firstOf_concat, if_pos hp, if_neg hnew]
        exact Nat.lt_add_left _ (firstOf_lt_length.2 hp)

/-! ## Members -/

/-- Putting a member into its group adds this member, and no other. -/
theorem perm_insert {m : Rule × String} :
    ((insert p m groups).flatMap (·.members)).Perm (groups.flatMap (·.members) ++ [m]) := by
  induction groups with
  | nil => exact .refl _
  | cons g rest ih =>
      rw [insert]
      split
      · simp only [List.flatMap_cons, List.append_assoc]
        exact .append_left _ List.perm_append_comm
      · simpa only [List.flatMap_cons, List.append_assoc] using ih.append_left _

theorem perm_ofRules (rules : List Rule) :
    ((ofRules rules).flatMap (·.members)).Perm (rules.map fun r => (r, r.lastStep)) := by
  induction rules using List.reverseRecOn with
  | nil => exact .refl _
  | append_singleton rules r ih =>
      rw [ofRules_concat, List.map_append]
      exact perm_insert.trans (ih.append_right _)

/-! ## Stable partitions -/

/-- Groups part rules and keep their order. -/
structure Parts (rules : List Rule) (groups : List LineGroup) : Prop where
  /-- No two groups have the same parent. -/
  parents_nodup : (groups.map (·.parent)).Nodup
  /-- Groups come in the order of their first rules. -/
  ordered : groups.Pairwise fun g h => firstOf rules g.parent < firstOf rules h.parent
  /-- All rules are in groups, as often as they are given, each with its last step. -/
  perm : (groups.flatMap (·.members)).Perm (rules.map fun r => (r, r.lastStep))
  /-- A group has the rules of its parent, in their order. -/
  members_eq : ∀ g ∈ groups, g.members = membersOf rules g.parent
  members_ne_nil : ∀ g ∈ groups, g.members ≠ []

theorem parts_ofRules (rules : List Rule) : Parts rules (ofRules rules) where
  parents_nodup := by
    rw [ofRules_eq, List.map_map]
    simpa [Function.comp_def] using nodup_parents rules
  ordered := by
    rw [ofRules_eq, List.pairwise_map]
    exact pairwise_parents rules
  perm := perm_ofRules rules
  members_eq g hg := by
    rw [ofRules_eq] at hg
    obtain ⟨p, _, rfl⟩ := List.mem_map.1 hg
    rfl
  members_ne_nil g hg := by
    rw [ofRules_eq] at hg
    obtain ⟨p, hp, rfl⟩ := List.mem_map.1 hg
    obtain ⟨r, hr, rfl⟩ := mem_parents.1 hp
    exact List.ne_nil_of_mem (mem_membersOf.2 ⟨hr, rfl, rfl⟩)

namespace Parts

theorem mem_parents_iff (h : Parts rules groups) : p ∈ groups.map (·.parent) ↔ p ∈ parents rules := by
  rw [mem_parents, List.mem_map]
  constructor
  · rintro ⟨g, hg, rfl⟩
    obtain ⟨⟨r, path⟩, hm⟩ := List.exists_mem_of_ne_nil _ (h.members_ne_nil g hg)
    rw [h.members_eq g hg, mem_membersOf] at hm
    exact ⟨r, hm.1, hm.2.1⟩
  · rintro ⟨r, hr, rfl⟩
    have hmem : (r, r.lastStep) ∈ groups.flatMap (·.members) :=
      h.perm.mem_iff.2 (List.mem_map.2 ⟨r, hr, rfl⟩)
    obtain ⟨g, hg, hm⟩ := List.mem_flatMap.1 hmem
    rw [h.members_eq g hg, mem_membersOf] at hm
    exact ⟨g, hg, hm.2.1.symm⟩

/-- Both lists of parents are sorted by their first rules. -/
theorem map_parent (h : Parts rules groups) : groups.map (·.parent) = parents rules := by
  have hperm := (List.perm_ext_iff_of_nodup h.parents_nodup (nodup_parents rules)).2 fun p => h.mem_parents_iff
  exact hperm.eq_of_pairwise (fun _ _ _ _ hab hba => absurd hba (Nat.lt_asymm hab))
    (List.pairwise_map.2 h.ordered) (pairwise_parents rules)

theorem eq_ofRules (h : Parts rules groups) : groups = ofRules rules := by
  rw [ofRules_eq, ← h.map_parent, List.map_map]
  refine (List.map_id groups).symm.trans (List.map_congr_left fun g hg => ?_)
  exact congrArg (LineGroup.mk g.parent) (h.members_eq g hg)

end Parts

/-! ## Exchanging rules -/

theorem parents_append_of_mem (h : ∀ x ∈ rules, x.parent ∈ parents front) :
    parents (front ++ rules) = parents front := by
  induction rules using List.reverseRecOn with
  | nil => rw [List.append_nil]
  | append_singleton rules x ih =>
      obtain ⟨hrules, hx⟩ := List.forall_mem_append.1 h
      rw [← List.append_assoc, parents_concat, ih hrules, if_pos (hx x (List.mem_singleton_self x))]

theorem membersOf_append : membersOf (front ++ rules) p = membersOf front p ++ membersOf rules p := by
  simp [membersOf]

theorem membersOf_exchange (h : r.parent ≠ s.parent) : membersOf [r, s] p = membersOf [s, r] p := by
  by_cases hr : r.parent = p
  · subst hr
    simp [membersOf, Ne.symm h]
  · by_cases hs : s.parent = p <;> simp [membersOf, hr, hs]

theorem ofRules_exchange (hne : r.parent ≠ s.parent) (hr : r.parent ∈ parents front)
    (hs : s.parent ∈ parents front) :
    ofRules (front ++ s :: r :: back) = ofRules (front ++ r :: s :: back) := by
  -- what is behind the two brings parents up in the same order
  have hparents : parents (front ++ [s, r]) = parents (front ++ [r, s]) := by
    rw [parents_append_of_mem (by simp [hr, hs]), parents_append_of_mem (by simp [hr, hs])]
  have hall : parents (front ++ [s, r] ++ back) = parents (front ++ [r, s] ++ back) := by
    induction back using List.reverseRecOn with
    | nil => simpa using hparents
    | append_singleton back x ih =>
        rw [← List.append_assoc, ← List.append_assoc, parents_concat, parents_concat, ih]
  have hmembers : ∀ p, membersOf (front ++ [s, r] ++ back) p = membersOf (front ++ [r, s] ++ back) p := by
    intro p
    simp only [membersOf_append, membersOf_exchange hne]
  have hsplit : ∀ x y, front ++ x :: y :: back = front ++ [x, y] ++ back := by simp
  rw [hsplit, hsplit, ofRules_eq, ofRules_eq, hall]
  simp only [hmembers]

/-- The groups of rules part them by the parents of their paths: the parents are different and come in the order of
their first rules, each rule is once in the group of its parent, with the last step of its path, and the rules of a
group keep their order. No other groups do so. Two rules that follow one another, in different groups and neither of
them the first of its group, can be exchanged. -/
theorem ofRules_stable (rules : List Rule) :
    Parts rules (ofRules rules) ∧ (∀ groups, Parts rules groups → groups = ofRules rules) ∧
    ∀ front r s back, rules = front ++ r :: s :: back → r.parent ≠ s.parent →
      (∃ q ∈ front, q.parent = r.parent) → (∃ q ∈ front, q.parent = s.parent) →
        ofRules (front ++ s :: r :: back) = ofRules rules := by
  refine ⟨parts_ofRules rules, fun groups h => h.eq_ofRules, fun front r s back hrules hne hr hs => ?_⟩
  rw [hrules]
  exact ofRules_exchange hne (mem_parents.2 hr) (mem_parents.2 hs)

theorem ofRules_stable_notice :
    let qty : Rule := .new "ASN_LINES" "/ASN/Line/Qty" "quantity"
    let sku : Rule := .new "ASN_LINES" " /ASN/Carton/Sku" "item_name"
    let unit : Rule := .new "ASN_LINES" "/ASN/Line/Unit " "unit"
    let carton : Rule := .new "ASN_LINES" "/ASN/Carton/No" "carton"
    unit.parent ≠ carton.parent ∧ qty.parent = unit.parent ∧ sku.parent = carton.parent ∧
      ofRules [qty, sku, carton, unit] = ofRules [qty, sku, unit, carton] ∧
      ofRules [qty, sku, unit, carton] =
        [⟨"/ASN/Line", [(qty, "Qty"), (unit, "Unit")]⟩, ⟨"/ASN/Carton", [(sku, "Sku"), (carton, "No")]⟩] := by
  intro qty sku unit carton
  have hne : unit.parent ≠ carton.parent := by decide
  have hqty : qty.parent = unit.parent := by decide +kernel
  have hsku : sku.parent = carton.parent := by decide +kernel
  exact ⟨hne, hqty, hsku, (ofRules_stable [qty, sku, unit, carton]).2.2 [qty, sku] unit carton [] rfl hne
    ⟨qty, by simp, hqty⟩ ⟨sku, by simp, hsku⟩, by decide +kernel⟩

end Interchange.LineGroup
