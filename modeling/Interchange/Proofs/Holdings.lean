import Mathlib.Data.List.Forall2
import Mathlib.Data.Prod.Lex
import Interchange.Proofs.Naming
import Interchange.Proofs.Priority

/-!
# What a registry holds

A registry takes in rules one by one and sorts on the way. However it was filled, what it gives out is what one
stable sort of all that was registered gives, and it holds each registered rule once
(`RuleRegistry.contents_of_history`).
-/

namespace Interchange

instance : DecidableRel Text.Agree := fun a b =>
  inferInstanceAs (Decidable (List.Forall₂ _ (Text.trimChars a.toList) (Text.trimChars b.toList)))

/-- Where a rule stands among those of its client: by table, and by priority in its table. -/
def Rule.standing (r : Rule) : String ×ₗ Int := toLex (tableKey r.table, r.priority)

namespace RuleRegistry

variable {r : Rule} {rules own : List Rule} {tables : List RuleTable} {client table name : String}
  {names : List String}

/-! ## The order of a client's rules -/

theorem mem_tableRules : r ∈ tableRules rules name ↔ r ∈ rules ∧ tableKey r.table = name := by
  rw [tableRules, byPriority, List.mem_mergeSort, List.mem_filter, beq_iff_eq]

/-- Within one table, rules stand by priority. -/
theorem pairwise_tableRules (rules : List Rule) (name : String) :
    (tableRules rules name).Pairwise (·.standing ≤ ·.standing) := by
  have hpriority : (tableRules rules name).Pairwise (·.priority ≤ ·.priority) :=
    (inPriority_byPriority _).pairwise
  refine hpriority.imp_of_mem fun {r s} hr hs hle => ?_
  have hkey : tableKey r.table = tableKey s.table :=
    (mem_tableRules.1 hr).2.trans (mem_tableRules.1 hs).2.symm
  exact Prod.Lex.toLex_le_toLex.2 (Or.inr ⟨hkey, hle⟩)

theorem standing_eq_iff {key : String} {priority : Int} :
    r.standing = toLex (key, priority) ↔ tableKey r.table = key ∧ r.priority = priority := by
  rw [Rule.standing, toLex_inj, Prod.mk.injEq]

/-- Of the rules for one table, those of one standing are the ones of that table and priority, as they were. -/
theorem filter_tableRules {p : Rule → Bool} {key : String} {priority : Int}
    (hp : ∀ r, p r = true ↔ tableKey r.table = key ∧ r.priority = priority) (rules : List Rule) (name : String) :
    (tableRules rules name).filter p = if name = key then rules.filter p else [] := by
  split
  · rename_i h
    subst h
    have hboth : p = fun r => r.priority == priority && tableKey r.table == name := by
      funext r
      rw [Bool.eq_iff_iff, hp, Bool.and_eq_true, beq_iff_eq, beq_iff_eq, and_comm]
    have hfilter : (tableRules rules name).filter (·.priority == priority) = rules.filter p := by
      rw [tableRules, (inPriority_byPriority _).filter_eq, List.filter_filter, hboth]
    rw [← hfilter]
    refine List.filter_congr fun r hr => ?_
    rw [Bool.eq_iff_iff, hp, beq_iff_eq]
    exact and_iff_right (mem_tableRules.1 hr).2
  · rename_i h
    refine List.filter_eq_nil_iff.2 fun r hr hkey => h ?_
    exact (mem_tableRules.1 hr).2.symm.trans ((hp r).1 hkey).1

theorem flatMap_single {α β : Type} [DecidableEq α] {xs : List α} {x : α} {ys : List β} (h : xs.Nodup) :
    (xs.flatMap fun y => if y = x then ys else []) = if x ∈ xs then ys else [] := by
  induction xs with
  | nil => rfl
  | cons y xs ih =>
      rw [List.nodup_cons] at h
      rw [List.flatMap_cons, ih h.2]
      by_cases hy : y = x
      · subst hy
        simp [h.1]
      · simp [hy, Ne.symm hy]

/-- Table by table, and by priority in each table, is the order of standing. -/
theorem inOrder_tables (rules : List Rule) :
    InOrder Rule.standing rules ((tableOrder (tableNames rules)).flatMap (tableRules rules)) := by
  have horder := pairwise_tableOrder (nodup_tableNames rules)
  refine .of_filter (List.pairwise_flatMap.2 ⟨fun name _ => pairwise_tableRules rules name, ?_⟩) fun k p hp => ?_
  · refine horder.imp fun {m n} hlt r hr s hs => ?_
    rw [← (mem_tableRules.1 hr).2, ← (mem_tableRules.1 hs).2] at hlt
    exact Prod.Lex.toLex_le_toLex.2 (Or.inl hlt)
  · obtain ⟨⟨key, priority⟩, rfl⟩ := toLex.surjective k
    have hparts : ∀ r, p r = true ↔ tableKey r.table = key ∧ r.priority = priority := fun r =>
      (hp r).trans standing_eq_iff
    rw [List.filter_flatMap, List.flatMap_congr fun name _ => filter_tableRules hparts rules name,
      flatMap_single (horder.imp ne_of_lt)]
    split
    · rfl
    · -- no rule is for a table that has no name among the tables
      rename_i hkey
      refine (List.filter_eq_nil_iff.2 fun r hr hpr => hkey ?_).symm
      exact mem_tableOrder.2 (List.mem_eraseDups.2 (List.mem_map.2 ⟨r, hr, ((hparts r).1 hpr).1⟩))

/-! ## Nothing is lost -/

theorem perm_insertByPriority (r : Rule) (rules : List Rule) : (insertByPriority r rules).Perm (r :: rules) := by
  induction rules with
  | nil => exact .refl _
  | cons s rest ih =>
      rw [insertByPriority]
      split
      · exact .refl _
      · exact (ih.cons s).trans (.swap r s rest)

theorem perm_insert (r : Rule) (tables : List RuleTable) :
    ((insert r tables).flatMap (·.rules)).Perm (r :: tables.flatMap (·.rules)) := by
  induction tables with
  | nil => exact .refl _
  | cons t rest ih =>
      rw [insert]
      split
      · exact (perm_insertByPriority r t.rules).append_right _
      · exact (ih.append_left t.rules).trans List.perm_middle

theorem perm_ofRules (rules : List Rule) : ((ofRules rules).tables.flatMap (·.rules)).Perm rules := by
  induction rules using List.reverseRecOn with
  | nil => exact .refl _
  | append_singleton rules r ih =>
      have hlast : (ofRules (rules ++ [r])).tables = insert r (ofRules rules).tables := by
        rw [ofRules, extend_append]
        rfl
      rw [hlast]
      exact (perm_insert r _).trans ((ih.cons r).trans (List.perm_append_singleton r rules).symm)

/-! ## Whole histories -/

/-- However a registry was filled: the active rules for a client and a table, in whatever spelling, are those
of the registered rules that are active and for them, sorted once by priority; all rules of a client are those
registered for it, sorted once by table and priority; and it holds each registered rule, once for each time
that it was registered. Sorting leaves rules that are equal in what they are sorted by as they were
registered. -/
theorem contents_of_history (fillings : List Filling) :
    (∀ client table, (filled fillings).active client table =
      sortBy (·.priority) ((registered fillings).filter fun r =>
        r.active ∧ r.client = client ∧ Text.Agree r.table table)) ∧
    (∀ client, (filled fillings).ofClient client =
      sortBy Rule.standing ((registered fillings).filter (·.client = client))) ∧
    ((filled fillings).tables.flatMap (·.rules)).Perm (registered fillings) ∧
    (filled fillings).size = (registered fillings).length := by
  rw [filled_eq]
  generalize registered fillings = rules
  refine ⟨fun client table => ?_, fun client => ?_, perm_ofRules rules, (perm_ofRules rules).length_eq⟩
  · rw [active_eq_held, held_ofRules_eq]
    have hactive : ∀ r : Rule, (r.active && r.isFor client table) =
        decide (r.active ∧ r.client = client ∧ Text.Agree r.table table) := by
      intro r
      rw [Bool.eq_iff_iff, decide_eq_true_iff, Bool.and_eq_true, Rule.isFor, Bool.and_eq_true, beq_iff_eq,
        beq_iff_eq]
      exact and_congr_right' (and_congr_right' Text.asciiUpper_trim_eq_iff)
    rw [((inPriority_byPriority _).inOrder.filter (·.active)).eq_sortBy, List.filter_filter]
    exact congrArg _ (List.filter_congr fun r _ => hactive r)
  · rw [ofClient_ofRules, (inOrder_tables _).eq_sortBy]
    rfl

end RuleRegistry

end Interchange
