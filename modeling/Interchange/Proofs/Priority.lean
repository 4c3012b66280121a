import Mathlib.Data.Int.Order.Basic
import Mathlib.Data.String.Basic
import Interchange.Proofs.LineGroup
import Interchange.Proofs.Registration
import Interchange.Proofs.Sorting

/-!
# Rules in order of priority

There is one way to put rules in order of priority and leave those of one priority as they are
(`InPriority.unique`). So rules that are put in one by one, each behind those of its priority, come out as if
they were sorted once (`held_ofRules_eq`), and so do the tables of each client (`tables_ofRules`).
-/

namespace Interchange

/-- Rules from the lowest priority number to the highest, those of one number as they are. -/
def byPriority (rules : List Rule) : List Rule := rules.mergeSort fun a b => a.priority ≤ b.priority

@[simp] theorem byPriority_nil : byPriority [] = [] := by simp [byPriority]

/-- The rules of a list in order of priority, those of one priority in the order of the list. -/
structure InPriority (rules sorted : List Rule) : Prop where
  pairwise : sorted.Pairwise (·.priority ≤ ·.priority)
  filter_eq : ∀ p, sorted.filter (·.priority == p) = rules.filter (·.priority == p)

variable {rules sorted others : List Rule} {r s : Rule} {p : Int}

/-! ## Only one order -/

theorem InPriority.inOrder (h : InPriority rules sorted) : InOrder (·.priority) rules sorted :=
  ⟨h.pairwise, h.filter_eq⟩

theorem InPriority.unique (h : InPriority rules sorted) (hothers : InPriority rules others) :
    sorted = others := h.inOrder.unique hothers.inOrder

/-! ## Sorting at once and one by one -/

theorem inPriority_byPriority (rules : List Rule) : InPriority rules (byPriority rules) where
  pairwise := (inOrder_sortBy (·.priority) rules).pairwise
  filter_eq := (inOrder_sortBy (·.priority) rules).filter_eq

theorem mem_insertByPriority : s ∈ insertByPriority r sorted ↔ s = r ∨ s ∈ sorted := by
  induction sorted with
  | nil => simp [insertByPriority]
  | cons t rest ih =>
      rw [insertByPriority]
      split
      · simp
      · rw [List.mem_cons, ih, List.mem_cons]
        exact or_left_comm

theorem pairwise_insertByPriority (h : sorted.Pairwise (·.priority ≤ ·.priority)) :
    (insertByPriority r sorted).Pairwise (·.priority ≤ ·.priority) := by
  induction sorted with
  | nil => exact List.pairwise_singleton _ _
  | cons t rest ih =>
      rw [insertByPriority]
      split
      · rename_i hlt
        refine List.pairwise_cons.2 ⟨fun s hs => ?_, h⟩
        exact Int.le_trans (Int.le_of_lt hlt) (key_le_of_mem h hs)
      · rename_i hge
        refine List.pairwise_cons.2 ⟨fun s hs => ?_, ih h.of_cons⟩
        rcases mem_insertByPriority.1 hs with rfl | hs
        · exact Int.not_lt.1 hge
        · exact List.rel_of_pairwise_cons h hs

theorem filter_insertByPriority (h : sorted.Pairwise (·.priority ≤ ·.priority)) (p : Int) :
    (insertByPriority r sorted).filter (·.priority == p) =
      (sorted ++ [r]).filter (·.priority == p) := by
  induction sorted with
  | nil => rfl
  | cons t rest ih =>
      rw [insertByPriority]
      split
      · rename_i hlt
        rw [List.filter_append]
        by_cases hp : r.priority = p
        · -- all rules of the list come behind this priority
          have hnone : (t :: rest).filter (·.priority == p) = [] := by
            refine List.filter_eq_nil_iff.2 fun s hs => ?_
            have hle := key_le_of_mem h hs
            simp only [beq_iff_eq]
            omega
          rw [List.filter_cons_of_pos (by simpa using hp), hnone, List.nil_append,
            List.filter_cons_of_pos (by simpa using hp), List.filter_nil]
        · rw [List.filter_cons_of_neg (by simpa using hp), List.filter_cons_of_neg (a := r) (by simpa using hp),
            List.filter_nil, List.append_nil]
      · rw [List.filter_cons, ih h.of_cons, List.cons_append, List.filter_cons]

theorem InPriority.insert (h : InPriority rules sorted) (r : Rule) :
    InPriority (rules ++ [r]) (insertByPriority r sorted) where
  pairwise := pairwise_insertByPriority h.pairwise
  filter_eq p := by
    rw [filter_insertByPriority h.pairwise, List.filter_append, List.filter_append, h.filter_eq]

theorem insertByPriority_byPriority (rules : List Rule) (r : Rule) :
    insertByPriority r (byPriority rules) = byPriority (rules ++ [r]) :=
  ((inPriority_byPriority rules).insert r).unique (inPriority_byPriority _)

namespace RuleRegistry

variable {client table : String} {tables : List RuleTable}

theorem foldl_insertByPriority (rules : List Rule) :
    rules.foldl (fun held r => insertByPriority r held) [] = byPriority rules := by
  induction rules using List.reverseRecOn with
  | nil => simp
  | append_singleton rules r ih =>
      rw [List.foldl_append, ih, List.foldl_cons, List.foldl_nil, insertByPriority_byPriority]

/-- What a registry holds for a client and a table is the rules for them, sorted once. -/
theorem held_ofRules_eq (rules : List Rule) (client table : String) :
    (ofRules rules).held client table = byPriority (rules.filter (·.isFor client table)) := by
  rw [held_ofRules, foldl_insertByPriority]

/-! ## The tables of a client -/

/-- The names of the tables that rules are for, in the order in which they first come up. -/
def tableNames (rules : List Rule) : List String := (rules.map fun r => tableKey r.table).eraseDups

/-- The rules for a table, sorted. -/
def tableRules (rules : List Rule) (name : String) : List Rule :=
  byPriority (rules.filter fun r => tableKey r.table == name)

theorem nodup_tableNames (rules : List Rule) : (tableNames rules).Nodup := nodup_eraseDups _

theorem tableNames_concat : tableNames (rules ++ [r]) =
    if tableKey r.table ∈ tableNames rules then tableNames rules
    else tableNames rules ++ [tableKey r.table] := by
  have hmem : tableKey r.table ∈ tableNames rules ↔ tableKey r.table ∈ rules.map fun r => tableKey r.table :=
    List.mem_eraseDups
  rw [tableNames, List.map_append, List.map_singleton, eraseDups_concat]
  exact if_congr hmem.symm rfl rfl

theorem tableRules_concat {name : String} : tableRules (rules ++ [r]) name =
    if name = tableKey r.table then insertByPriority r (tableRules rules name) else tableRules rules name := by
  rw [tableRules, List.filter_append]
  split
  · rename_i h
    rw [List.filter_cons_of_pos (by simp [h]), List.filter_nil, ← insertByPriority_byPriority]
    rfl
  · rename_i h
    rw [List.filter_cons_of_neg (by simpa using Ne.symm h), List.filter_nil, List.append_nil]
    rfl

theorem tableRules_eq_nil {name : String} (h : name ∉ tableNames rules) : tableRules rules name = [] := by
  have hnone : (rules.filter fun r => tableKey r.table == name) = [] := by
    refine List.filter_eq_nil_iff.2 fun r hr hname => h (List.mem_eraseDups.2 ?_)
    exact List.mem_map.2 ⟨r, hr, by simpa using hname⟩
  rw [tableRules, hnone, byPriority_nil]

/-- A rule goes to the tables of its client. -/
theorem filter_insert : (insert r tables).filter (·.client == client) =
    if r.client = client then insert r (tables.filter (·.client == client))
    else tables.filter (·.client == client) := by
  induction tables with
  | nil => by_cases h : r.client = client <;> simp [insert, h]
  | cons t rest ih =>
      rw [insert]
      by_cases ht : t.client = client
      · by_cases hkey : t.client = r.client ∧ t.table = tableKey r.table
        · rw [if_pos hkey, List.filter_cons_of_pos (by simpa using ht), if_pos (hkey.1 ▸ ht),
            List.filter_cons_of_pos (by simpa using ht), insert, if_pos hkey]
        · rw [if_neg hkey, List.filter_cons_of_pos (by simpa using ht), ih,
            List.filter_cons_of_pos (by simpa using ht), insert, if_neg hkey]
          split <;> rfl
      · rw [List.filter_cons_of_neg (a := t) (by simpa using ht)]
        by_cases hkey : t.client = r.client ∧ t.table = tableKey r.table
        · rw [if_pos hkey, List.filter_cons_of_neg (by simpa using ht), if_neg fun h => ht (hkey.1.trans h)]
        · rw [if_neg hkey, List.filter_cons_of_neg (by simpa using ht), ih]

/-- Putting a rule in, when every table of its client is what `held` says of its name. -/
theorem insert_map {held : String → List Rule} {names : List String} (hnames : names.Nodup) :
    insert r (names.map fun n => ⟨r.client, n, held n⟩) =
      if tableKey r.table ∈ names then
        names.map fun n => ⟨r.client, n, if n = tableKey r.table then insertByPriority r (held n) else held n⟩
      else names.map (fun n => ⟨r.client, n, held n⟩) ++ [⟨r.client, tableKey r.table, [r]⟩] := by
  induction names with
  | nil => rfl
  | cons n rest ih =>
      rw [List.nodup_cons] at hnames
      rw [List.map_cons, insert]
      by_cases h : n = tableKey r.table
      · -- the table is here, and no later table has its name
        have hrest : ∀ m ∈ rest, m ≠ tableKey r.table := fun m hm e => hnames.1 (h.trans e.symm ▸ hm)
        rw [if_pos ⟨rfl, h⟩, if_pos (by simp [h]), List.map_cons, if_pos h]
        refine congrArg _ (List.map_congr_left fun m hm => ?_)
        rw [if_neg (hrest m hm)]
      · rw [if_neg fun hkey => h hkey.2, ih hnames.2]
        by_cases hmem : tableKey r.table ∈ rest
        · simp [hmem, h]
        · simp [hmem, Ne.symm h]

/-- The tables of a client: one for each name that its rules are for, with the rules for it, sorted. -/
theorem tables_ofRules (rules : List Rule) (client : String) :
    (ofRules rules).tables.filter (·.client == client) =
      (tableNames (rules.filter (·.client == client))).map fun n =>
        ⟨client, n, tableRules (rules.filter (·.client == client)) n⟩ := by
  induction rules using List.reverseRecOn with
  | nil => rfl
  | append_singleton rules r ih =>
      have hlast : (ofRules (rules ++ [r])).tables = insert r (ofRules rules).tables := by
        rw [ofRules, extend_append]
        rfl
      rw [hlast, filter_insert, ih, List.filter_append]
      split
      · rename_i h
        subst h
        rw [List.filter_cons_of_pos (by simp), List.filter_nil, insert_map (nodup_tableNames _), tableNames_concat]
        generalize rules.filter (·.client == r.client) = own
        by_cases hmem : tableKey r.table ∈ tableNames own
        · simp only [if_pos hmem, tableRules_concat]
        · have hold : ∀ n ∈ tableNames own, n ≠ tableKey r.table := fun n hn e => hmem (e ▸ hn)
          rw [if_neg hmem, if_neg hmem, List.map_append, List.map_singleton, tableRules_concat, if_pos rfl,
            tableRules_eq_nil hmem]
          refine congrArg (· ++ _) (List.map_congr_left fun n hn => ?_)
          rw [tableRules_concat, if_neg (hold n hn)]
      · rename_i h
        rw [List.filter_cons_of_neg (by simpa using h), List.filter_nil, List.append_nil]

/-! ## All rules of a client -/

/-- The names of tables, each behind those that are less. -/
def tableOrder (names : List String) : List String := sortBy id names

theorem mem_tableOrder {names : List String} {name : String} : name ∈ tableOrder names ↔ name ∈ names :=
  List.mem_mergeSort

theorem tableOrder_eq (names : List String) : tableOrder names = names.mergeSort fun a b => !(b < a) := by
  have hle : (fun a b : String => decide (id a ≤ id b)) = fun a b => !decide (b < a) := by
    funext a b
    rw [Bool.eq_iff_iff, Bool.not_eq_true', decide_eq_true_iff, decide_eq_false_iff_not, not_lt]
    rfl
  rw [tableOrder, sortBy, hle]

theorem pairwise_tableOrder {names : List String} (h : names.Nodup) : (tableOrder names).Pairwise (· < ·) := by
  have hnodup : (tableOrder names).Nodup := ((List.mergeSort_perm names _).nodup_iff).2 h
  exact ((inOrder_sortBy id names).pairwise.and hnodup).imp fun h => lt_of_le_of_ne h.1 h.2

/-- The rules of a client are those for each of its tables, table by table. -/
theorem ofClient_ofRules (rules : List Rule) (client : String) :
    (ofRules rules).ofClient client =
      (tableOrder (tableNames (rules.filter (·.client == client)))).flatMap
        (tableRules (rules.filter (·.client == client))) := by
  generalize hown : rules.filter (·.client == client) = own
  have hsort : ((tableNames own).map fun n => RuleTable.mk client n (tableRules own n)).mergeSort
      (fun a b => !(b.table < a.table)) =
        (tableOrder (tableNames own)).map fun n => RuleTable.mk client n (tableRules own n) := by
    rw [tableOrder_eq]
    exact (List.map_mergeSort (f := fun n => RuleTable.mk client n (tableRules own n)) fun _ _ _ _ => rfl).symm
  rw [ofClient, tables_ofRules, hown, hsort, List.flatMap_map]

end RuleRegistry

end Interchange
