import Mathlib.Data.List.Induction
import Interchange.RuleFile

/-!
# How a registry is filled

Rules are registered one by one or in lists, or a registry is loaded from files. However that was done, the
registry is that of the rules registered since it was last loaded, in order (`RuleRegistry.filled_eq`), and
what it holds for a client and a table comes from the rules of that client for that table alone
(`RuleRegistry.held_ofRules`).
-/

namespace Interchange

/-- The table is the one of a client for a name. -/
def RuleTable.isFor (client table : String) (t : RuleTable) : Bool :=
  t.client == client && t.table == tableKey table

/-- The rule is one of a client for a table. -/
def Rule.isFor (client table : String) (r : Rule) : Bool :=
  r.client == client && tableKey r.table == tableKey table

namespace RuleRegistry

open Files (Access Location)

/-! ## The rules for a client and a table -/

/-- The rules that tables hold for a client and a name, active or not. -/
def heldIn (tables : List RuleTable) (client table : String) : List Rule :=
  ((tables.find? (·.isFor client table)).map (·.rules)).getD []

def held (g : RuleRegistry) (client table : String) : List Rule := heldIn g.tables client table

variable {g : RuleRegistry} {r : Rule} {t : RuleTable} {rules : List Rule} {tables : List RuleTable}
  {client table : String}

theorem active_eq_held : g.active client table = (g.held client table).filter (·.active) := by
  unfold active held heldIn
  have hfind : (g.tables.find? fun t => t.client == client && t.table == tableKey table) =
      g.tables.find? (·.isFor client table) := rfl
  rw [hfind]
  cases g.tables.find? (·.isFor client table) <;> rfl

theorem heldIn_cons_of_isFor (h : t.isFor client table) : heldIn (t :: tables) client table = t.rules := by
  simp [heldIn, h]

theorem heldIn_cons_of_not_isFor (h : ¬ t.isFor client table) :
    heldIn (t :: tables) client table = heldIn tables client table := by
  simp [heldIn, h]

/-- A table under the key of a rule is for a client and a name if and only if the rule is. -/
theorem isFor_iff_of_key (h : t.client = r.client ∧ t.table = tableKey r.table) :
    t.isFor client table ↔ r.isFor client table := by
  rw [RuleTable.isFor, Rule.isFor, h.1, h.2]

theorem key_of_isFor (ht : t.isFor client table) (hr : r.isFor client table) :
    t.client = r.client ∧ t.table = tableKey r.table := by
  simp only [RuleTable.isFor, Rule.isFor, Bool.and_eq_true, beq_iff_eq] at ht hr
  exact ⟨ht.1.trans hr.1.symm, ht.2.trans hr.2.symm⟩

theorem heldIn_insert (r : Rule) (tables : List RuleTable) (client table : String) :
    heldIn (insert r tables) client table =
      if r.isFor client table then insertByPriority r (heldIn tables client table)
      else heldIn tables client table := by
  induction tables with
  | nil =>
      have hnew : (RuleTable.mk r.client (tableKey r.table) [r]).isFor client table ↔
          r.isFor client table := isFor_iff_of_key ⟨rfl, rfl⟩
      split
      · rename_i hr
        rw [insert, heldIn_cons_of_isFor (hnew.2 hr)]
        rfl
      · rename_i hr
        rw [insert, heldIn_cons_of_not_isFor (mt hnew.1 hr)]
  | cons t rest ih =>
      rw [insert]
      split
      · -- the rule goes into the first table
        rename_i hkey
        have hput : ({ t with rules := insertByPriority r t.rules }).isFor client table ↔
            r.isFor client table := isFor_iff_of_key hkey
        by_cases hr : r.isFor client table
        · rw [if_pos hr, heldIn_cons_of_isFor (hput.2 hr),
            heldIn_cons_of_isFor ((isFor_iff_of_key hkey).2 hr)]
        · rw [if_neg hr, heldIn_cons_of_not_isFor (mt hput.1 hr),
            heldIn_cons_of_not_isFor (mt (isFor_iff_of_key hkey).1 hr)]
      · rename_i hkey
        by_cases ht : t.isFor client table
        · have hr : ¬ r.isFor client table := fun hr => hkey (key_of_isFor ht hr)
          rw [if_neg hr, heldIn_cons_of_isFor ht, heldIn_cons_of_isFor ht]
        · rw [heldIn_cons_of_not_isFor ht, heldIn_cons_of_not_isFor ht, ih]

theorem extend_append (g : RuleRegistry) (rules more : List Rule) :
    g.extend (rules ++ more) = (g.extend rules).extend more := by
  simp [extend, List.foldl_append]

theorem held_ofRules (rules : List Rule) (client table : String) :
    (ofRules rules).held client table =
      (rules.filter (·.isFor client table)).foldl (fun held r => insertByPriority r held) [] := by
  induction rules using List.reverseRecOn with
  | nil => rfl
  | append_singleton rules r ih =>
      have hlast : (ofRules (rules ++ [r])).held client table =
          heldIn (insert r (ofRules rules).tables) client table := by
        rw [ofRules, extend_append]
        rfl
      rw [held] at ih
      rw [hlast, heldIn_insert, ih, List.filter_append, List.foldl_append]
      by_cases hr : r.isFor client table
      · simp [hr]
      · simp [hr]

theorem filter_isFor (rules : List Rule) (client table : String) :
    rules.filter (·.isFor client table) =
      (rules.filter (·.client == client)).filter fun r => tableKey r.table == tableKey table := by
  rw [List.filter_filter]
  refine List.filter_congr fun r _ => ?_
  rw [Rule.isFor, Bool.and_comm]

/-! ## Filling a registry -/

/-- A way to fill a registry. -/
inductive Filling where
  | register (r : Rule)
  | extend (rules : List Rule)
  | load (files : Access Id) (locations : List Location)

/-- The rules in files, in order, if each of the files gives a rule set. -/
def rulesIn (files : Access Id) (locations : List Location) : Except RuleFileError (List Rule) :=
  (locations.mapM fun p => (RuleSet.ofFile files p).run).map (·.flatMap (·.rules))

theorem rulesIn_cons (files : Access Id) (location : Location) (rest : List Location) :
    rulesIn files (location :: rest) =
      match (RuleSet.ofFile files location).run with
      | .error e => .error e
      | .ok set => (rulesIn files rest).map (set.rules ++ ·) := by
  simp only [rulesIn, List.mapM_cons]
  cases (RuleSet.ofFile files location).run with
  | error e => rfl
  | ok set => cases rest.mapM fun p => (RuleSet.ofFile files p).run <;> rfl

theorem addFiles_eq (files : Access Id) (g : RuleRegistry) (locations : List Location) :
    (g.addFiles files locations).run = (rulesIn files locations).map g.extend := by
  induction locations generalizing g with
  | nil => rfl
  | cons location rest ih =>
      have hcons : (g.addFiles files (location :: rest)).run =
          match (RuleSet.ofFile files location).run with
          | .error e => .error e
          | .ok set => ((g.extend set.rules).addFiles files rest).run := by
        rw [addFiles, Id.run_bind]
        cases (RuleSet.ofFile files location).run <;> rfl
      rw [hcons, rulesIn_cons]
      cases (RuleSet.ofFile files location).run with
      | error e => rfl
      | ok set =>
          simp only [ih]
          cases rulesIn files rest with
          | error e => rfl
          | ok more => exact congrArg Except.ok (extend_append g set.rules more).symm

namespace Filling

/-- A registry that cannot be loaded stays as it was. -/
def apply (g : RuleRegistry) : Filling → RuleRegistry
  | register r => g.register r
  | extend rules => g.extend rules
  | load files locations =>
    match (RuleRegistry.ofFiles files locations).run with
    | .ok loaded => loaded
    | .error _ => g

/-- The rules that have been registered since a registry was last loaded. -/
def after (rules : List Rule) : Filling → List Rule
  | register r => rules ++ [r]
  | extend more => rules ++ more
  | load files locations =>
    match rulesIn files locations with
    | .ok loaded => loaded
    | .error _ => rules

theorem apply_ofRules (filling : Filling) (rules : List Rule) :
    filling.apply (.ofRules rules) = .ofRules (filling.after rules) := by
  cases filling with
  | register r => exact (extend_append .empty rules [r]).symm
  | extend more => exact (extend_append .empty rules more).symm
  | load files locations =>
      simp only [apply, after, ofFiles, addFiles_eq]
      cases rulesIn files locations <;> rfl

end Filling

/-- The registry that has been filled in several ways, one after another. -/
def filled (fillings : List Filling) : RuleRegistry := fillings.foldl Filling.apply .empty

def registered (fillings : List Filling) : List Rule := fillings.foldl Filling.after []

theorem filled_eq (fillings : List Filling) : filled fillings = .ofRules (registered fillings) := by
  induction fillings using List.reverseRecOn with
  | nil => rfl
  | append_singleton fillings last ih =>
      have hfilled : filled (fillings ++ [last]) = last.apply (filled fillings) := by
        simp [filled, List.foldl_append]
      have hregistered : registered (fillings ++ [last]) = last.after (registered fillings) := by
        simp [registered, List.foldl_append]
      rw [hfilled, hregistered, ih, Filling.apply_ofRules]

end RuleRegistry

end Interchange
