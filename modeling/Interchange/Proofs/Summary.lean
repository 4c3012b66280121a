import Mathlib.Data.List.Basic
import Mathlib.Data.String.Basic
import Interchange.Command.Report
import Interchange.Proofs.Priority
import Interchange.Proofs.Reports

/-!
# What the report on a rule set lists

The report groups the rules of a set by table and sorts each group once; a registry sorts a table again with
each rule that it takes in. For the rules of one client both come to the same (`RuleSet.report_agrees`).
-/

namespace Interchange

theorem Rule.holds_active_summary (r : Rule) : r.summary.holds "active" = r.active := by
  unfold JsonValue.holds JsonValue.member? summary Schema.member
  cases r.transform <;> rfl

namespace RuleSet

open RuleRegistry (tableNames tableRules tableOrder tableOrder_eq mem_tableOrder pairwise_tableOrder nodup_tableNames)

/-- What the report lists for each table, by key. -/
def reported (set : RuleSet) : List (String × List JsonValue) :=
  (((set.report.member? "tables").map (·.members)).getD []).map fun (key, rules) => (key, rules.items)

/-- What a list of tables has for the key of a table. -/
def listedFor {α : Type} (tables : List (String × List α)) (table : String) : List α :=
  (tables.lookup (tableKey table)).getD []

variable {set : RuleSet} {client table : String}

theorem reported_eq (set : RuleSet) :
    set.reported = set.tables.map fun (key, rules) => (key, rules.map Rule.summary) := by
  have hmembers : ((set.report.member? "tables").map (·.members)).getD [] =
      set.tables.map fun (key, rules) => (key, .list (rules.map Rule.summary)) := rfl
  rw [reported, hmembers, List.map_map]
  rfl

/-- The tables of a set are the tables of its rules, by name. -/
theorem tables_eq (set : RuleSet) : set.tables =
    (tableOrder (tableNames set.rules)).map fun n => (n, tableRules set.rules n) := by
  rw [tableOrder_eq]
  rfl

theorem listedFor_map {α β : Type} {f : α → β} {tables : List (String × List α)} :
    listedFor (tables.map fun (key, xs) => (key, xs.map f)) table = (listedFor tables table).map f := by
  induction tables with
  | nil => rfl
  | cons entry rest ih =>
      obtain ⟨key, xs⟩ := entry
      rw [listedFor, listedFor] at ih
      rw [listedFor, listedFor, List.map_cons, List.lookup_cons, List.lookup_cons]
      cases tableKey table == key with
      | true => rfl
      | false => exact ih

/-! ## The order of the tables -/

theorem pairwise_tables (set : RuleSet) : (set.tables.map (·.1)).Pairwise (· < ·) := by
  have hkeys : set.tables.map (·.1) = tableOrder (tableNames set.rules) := by
    rw [tables_eq, List.map_map]
    exact List.map_id _
  rw [hkeys]
  exact pairwise_tableOrder (nodup_tableNames set.rules)

/-! ## One client -/

theorem filter_client (h : ∀ r ∈ set.rules, r.client = client) :
    set.rules.filter (·.client == client) = set.rules :=
  List.filter_eq_self.2 fun r hr => by simpa using h r hr

theorem listedFor_tables (set : RuleSet) (table : String) :
    listedFor set.tables table = tableRules set.rules (tableKey table) := by
  rw [listedFor, tables_eq]
  by_cases hmem : tableKey table ∈ tableNames set.rules
  · rw [List.lookup_graph _ (mem_tableOrder.2 hmem)]
    rfl
  · have hnone : ((tableOrder (tableNames set.rules)).map
        fun n => (n, tableRules set.rules n)).lookup (tableKey table) = none := by
      refine List.lookup_eq_none_iff.2 fun entry hentry => ?_
      obtain ⟨n, hn, rfl⟩ := List.mem_map.1 hentry
      exact bne_iff_ne.2 fun e => hmem (e ▸ mem_tableOrder.1 hn)
    rw [hnone, RuleRegistry.tableRules_eq_nil hmem]
    rfl

theorem active_eq_listedFor (h : ∀ r ∈ set.rules, r.client = client) (table : String) :
    (RuleRegistry.ofRules set.rules).active client table = (listedFor set.tables table).filter (·.active) := by
  rw [RuleRegistry.active_eq_held, RuleRegistry.held_ofRules_eq, RuleRegistry.filter_isFor, filter_client h,
    listedFor_tables]
  rfl

theorem ofClient_eq_flatMap (h : ∀ r ∈ set.rules, r.client = client) :
    (RuleRegistry.ofRules set.rules).ofClient client = set.tables.flatMap (·.2) := by
  rw [RuleRegistry.ofClient_ofRules, filter_client h, tables_eq, List.flatMap_map]

/-- The report on a set of rules of one client lists, table by table in the order of the keys, the rules that
a registry holds when the same rules are registered one by one: all of them as those of the client, and of a
table, in whatever spelling, the active ones as those that are active for it. -/
theorem report_agrees (h : ∀ r ∈ set.rules, r.client = client) :
    (set.reported.map (·.1)).Pairwise (· < ·) ∧
      (∀ table, (listedFor set.tables table).filter (·.active) =
        (set.rules.foldl .register .empty : RuleRegistry).active client table) ∧
      (∀ table, (listedFor set.reported table).filter (·.holds "active") =
        ((set.rules.foldl .register .empty : RuleRegistry).active client table).map Rule.summary) ∧
      set.tables.flatMap (·.2) = (set.rules.foldl .register .empty : RuleRegistry).ofClient client ∧
      set.reported.flatMap (·.2) =
        ((set.rules.foldl .register .empty : RuleRegistry).ofClient client).map Rule.summary := by
  have hregistry : (set.rules.foldl .register .empty : RuleRegistry) = .ofRules set.rules := rfl
  have hlisted : ∀ table, listedFor set.reported table = (listedFor set.tables table).map Rule.summary := by
    intro table
    rw [reported_eq, listedFor_map]
  rw [hregistry]
  refine ⟨?_, fun table => (active_eq_listedFor h table).symm, fun table => ?_,
    (ofClient_eq_flatMap h).symm, ?_⟩
  · rw [reported_eq, List.map_map]
    exact pairwise_tables set
  · rw [hlisted, active_eq_listedFor h, List.filter_map]
    refine congrArg _ (List.filter_congr fun r _ => ?_)
    exact r.holds_active_summary
  · rw [reported_eq, ofClient_eq_flatMap h, List.flatMap_map, List.map_flatMap]

theorem report_agrees_spellings : ∃ set : RuleSet,
    set.rules.map (fun r => (r.table, r.field, r.priority, r.active)) =
      [("lines", "qty", 1, true), (" LINES", "lot", 0, true), ("Lines", "unit", 0, false),
        ("headers", "number", 0, true), ("Lines ", "item", 1, true)] ∧
      (∀ r ∈ set.rules, r.client = "ACME") ∧
      ((listedFor set.tables "lines ").filter (·.active)).map (·.field) = ["lot", "qty", "item"] := by
  let rule (table field : String) (priority : Int) (active : Bool) : Rule :=
    { Rule.new table "/Notice" field with client := "ACME", priority := priority, active := active }
  let set : RuleSet := ⟨"ACME", "", [rule "lines" "qty" 1 true, rule " LINES" "lot" 0 true,
    rule "Lines" "unit" 0 false, rule "headers" "number" 0 true, rule "Lines " "item" 1 true]⟩
  have hset : ∀ r ∈ set.rules, r.client = "ACME" := by decide
  refine ⟨set, rfl, hset, ?_⟩
  rw [(report_agrees hset).2.1]
  decide +kernel

end RuleSet

end Interchange
