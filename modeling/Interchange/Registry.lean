import Interchange.Rule
import Interchange.Schema.Description

/-!
The registry of rules: by client and table, rules of lower priority numbers first and rules of equal
priority in the order in which they came. Tables are told apart up to case and surrounding white space.
-/

namespace Interchange

/-- The name under which a table is known. -/
def tableKey (table : String) : String := Text.asciiUpper (Text.trim table)

/-- Puts a rule behind all that come before it or have its priority. -/
def insertByPriority (r : Rule) : List Rule → List Rule
  | [] => [r]
  | s :: rest => if r.priority < s.priority then r :: s :: rest else s :: insertByPriority r rest

/-- The rules of one client for one table. -/
structure RuleTable where
  client : String
  table : String
  rules : List Rule
  deriving DecidableEq, Repr

/-- A registry: tables of rules, each client and table once. -/
structure RuleRegistry where
  tables : List RuleTable
  deriving DecidableEq, Repr

namespace RuleRegistry

def empty : RuleRegistry := ⟨[]⟩

/-- Puts a rule into its table, or into a new table. -/
def insert (r : Rule) : List RuleTable → List RuleTable
  | [] => [⟨r.client, tableKey r.table, [r]⟩]
  | t :: rest =>
    if t.client = r.client ∧ t.table = tableKey r.table then
      { t with rules := insertByPriority r t.rules } :: rest
    else t :: insert r rest

def register (g : RuleRegistry) (r : Rule) : RuleRegistry := ⟨insert r g.tables⟩

def extend (g : RuleRegistry) (rules : List Rule) : RuleRegistry := rules.foldl register g

def ofRules (rules : List Rule) : RuleRegistry := empty.extend rules

/-- The active rules of a client for a table, in the order in which they apply. -/
def active (g : RuleRegistry) (client table : String) : List Rule :=
  match g.tables.find? fun t => t.client == client && t.table == tableKey table with
  | some t => t.rules.filter (·.active)
  | none => []

/-- All rules of a client, table by table. -/
def ofClient (g : RuleRegistry) (client : String) : List Rule :=
  ((g.tables.filter (·.client == client)).mergeSort fun a b => !(b.table < a.table)).flatMap (·.rules)

/-- A schema with an entry for each rule of a client behind it. -/
def describe (g : RuleRegistry) (schema : List Schema.Entry) (client : String) :
    List Schema.Entry :=
  schema ++ (g.ofClient client).map fun r => .rule ⟨r.label, r.path, r.field⟩

def size (g : RuleRegistry) : Nat := (g.tables.flatMap (·.rules)).length

end RuleRegistry

end Interchange
