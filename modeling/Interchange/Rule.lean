import Interchange.Path.Reading

/-!
Mapping rules: each brings the value that a path selects into a field of a record. Rules come in sets
that name a client and an interface for those of their rules that name none.
-/

namespace Interchange

/-- The type that a rule declares for its value. A date stays a text. -/
inductive DataType where
  | integer
  | decimal
  | boolean
  | date
  | text
  deriving DecidableEq, Repr

namespace DataType

/-- The type of a declared name, in any case; unknown names are texts. -/
def ofName (declared : String) : DataType :=
  match Text.asciiLower (Text.trim declared) with
  | "number" => .integer
  | "integer" => .integer
  | "decimal" => .decimal
  | "double" => .decimal
  | "boolean" => .boolean
  | "date" => .date
  | _ => .text

def name : DataType → String
  | .integer => "integer"
  | .decimal => "decimal"
  | .boolean => "boolean"
  | .date => "date"
  | .text => "string"

end DataType

/-- A rule. Rules of lower priority numbers come first; inactive rules do nothing. -/
structure Rule where
  name : String
  client : String
  interface : String
  table : String
  path : String
  field : String
  dataType : String
  transform : Option String
  required : Bool
  fallback : Option String
  priority : Int
  active : Bool
  deriving DecidableEq, Repr

namespace Rule

/-- An active rule for a text, named after its field. -/
def new (table path field : String) : Rule where
  name := field
  client := ""
  interface := ""
  table := table
  path := path
  field := field
  dataType := "string"
  transform := none
  required := false
  fallback := none
  priority := 0
  active := true

def type (r : Rule) : DataType := .ofName r.dataType

/-- What a rule is called in messages. -/
def label (r : Rule) : String := if r.name.isEmpty then r.field else r.name

end Rule

/-- A rule set. -/
structure RuleSet where
  client : String
  interface : String
  rules : List Rule
  deriving DecidableEq, Repr

/-- What a rule may not leave blank. -/
inductive RulePart where
  | table
  | path
  | field
  deriving DecidableEq, Repr

def RulePart.name : RulePart → String
  | .table => "table"
  | .path => "xml_path"
  | .field => "field"

/-- A rule that lacks a part. -/
structure InvalidRule where
  label : String
  missing : RulePart
  deriving DecidableEq, Repr

def InvalidRule.message (e : InvalidRule) : String :=
  "Invalid rule '" ++ e.label ++ "': missing " ++ e.missing.name

namespace Rule

/-- The rule as a member of a set: it takes over the client and the interface that it leaves empty. -/
def inherit (set : RuleSet) (r : Rule) : Rule :=
  { r with
    client := if r.client.isEmpty then set.client else r.client
    interface := if r.interface.isEmpty then set.interface else r.interface }

/-- The first part that a rule leaves blank. -/
def missingPart (r : Rule) : Option RulePart :=
  if Text.isBlankText r.table then some .table
  else if Text.isBlankText r.path then some .path
  else if Text.isBlankText r.field then some .field
  else none

/-- A rule without blank parts. -/
def check (r : Rule) : Except InvalidRule Rule :=
  match r.missingPart with
  | some part => .error ⟨r.label, part⟩
  | none => .ok r

end Rule

namespace RuleSet

/-- The set with its rules filled in and checked; the first rule that lacks a part is reported. -/
def complete (set : RuleSet) : Except InvalidRule RuleSet := do
  let rules ← set.rules.mapM fun r => (r.inherit set).check
  return { set with rules := rules }

/-- The rules whose paths cannot be read, by label, and why. -/
def pathProblems (set : RuleSet) : List (String × Path.Invalid) :=
  set.rules.filterMap fun r =>
    match Path.parse r.path with
    | .ok _ => none
    | .error e => some (r.label, e)

end RuleSet

end Interchange
