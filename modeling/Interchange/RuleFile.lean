import Interchange.Files.Access
import Interchange.Registry
import Interchange.Yaml.Decoding

/-!
Rule sets as they are written: a client, an interface and a list of rules, of which all but the table,
the path and the field may be left out; and the registry of all rules in several files.
-/

namespace Interchange

open Files (Access FileFlaw Location)
open Yaml (Decoder Member)

namespace Rule

def textField (name : String) (aliases : List String) (required : Bool)
    (set : Rule → String → Rule) : Member Rule :=
  .of name aliases required (.string "a string") set

/-- The fields of a written rule. -/
def fields : List (Member Rule) := [
  textField "name" [] false fun r v => { r with name := v },
  textField "client" [] false fun r v => { r with client := v },
  textField "interface" [] false fun r v => { r with interface := v },
  textField "table_name" ["table"] true fun r v => { r with table := v },
  textField "xml_path" ["source"] true fun r v => { r with path := v },
  textField "target_field" ["field", "database_field"] true fun r v => { r with field := v },
  textField "data_type" [] false fun r v => { r with dataType := v },
  .of "transformation" ["transform"] false (.optional (.string "a string"))
    fun r v => { r with transform := v },
  .of "required" [] false .boolean fun r v => { r with required := v },
  .of "default_value" ["default"] false (.optional (.string "a string"))
    fun r v => { r with fallback := v },
  .of "priority" [] false .int32 fun r v => { r with priority := v },
  .of "active" [] false .boolean fun r v => { r with active := v }]

def decoder : Decoder Rule := .record "MappingRule" fields (Rule.new "" "" "")

end Rule

namespace RuleSet

def fields : List (Member RuleSet) := [
  .of "client" [] false (.string "a string") fun s v => { s with client := v },
  .of "interface" [] false (.string "a string") fun s v => { s with interface := v },
  .of "rules" [] false (.list Rule.decoder) fun s v => { s with rules := v }]

def decoder : Decoder RuleSet := .record "RuleSet" fields ⟨"", "", []⟩

end RuleSet

/-- Why a text is no rule set. -/
inductive RuleSetError where
  | unreadable (e : Yaml.ReadError)
  | invalid (e : InvalidRule)
  deriving DecidableEq, Repr

namespace RuleSetError

/-- What was wrong with the text, with the place named a second time. -/
def readMessage (e : Yaml.ReadError) : String :=
  "Failed to parse rule set: " ++ e.message ++
    match e.mark with
    | some m => " at line " ++ toString (m.line + 1) ++ ", column " ++ toString (m.column + 1)
    | none => ""

def message : RuleSetError → String
  | .unreadable e => "Rule set parse error: " ++ readMessage e
  | .invalid e => e.message

/-- An error and what it goes back to. -/
def chain : RuleSetError → List String
  | .unreadable e => [message (.unreadable e), readMessage e]
  | .invalid e => [message (.invalid e)]

end RuleSetError

/-- Reads a rule set; its rules are completed and checked. -/
def RuleSet.ofText (text : String) : Except RuleSetError RuleSet :=
  match Yaml.decode RuleSet.decoder text with
  | .error e => .error (.unreadable e)
  | .ok set =>
    match set.complete with
    | .error e => .error (.invalid e)
    | .ok set => .ok set

/-! ## Files -/

/-- Why a file gives no rule set. -/
inductive RuleFileError where
  | unreadable (location : Location) (flaw : FileFlaw)
  | ruleSet (e : RuleSetError)
  deriving DecidableEq, Repr

namespace RuleFileError

/-- An error and what it goes back to. -/
def chain : RuleFileError → List String
  | unreadable location flaw =>
    ["IO error reading " ++ location ++ ": " ++ flaw.message, flaw.message]
  | ruleSet e => e.chain

def message (e : RuleFileError) : String := e.chain.headD ""

end RuleFileError

section

variable {m : Type → Type} [Monad m]

/-- Reads the rule set in a file. -/
def RuleSet.ofFile (files : Access m) (location : Location) : m (Except RuleFileError RuleSet) := do
  match ← files.readText location with
  | .error flaw => return .error (.unreadable location flaw)
  | .ok text => return (RuleSet.ofText text).mapError .ruleSet

/-- Adds the rules in files, in order, up to the first that gives no rule set. -/
def RuleRegistry.addFiles (files : Access m) (g : RuleRegistry) :
    List Location → m (Except RuleFileError RuleRegistry)
  | [] => return .ok g
  | location :: rest => do
    match ← RuleSet.ofFile files location with
    | .error e => return .error e
    | .ok set => RuleRegistry.addFiles files (g.extend set.rules) rest

/-- The registry of the rules in files. -/
def RuleRegistry.ofFiles (files : Access m) (locations : List Location) :
    m (Except RuleFileError RuleRegistry) :=
  RuleRegistry.empty.addFiles files locations

end

end Interchange
