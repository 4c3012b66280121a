import Interchange.Command.Arguments
import Interchange.Command.Report
import Interchange.Config
import Interchange.Engine.Dispatcher
import Interchange.Engine.Notices
import Interchange.Schema.Loader

/-!
Running a task: what it reports and whether that is a success, or why it came to nothing.
-/

namespace Interchange.Command

open Engine (Dispatcher EngineError Inbound)
open Files (Access FileFlaw Location)
open Schema (SchemaError)

/-- Why a task came to nothing. -/
inductive Failure where
  | config (e : ConfigError)
  | unknownInterface (key : String)
  | unusableSchema (interface : String) (e : SchemaError)
  | mappingRules (e : RuleFileError)
  | input (location : Location) (flaw : FileFlaw)
  | engine (e : EngineError)
  | schema (e : SchemaError)
  | ruleSet (location : Location) (e : RuleFileError)
  deriving DecidableEq, Repr

namespace Failure

/-- A failure and what it goes back to. -/
def chain : Failure → List String
  | config e => e.chain
  | unknownInterface key => ["unknown interface '" ++ key ++ "'"]
  | unusableSchema name e => ("interface '" ++ name ++ "' has no usable schema") :: e.chain
  | mappingRules e => "failed to load mapping rules" :: e.chain
  | input location flaw => ["failed to read " ++ location, flaw.message]
  | engine e => [e.message]
  | schema e => e.chain
  | ruleSet location e => ("failed to load rule set " ++ location) :: e.chain

/-- The lines of a cause, the first behind its number if there are several causes. -/
def causeText (number : Option Nat) (cause : String) : String :=
  let (first, other) :=
    match number with
    | some n => (Decimal.padSpaces 5 n ++ ": ", "       ")
    | none => ("    ", "    ")
  let lines := (cause.toList.splitOn '\n').map String.ofList
  first ++ String.intercalate ("\n" ++ other) lines

/-- The text of a failure with its causes. -/
def text (f : Failure) : String :=
  let causes := f.chain.drop 1
  let causes := causes.zipIdx.map fun (cause, n) =>
    "\n" ++ causeText (if causes.length = 1 then none else some n) cause
  "Error: " ++ f.chain.headD "" ++
    (if causes.isEmpty then "" else "\n\nCaused by:" ++ String.join causes) ++ "\n"

end Failure

/-- What a task reports, and whether that is a success. -/
structure Outcome where
  report : JsonValue
  success : Bool

section

variable {m : Type → Type} [Monad m]

/-- Checks that the schema of an interface can be used, if it has one. -/
def checkSchema (files : Access m) (c : Config) (i : Interface) : m (Except Failure Unit) := do
  match i.schema with
  | none => return .ok ()
  | some reference =>
    match (← (Schema.Loader.new c.schemaPaths).load files reference).1 with
    | .ok _ => return .ok ()
    | .error e => return .error (.unusableSchema i.name e)

/-- The records that one document left in an empty store, with its attempt. -/
def noticeReport (a : Attempt) (s : Store ShippingNotice.Header ShippingNotice.Line) : JsonValue :=
  .object [
    ("attempt", a.report),
    ("headers", .list (s.records.headers.map (StoredHeader.report ShippingNotice.Header.report))),
    ("lines", .list (s.records.headers.flatMap fun h =>
      (s.records.linesOf h.id).map (StoredLine.report ShippingNotice.Line.report)))]

/-- Processes a notice by the rules at hand. -/
def processNotice (today : String) (c : Config) (rules : RuleRegistry) (doc : Inbound)
    (i : Interface) : Except Failure Outcome :=
  let settings :=
    { Engine.noticeSettings with messageLimit := c.messageLimit, linePolicy := c.linePolicy }
  let strategy := { Engine.noticeStrategy today rules.active with settings := settings }
  match Dispatcher.empty.register strategy with
  | .error e => .error (.engine e)
  | .ok dispatcher =>
    match dispatcher.dispatch Store.storage doc i Store.empty with
    | (.error e, _) => .error (.engine e)
    | (.ok a, s) => .ok ⟨noticeReport a s, a.isSuccess⟩

/-- Processes the document in a file for an interface. -/
def runProcess (files : Access m) (today : String) (c : Config) (input : Location) (key : String) :
    m (Except Failure Outcome) := do
  match c.interface? key with
  | none => return .error (.unknownInterface key)
  | some i =>
    match ← checkSchema files c i with
    | .error e => return .error e
    | .ok () =>
      match ← RuleRegistry.ofFiles files c.ruleFiles with
      | .error e => return .error (.mappingRules e)
      | .ok rules =>
        match ← files.read input with
        | .error flaw => return .error (.input input flaw)
        | .ok octets =>
          let name := (Location.lastName input).getD input
          return processNotice today c rules ⟨name, octets⟩ i

/-- Describes a schema, with the rules of a client if one is named. -/
def runSchema (files : Access m) (c : Config) (reference : String) (client : Option String)
    (rules : List Location) : m (Except Failure Outcome) := do
  let paths := if c.schemaPaths.isEmpty then ["."] else c.schemaPaths
  match (← (Schema.Loader.new paths).load files reference).1 with
  | .error e => return .error (.schema e)
  | .ok entries =>
    match client with
    | none => return .ok ⟨.list (entries.map Schema.Entry.report), true⟩
    | some client =>
      match ← RuleRegistry.ofFiles files (c.ruleFiles ++ rules) with
      | .error e => return .error (.mappingRules e)
      | .ok registry =>
        return .ok ⟨.list ((registry.describe entries client).map Schema.Entry.report), true⟩

/-- Summarizes a rule set; paths that cannot be read are no success. -/
def runRules (files : Access m) (file : Location) : m (Except Failure Outcome) := do
  match ← RuleSet.ofFile files file with
  | .error e => return .error (.ruleSet file e)
  | .ok set => return .ok ⟨set.report, set.pathProblems.isEmpty⟩

/-- The configuration that is asked for. -/
def configOf (files : Access m) (location : Option Location) : m (Except Failure Config) := do
  match location with
  | none => return .ok .standard
  | some p => return (← Config.ofFile files p).mapError .config

/-- Runs a task under its configuration. -/
def run (files : Access m) (today : String) (i : Invocation) : m (Except Failure Outcome) := do
  match ← configOf files i.config with
  | .error e => return .error e
  | .ok c =>
    match i.task with
    | .process input key => runProcess files today c input key
    | .schema reference client rules => runSchema files c reference client rules
    | .rules file => runRules files file

end

end Interchange.Command
