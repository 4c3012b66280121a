import Interchange.Engine.Strategy
import Interchange.Files.Access
import Interchange.Yaml.Decoding

/-!
The configuration of the engine, read from a file. The locations in it are relative to the folder of the
file, which is also the search path for schemas where none is given.
-/

namespace Interchange

open Engine (LinePolicy Settings)
open Files (Access FileFlaw Location)
open Yaml (Decoder Member)

namespace Interface

/-- The fields of a written interface. -/
def fields : List (Member Interface) := [
  .of "id" [] true (.string "a string") fun i v => { i with id := v },
  .of "client" [] true (.string "a string") fun i v => { i with client := v },
  .of "name" [] true (.string "a string") fun i v => { i with name := v },
  .of "document_type" ["type"] true (.string "a string") fun i v => { i with documentType := v },
  .of "schema_reference" ["schema_path"] false (.optional (.string "a string"))
    fun i v => { i with schema := v },
  .of "active" ["is_active"] false .boolean fun i v => { i with active := v }]

def decoder : Decoder Interface := .record "Interface" fields (Interface.new "" "" "" "")

end Interface

structure Config where
  interfaces : List Interface
  ruleFiles : List Location
  schemaPaths : List Location
  messageLimit : Nat
  linePolicy : LinePolicy
  deriving DecidableEq, Repr

namespace Config

/-- The configuration where none is given. -/
def standard : Config := ⟨[], [], [], Settings.standardLimit, .drop⟩

/-- The policies for lines by name. -/
def linePolicies : List (String × LinePolicy) :=
  [LinePolicy.drop, .keep].map fun p => (p.name, p)

def locations : Decoder (List Location) := .list (.string "path string")

/-- The fields of a written configuration. -/
def fields : List (Member Config) := [
  .of "interfaces" [] false (.list Interface.decoder) fun c v => { c with interfaces := v },
  .of "rule_files" [] false locations fun c v => { c with ruleFiles := v },
  .of "schema_paths" [] false locations fun c v => { c with schemaPaths := v },
  .of "message_limit" [] false .size fun c v => { c with messageLimit := v },
  .of "line_error_policy" [] false (.choice linePolicies) fun c v => { c with linePolicy := v }]

def decoder : Decoder Config := .record "EngineConfig" fields standard

/-- The configuration with its locations seen from the folder of its file. -/
def relativeTo (base : Location) (c : Config) : Config :=
  let paths := c.schemaPaths.map (Location.join base)
  { c with
    ruleFiles := c.ruleFiles.map (Location.join base)
    schemaPaths := if paths.isEmpty then [base] else paths }

/-- The first interface of a name or an id. -/
def interface? (c : Config) (key : String) : Option Interface :=
  c.interfaces.find? fun i => i.name == key || i.id == key

end Config

/-- Why a file gives no configuration. -/
inductive ConfigError where
  | unreadable (location : Location) (flaw : FileFlaw)
  | malformed (location : Location) (e : Yaml.ReadError)
  deriving DecidableEq, Repr

/-- An error and what it goes back to. -/
def ConfigError.chain : ConfigError → List String
  | .unreadable location flaw => ["failed to read config " ++ location, flaw.message]
  | .malformed location e => ["failed to parse config " ++ location, e.message]

/-- Reads the configuration in a file. -/
def Config.ofFile {m : Type → Type} [Monad m] (files : Access m) (location : Location) :
    m (Except ConfigError Config) := do
  match ← files.readText location with
  | .error flaw => return .error (.unreadable location flaw)
  | .ok text =>
    match Yaml.decode Config.decoder text with
    | .error e => return .error (.malformed location e)
    | .ok c => return .ok (c.relativeTo ((Location.parent location).getD "."))

end Interchange
