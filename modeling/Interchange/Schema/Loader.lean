import Interchange.Files.Access
import Interchange.Schema.Survey

/-!
Loading schemas by reference. A reference is looked for as it is, then below each search path, then by its
last name below each search path; what was described once is kept under the reference.
-/

namespace Interchange.Schema

open Files (Access FileFlaw Location)
open Text.Utf8 (Octets)
open Xml (Document Malformed localPart)

/-- Why a schema cannot be used. -/
inductive SchemaError where
  | notFound (reference : String) (tried : List Location)
  | format (flaw : FormatFlaw)
  | unreadable (location : Location) (flaw : FileFlaw)
  | document (m : Malformed)
  deriving DecidableEq, Repr

namespace SchemaError

def message : SchemaError → String
  | notFound reference tried =>
    "Schema not found: " ++ reference ++ " (tried: " ++ String.intercalate ", " tried ++ ")"
  | format flaw => "Invalid schema format: " ++ flaw.message
  | unreadable location flaw => "IO error reading " ++ location ++ ": " ++ flaw.message
  | document m => m.message

/-- An error and what it goes back to. -/
def chain : SchemaError → List String
  | unreadable location flaw => [message (unreadable location flaw), flaw.message]
  | e => [e.message]

end SchemaError

/-- Describes the schema that octets hold. -/
def describeOctets (octets : Octets) : Except SchemaError (List Entry) :=
  match Document.parse octets with
  | .error m => .error (.document m)
  | .ok d => (describe d).mapError .format

/-- Asks a question of the outermost element of the document that octets hold. -/
def askRoot {α : Type} (ask : Document → Nat → α) (octets : Octets) : Except SchemaError α :=
  match Document.parse octets with
  | .error m => .error (.document m)
  | .ok d =>
    match d.documentElement with
    | none => .error (.format .noRoot)
    | some root => .ok (ask d root)

/-- The local name of the outermost element. -/
def rootNameOf (octets : Octets) : Except SchemaError String := askRoot rootName octets

/-- The namespace of the outermost element. -/
def rootNamespaceOf (octets : Octets) : Except SchemaError (Option String) :=
  askRoot Document.namespaceOf octets

/-! ## References -/

/-- The form under which a reference is known: without space around it, with slashes. -/
def normalizeReference (reference : String) : Except SchemaError String :=
  let trimmed := Text.trimChars reference.toList
  if trimmed.isEmpty then .error (.notFound reference [])
  else .ok (String.ofList (trimmed.map fun c => if c = '\\' then '/' else c))

/-- The locations at which a reference is looked for, in order. -/
def candidates (paths : List Location) (reference : String) : List Location :=
  let byName :=
    match Location.lastName reference with
    | some name => if Location.isBare reference then [] else paths.map (Location.join · name)
    | none => []
  reference :: paths.map (Location.join · reference) ++ byName

/-! ## Loading -/

/-- Search paths, and the structures that are known by reference. -/
structure Loader where
  paths : List Location
  structures : List (String × List Entry)

namespace Loader

def new (paths : List Location) : Loader := ⟨paths, []⟩

/-- A loader that searches the folder at hand. -/
def standard : Loader := new ["."]

def addPath (l : Loader) (path : Location) : Loader := { l with paths := l.paths ++ [path] }

/-- The structure that is known under a reference. -/
def cached (l : Loader) (reference : String) : Option (List Entry) := l.structures.lookup reference

/-- Keeps a structure under a reference, in place of the one before. -/
def register (l : Loader) (reference : String) (entries : List Entry) : Loader :=
  { l with structures := (reference, entries) :: l.structures.filter (·.1 != reference) }

/-- The number of structures that are known. -/
def size (l : Loader) : Nat := l.structures.length

section

variable {m : Type → Type} [Monad m]

/-- The first of some locations at which there is a file. -/
def firstFile (files : Access m) : List Location → m (Option Location)
  | [] => return none
  | p :: rest => do
    if ← files.isFile p then return some p else firstFile files rest

/-- Finds the file that a normalized reference names. -/
def resolve (files : Access m) (l : Loader) (reference : String) : m (Except SchemaError Location) := do
  let tried := candidates l.paths reference
  match ← firstFile files tried with
  | some p => return .ok p
  | none => return .error (.notFound reference tried)

/-- Asks a question of the file that a reference names. -/
def ask {α : Type} (files : Access m) (l : Loader) (question : Octets → Except SchemaError α)
    (reference : String) : m (Except SchemaError α) := do
  match normalizeReference reference with
  | .error e => return .error e
  | .ok reference =>
    match ← l.resolve files reference with
    | .error e => return .error e
    | .ok p =>
      match ← files.read p with
      | .error flaw => return .error (.unreadable p flaw)
      | .ok octets => return question octets

def rootElement (files : Access m) (l : Loader) (reference : String) : m (Except SchemaError String) :=
  l.ask files rootNameOf reference

def uri (files : Access m) (l : Loader) (reference : String) :
    m (Except SchemaError (Option String)) :=
  l.ask files rootNamespaceOf reference

/-- The structure of a schema: the one that is known, or else that of the file, which is known from
then on. -/
def load (files : Access m) (l : Loader) (reference : String) :
    m (Except SchemaError (List Entry) × Loader) := do
  match normalizeReference reference with
  | .error e => return (.error e, l)
  | .ok key =>
    match l.cached key with
    | some entries => return (.ok entries, l)
    | none =>
      match ← l.ask files describeOctets key with
      | .error e => return (.error e, l)
      | .ok entries => return (.ok entries, l.register key entries)

end

end Loader

end Interchange.Schema
