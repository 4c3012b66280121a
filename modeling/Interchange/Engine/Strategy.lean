import Interchange.ErrorLog
import Interchange.Interface
import Interchange.Mapping
import Interchange.Registry
import Interchange.Store.Storage
import Interchange.Xml.Assembly
import Interchange.Xml.Canonical

/-!
Processing a document by a strategy. An attempt is opened, the document is read, its header and its lines
are bound and stored, and the attempt is closed with success or with the errors that arose.
-/

namespace Interchange.Engine

open Text.Utf8 (Octets)
open Xml (Document Malformed)

/-- What becomes of a line that has errors. -/
inductive LinePolicy where
  | drop
  | keep
  deriving DecidableEq, Repr

def LinePolicy.name : LinePolicy → String
  | .drop => "drop_line"
  | .keep => "keep_with_defaults"

/-- The tables that hold the rules, the bound on messages in characters, and the policy for lines. -/
structure Settings where
  headerTable : String
  lineTable : String
  messageLimit : Nat
  linePolicy : LinePolicy
  deriving DecidableEq, Repr

namespace Settings

/-- The bound on messages where none is given. -/
def standardLimit : Nat := 1000

def ofTables (headerTable lineTable : String) : Settings :=
  ⟨headerTable, lineTable, standardLimit, .drop⟩

def standard : Settings := ofTables "HEADERS" "LINES"

end Settings

/-- The rules of a client for a table, in the order in which they apply. -/
abbrev RuleSource := String → String → List Rule

/-- A document that comes in. -/
structure Inbound where
  filename : String
  octets : Octets
  deriving DecidableEq, Repr

/-- How documents of one type become a header and lines. -/
structure Strategy (H L : Type) where
  documentType : String
  rules : RuleSource
  transforms : TransformTable
  header : Shape H
  line : Shape L
  settings : Settings

/-- Why a document was not processed. -/
inductive EngineError where
  | noStrategy (key : String)
  | duplicateStrategy (key : String)
  | inactiveInterface (name : String)
  | document (m : Malformed)
  | store (e : StoreError)
  deriving DecidableEq, Repr

namespace EngineError

def message : EngineError → String
  | noStrategy key => "No processing strategy registered for document type '" ++ key ++ "'"
  | duplicateStrategy key =>
    "A processing strategy is already registered for document type '" ++ key ++ "'"
  | inactiveInterface name => "Interface '" ++ name ++ "' is not active"
  | document m => m.message
  | store e => e.description

/-- The error lies in the setup, neither in the data nor in the storage. -/
def isConfiguration : EngineError → Bool
  | noStrategy _ | duplicateStrategy _ | inactiveInterface _ => true
  | document _ | store _ => false

end EngineError

namespace Strategy

variable {σ H L : Type}

def keptLines (st : Strategy H L) (binding : LineBinding L) : List L :=
  (binding.lines.filter fun line => line.isClean || st.settings.linePolicy == .keep).map (·.record)

/-- The errors of a run: those of the header, those of groups, then those of lines. -/
def errorLog (headerErrors : List BindingError) (binding : LineBinding L) : ErrorLog :=
  headerErrors.map (⟨.header, ·⟩) ++ binding.groupErrors.map (⟨.lineGroup, ·⟩) ++
    binding.lines.flatMap fun line => line.errors.map (⟨.line line.number, ·⟩)

/-- Closes an attempt whose run came to its end. -/
def settle (st : Strategy H L) (log : ErrorLog) (a : Attempt) : Attempt :=
  if log.isEmpty then a.succeed else a.fail (log.render st.settings.messageLimit)

/-- Closes an attempt whose run was stopped. -/
def stop (st : Strategy H L) (cause : String) (a : Attempt) : Attempt :=
  a.fail <| truncateMessage
    ("Failed to process " ++ st.documentType ++ " document: " ++ cause) st.settings.messageLimit

/-- Binds and stores the lines of a document under a header that is stored. -/
def runLines (st : Strategy H L) (storage : Storage σ H L) (client : String) (d : Document)
    (header : Nat) (headerErrors : List BindingError) (a : Attempt) (s : σ) : Attempt × σ :=
  match bindLines st.transforms st.line d (st.rules client st.settings.lineTable) with
  | .error crash => (st.stop crash.message a, s)
  | .ok binding =>
    let kept := st.keptLines binding
    match (if kept.isEmpty then .ok s else storage.saveLines header client kept s) with
    | .error e => (st.stop e.description a, s)
    | .ok s => (st.settle (errorLog headerErrors binding) a, s)

/-- Runs an open attempt to its end. -/
def run (st : Strategy H L) (storage : Storage σ H L) (client : String) (octets : Octets)
    (a : Attempt) (s : σ) : Attempt × σ :=
  match Document.parse octets with
  | .error m => (st.stop m.message a, s)
  | .ok d =>
    let a := { a with content := some d.canonical }
    match bindHeader st.transforms st.header d (st.rules client st.settings.headerTable) with
    | .error crash => (st.stop crash.message a, s)
    | .ok (record, headerErrors) =>
      match storage.saveHeader client record s with
      | .error e => (st.stop e.description a, s)
      | .ok (header, s) => st.runLines storage client d header headerErrors a s

/-- Opens an attempt: the last one for the file and the interface again, or a new one. -/
def start (storage : Storage σ H L) (filename : String) (i : Interface) (s : σ) :
    Except StoreError (Attempt × σ) :=
  match storage.find filename i.id s with
  | .error e => .error e
  | .ok (some a) => .ok (a.restart, s)
  | .ok none =>
    let a := Attempt.new filename i.id i.client
    match storage.create a s with
    | .error e => .error e
    | .ok (id, s) => .ok ({ a with id := some id }, s)

/-- Records that no attempt could be opened, as an attempt that failed. -/
def recordCritical (st : Strategy H L) (storage : Storage σ H L) (filename : String) (i : Interface)
    (cause : StoreError) (s : σ) : Except EngineError Attempt × σ :=
  let message :=
    "Critical error in " ++ st.documentType ++ " document processing: " ++ cause.description
  let a := (Attempt.new filename i.id i.client).fail (truncateMessage message st.settings.messageLimit)
  match storage.create a s with
  | .error e => (.error (.store e), s)
  | .ok (id, s) => (.ok { a with id := some id }, s)

/-- Processes a document. The result is an attempt that has ended, unless it could not be stored. -/
def process (st : Strategy H L) (storage : Storage σ H L) (doc : Inbound) (i : Interface) (s : σ) :
    Except EngineError Attempt × σ :=
  match start storage doc.filename i s with
  | .error e => st.recordCritical storage doc.filename i e s
  | .ok (a, s) =>
    let (a, s) := st.run storage i.client doc.octets a s
    match storage.update a s with
    | .error e => (.error (.store e), s)
    | .ok s => (.ok a, s)

end Strategy

end Interchange.Engine
