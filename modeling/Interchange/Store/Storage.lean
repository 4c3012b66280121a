import Interchange.Store.Records

/-!
Storage of attempts and records: five operations on a state, each of which may fail and then leaves the
state as it was. One storage keeps its tables in memory; another has operations out of service.
-/

namespace Interchange

/-- An operation that failed, and why. -/
structure StoreError where
  operation : String
  message : String
  deriving DecidableEq, Repr

def StoreError.description (e : StoreError) : String :=
  "Store error during " ++ e.operation ++ ": " ++ e.message

/-- A refusal of a table as an error of the storage. -/
def QueryFlaw.error (f : QueryFlaw) : StoreError := ⟨"query on " ++ f.table, f.message⟩

/-- The operations of a storage whose state is a `σ`. -/
structure Storage (σ H L : Type) where
  find : String → String → σ → Except StoreError (Option Attempt)
  create : Attempt → σ → Except StoreError (Nat × σ)
  update : Attempt → σ → Except StoreError σ
  saveHeader : String → H → σ → Except StoreError (Nat × σ)
  saveLines : Nat → String → List L → σ → Except StoreError σ

/-- The tables of attempts and of records. -/
structure Store (H L : Type) where
  attempts : AttemptTable
  records : RecordTable H L
  deriving DecidableEq, Repr

namespace Store

variable {H L : Type}

def empty : Store H L := ⟨.empty, .empty⟩

/-- Storage in tables that are held in memory. -/
def storage : Storage (Store H L) H L where
  find filename interfaceId s := .ok (s.attempts.find filename interfaceId)
  create a s :=
    let (id, attempts) := s.attempts.create a
    .ok (id, { s with attempts := attempts })
  update a s :=
    match s.attempts.update a with
    | .ok attempts => .ok { s with attempts := attempts }
    | .error f => .error f.error
  saveHeader client record s :=
    let (id, records) := s.records.saveHeader client record
    .ok (id, { s with records := records })
  saveLines id client lines s :=
    match s.records.saveLines id client lines with
    | .ok records => .ok { s with records := records }
    | .error f => .error f.error

end Store

/-! ## Outages -/

inductive Operation where
  | find
  | create
  | update
  | saveHeader
  | saveLines
  deriving DecidableEq, Repr

def Operation.name : Operation → String
  | .find => "find"
  | .create => "create"
  | .update => "update"
  | .saveHeader => "save_header"
  | .saveLines => "save_lines"

/-- A state with the operations that are out of service. -/
structure Outage (σ : Type) where
  down : List Operation
  state : σ
  deriving DecidableEq, Repr

namespace Outage

variable {σ H L : Type}

/-- Puts an operation out of service or back into it. -/
def switch (o : Outage σ) (operation : Operation) (off : Bool) : Outage σ :=
  let others := o.down.filter (· != operation)
  { o with down := if off then operation :: others else others }

/-- Runs an operation that is in service. -/
def attempting {α : Type} (o : Outage σ) (operation : Operation) (run : Except StoreError α) :
    Except StoreError α :=
  if o.down.contains operation then .error ⟨operation.name, "table unavailable"⟩ else run

/-- A storage in which operations may be out of service. -/
def storage (inner : Storage σ H L) : Storage (Outage σ) H L where
  find filename interfaceId o := o.attempting .find (inner.find filename interfaceId o.state)
  create a o := o.attempting .create <|
    (inner.create a o.state).map fun (id, s) => (id, { o with state := s })
  update a o := o.attempting .update <| (inner.update a o.state).map fun s => { o with state := s }
  saveHeader client record o := o.attempting .saveHeader <|
    (inner.saveHeader client record o.state).map fun (id, s) => (id, { o with state := s })
  saveLines id client lines o := o.attempting .saveLines <|
    (inner.saveLines id client lines o.state).map fun s => { o with state := s }

end Outage

end Interchange
