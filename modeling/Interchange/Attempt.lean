/-!
Attempts at processing a file. An attempt starts in processing and ends in success or error; the first
message of a run is the one that counts.
-/

namespace Interchange

inductive AttemptStatus where
  | processing
  | success
  | error
  deriving DecidableEq, Repr

namespace AttemptStatus

def name : AttemptStatus → String
  | .processing => "PROCESSING"
  | .success => "SUCCESS"
  | .error => "ERROR"

def isTerminal (s : AttemptStatus) : Bool := s != .processing

end AttemptStatus

/-- An attempt; a store gives it its number. -/
structure Attempt where
  id : Option Nat
  filename : String
  interfaceId : String
  clientId : String
  status : AttemptStatus
  errorMessage : Option String
  content : Option String
  deriving DecidableEq, Repr

namespace Attempt

def new (filename interfaceId clientId : String) : Attempt :=
  ⟨none, filename, interfaceId, clientId, .processing, none, none⟩

/-- Opens an attempt again: its status, message and content are those of a new one. -/
def restart (a : Attempt) : Attempt :=
  { a with status := .processing, errorMessage := none, content := none }

/-- Ends an attempt in error; a message that is there already stays. -/
def fail (a : Attempt) (message : String) : Attempt :=
  { a with status := .error, errorMessage := some (a.errorMessage.getD message) }

/-- Ends an attempt in success unless it has ended. -/
def succeed (a : Attempt) : Attempt :=
  { a with status := if a.status = .processing then .success else a.status }

def isSuccess (a : Attempt) : Bool := a.status == .success

end Attempt

end Interchange
