import Interchange.Attempt

/-!
The table of attempts. An attempt gets the next number, counted from one, and keeps its place.
-/

namespace Interchange

/-- Why a table refuses a request. -/
inductive QueryFlaw where
  | unnumberedAttempt
  | noAttempt (id : Nat)
  | noHeader (id : Nat)
  deriving DecidableEq, Repr

namespace QueryFlaw

def table : QueryFlaw → String
  | unnumberedAttempt | noAttempt _ => "processed_files"
  | noHeader _ => "headers"

def details : QueryFlaw → String
  | unnumberedAttempt => "attempt has no id"
  | noAttempt id => "no attempt with id " ++ toString id
  | noHeader id => "no header with id " ++ toString id

def message (f : QueryFlaw) : String := "Query error on `" ++ f.table ++ "`: " ++ f.details

end QueryFlaw

/-- Attempts by number: the first has number one. -/
structure AttemptTable where
  rows : List Attempt
  deriving DecidableEq, Repr

namespace AttemptTable

def empty : AttemptTable := ⟨[]⟩

def get? (t : AttemptTable) : Nat → Option Attempt
  | 0 => none
  | n + 1 => t.rows[n]?

/-- The attempt of the greatest number for a file and an interface. -/
def find (t : AttemptTable) (filename interfaceId : String) : Option Attempt :=
  t.rows.reverse.find? fun a => a.filename == filename && a.interfaceId == interfaceId

/-- Puts in an attempt under the next number. -/
def create (t : AttemptTable) (a : Attempt) : Nat × AttemptTable :=
  let id := t.rows.length + 1
  (id, ⟨t.rows ++ [{ a with id := some id }]⟩)

/-- Puts an attempt in the place of the one that has its number. -/
def update (t : AttemptTable) (a : Attempt) : Except QueryFlaw AttemptTable :=
  match a.id with
  | none => .error .unnumberedAttempt
  | some id =>
    if (t.get? id).isSome then .ok ⟨t.rows.set (id - 1) a⟩ else .error (.noAttempt id)

theorem get?_create (t : AttemptTable) (a : Attempt) :
    (t.create a).2.get? (t.create a).1 = some { a with id := some (t.create a).1 } := by
  simp [create, get?]

end AttemptTable

end Interchange
