import Interchange.Store.Attempts

/-!
The tables of records: headers under numbers counted from one, and lines in the order in which they came,
each with the number of its header.
-/

namespace Interchange

structure StoredHeader (H : Type) where
  id : Nat
  clientId : String
  record : H
  deriving DecidableEq, Repr

structure StoredLine (L : Type) where
  headerId : Nat
  clientId : String
  record : L
  deriving DecidableEq, Repr

structure RecordTable (H L : Type) where
  headers : List (StoredHeader H)
  lines : List (StoredLine L)
  deriving DecidableEq, Repr

namespace RecordTable

variable {H L : Type}

def empty : RecordTable H L := ⟨[], []⟩

def header? (t : RecordTable H L) (id : Nat) : Option (StoredHeader H) :=
  t.headers.find? (·.id == id)

def linesOf (t : RecordTable H L) (id : Nat) : List (StoredLine L) :=
  t.lines.filter (·.headerId == id)

/-- Puts in a header under the next number. -/
def saveHeader (t : RecordTable H L) (client : String) (record : H) : Nat × RecordTable H L :=
  let id := t.headers.length + 1
  (id, { t with headers := t.headers ++ [⟨id, client, record⟩] })

/-- Puts in lines of a header that is there. -/
def saveLines (t : RecordTable H L) (id : Nat) (client : String) (records : List L) :
    Except QueryFlaw (RecordTable H L) :=
  if (t.header? id).isSome then
    .ok { t with lines := t.lines ++ records.map fun r => ⟨id, client, r⟩ }
  else .error (.noHeader id)

end RecordTable

end Interchange
