import Interchange.Engine.Strategy

/-!
Dispatching documents to strategies by document type. Types are told apart up to case and surrounding
white space, and each has one strategy.
-/

namespace Interchange.Engine

/-- The name under which a document type is known. -/
def typeKey (documentType : String) : String := Text.asciiUpper (Text.trim documentType)

/-- A dispatcher: strategies by the names of their types. -/
structure Dispatcher (H L : Type) where
  strategies : List (String × Strategy H L)

namespace Dispatcher

variable {σ H L : Type}

def empty : Dispatcher H L := ⟨[]⟩

/-- Adds a strategy, unless its type has one. -/
def register (d : Dispatcher H L) (st : Strategy H L) : Except EngineError (Dispatcher H L) :=
  let key := typeKey st.documentType
  if (d.strategies.lookup key).isSome then .error (.duplicateStrategy key)
  else .ok ⟨d.strategies ++ [(key, st)]⟩

/-- The strategy of a document type. -/
def strategy (d : Dispatcher H L) (documentType : String) : Except EngineError (Strategy H L) :=
  match d.strategies.lookup (typeKey documentType) with
  | some st => .ok st
  | none => .error (.noStrategy (typeKey documentType))

/-- Processes a document by the strategy of its interface, which has to be active. -/
def dispatch (d : Dispatcher H L) (storage : Storage σ H L) (doc : Inbound) (i : Interface) (s : σ) :
    Except EngineError Attempt × σ :=
  if !i.active then (.error (.inactiveInterface i.name), s)
  else
    match d.strategy i.documentType with
    | .error e => (.error e, s)
    | .ok st => st.process storage doc i s

def types (d : Dispatcher H L) : List String :=
  (d.strategies.map (·.1)).mergeSort fun a b => !(b < a)

def size (d : Dispatcher H L) : Nat := d.strategies.length

end Dispatcher

end Interchange.Engine
