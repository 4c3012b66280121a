import Interchange.Decimal.Binary64

/-!
Values in the form in which reports are handed out. The members of an object keep their order.
-/

namespace Interchange

inductive JsonValue where
  | null
  | bool (b : Bool)
  | integer (n : Int)
  | decimal (b : Decimal.Binary64)
  | text (s : String)
  | list (items : List JsonValue)
  | object (members : List (String × JsonValue))
  deriving Repr

namespace JsonValue

/-- A value that may be absent. -/
def optional {α : Type} (f : α → JsonValue) : Option α → JsonValue
  | some a => f a
  | none => null

end JsonValue

end Interchange
