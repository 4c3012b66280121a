import Interchange.Json

/-!
Interfaces: agreements with a client on the documents of one type.
-/

namespace Interchange

structure Interface where
  id : String
  client : String
  name : String
  documentType : String
  schema : Option String
  active : Bool
  deriving DecidableEq, Repr

namespace Interface

/-- An active interface without a schema. -/
def new (id client name documentType : String) : Interface :=
  ⟨id, client, name, documentType, none, true⟩

/-- The interface as it is reported. -/
def report (i : Interface) : JsonValue :=
  .object [
    ("id", .text i.id),
    ("client", .text i.client),
    ("name", .text i.name),
    ("document_type", .text i.documentType),
    ("schema_reference", .optional .text i.schema),
    ("active", .bool i.active)]

end Interface

end Interchange
