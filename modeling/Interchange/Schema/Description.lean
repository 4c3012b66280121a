import Interchange.Json

/-!
Descriptions of schemas: a banner, then the elements that the schema declares, and behind them, where a
client asks, the client's mapping rules.
-/

namespace Interchange.Schema

/-- How the elements of a complex type are put together. -/
inductive Compositor where
  | sequence
  | choice
  | all
  deriving DecidableEq, Repr

def Compositor.name : Compositor → String
  | .sequence => "sequence"
  | .choice => "choice"
  | .all => "all"

/-- A bound on the values of a simple type. -/
structure Facet where
  kind : String
  value : String
  deriving DecidableEq, Repr

/-- The type that a simple type restricts, and how. -/
structure Restriction where
  base : Option String
  facets : List Facet
  deriving DecidableEq, Repr

/-- What an element says of itself. The extras are its other attributes, sorted by local name; the last
part is there if it has a simple type. -/
structure Heading where
  name : String
  typeName : Option String
  extras : List (String × String)
  documentation : Option String
  simple : Option (Option Restriction)
  deriving DecidableEq, Repr

/-- The description of an element: without a complex type, with one that has no compositor, or with the
elements under its compositor. -/
inductive Description where
  | plain (heading : Heading)
  | bare (heading : Heading)
  | model (heading : Heading) (compositor : Compositor) (elements : List Description)

namespace Description

def heading : Description → Heading
  | plain h => h
  | bare h => h
  | model h _ _ => h

def name (d : Description) : String := d.heading.name

/-- The descriptions of the elements below. -/
def children : Description → List Description
  | model _ _ elements => elements
  | _ => []

end Description

/-- The root of a schema; its attributes are sorted by local name. -/
structure Banner where
  name : String
  uri : Option String
  attributes : List (String × String)
  deriving DecidableEq, Repr

/-- What a mapping rule looks like beside a schema. -/
structure RuleSummary where
  name : String
  path : String
  field : String
  deriving DecidableEq, Repr

inductive Entry where
  | banner (b : Banner)
  | element (d : Description)
  | rule (r : RuleSummary)

namespace Entry

def name : Entry → String
  | banner b => b.name
  | element d => d.name
  | rule r => r.name

/-- The number of elements below; a banner has none to count. -/
def childCount : Entry → Option Nat
  | element d => some d.children.length
  | _ => none

end Entry

/-! ## Reports -/

/-- A member that is left out when there is nothing to say. -/
def member {α : Type} (key : String) (f : α → JsonValue) : Option α → List (String × JsonValue)
  | some a => [(key, f a)]
  | none => []

/-- A member that is there only to say yes. -/
def flag (key : String) (b : Bool) : List (String × JsonValue) := if b then [(key, .bool true)] else []

def texts (attributes : List (String × String)) : List (String × JsonValue) :=
  attributes.map fun (k, v) => (k, .text v)

def Facet.report (f : Facet) : JsonValue := .object [("type", .text f.kind), ("value", .text f.value)]

/-- The members that come first: name, type, extras and documentation. -/
def Heading.leading (h : Heading) : List (String × JsonValue) :=
  [("name", .text h.name)] ++ member "type" .text h.typeName ++ texts h.extras ++
    member "documentation" .text h.documentation

/-- The members that come last: those of the simple type. -/
def Heading.trailing (h : Heading) : List (String × JsonValue) :=
  flag "hasSimpleType" h.simple.isSome ++
    match h.simple.join with
    | none => []
    | some r =>
      member "baseType" .text r.base ++
        if r.facets.isEmpty then [] else [("facets", .list (r.facets.map Facet.report))]

namespace Description

mutual

/-- The members of a report. An extra may have the key of a member that follows it. -/
def members : Description → List (String × JsonValue)
  | plain h => h.leading ++ h.trailing
  | bare h => h.leading ++ flag "hasComplexType" true ++ h.trailing
  | model h compositor elements =>
    h.leading ++ flag "hasComplexType" true ++
      [("compositor", .text compositor.name), ("elements", .list (reports elements))] ++ h.trailing

def reports : List Description → List JsonValue
  | [] => []
  | d :: rest => .object d.members :: reports rest

end

def report (d : Description) : JsonValue := .object d.members

end Description

def Banner.report (b : Banner) : JsonValue :=
  .object <|
    [("name", .text b.name), ("type", .text "schema")] ++ member "namespace" .text b.uri ++
      if b.attributes.isEmpty then [] else [("attributes", .object (texts b.attributes))]

def RuleSummary.report (r : RuleSummary) : JsonValue :=
  .object [
    ("name", .text r.name), ("xmlPath", .text r.path), ("databaseField", .text r.field),
    ("type", .text "mapping_rule")]

def Entry.report : Entry → JsonValue
  | .banner b => b.report
  | .element d => d.report
  | .rule r => r.report

end Interchange.Schema
