/-!
Location paths: an absolute or relative list of steps, each along an axis, with a test and with
predicates that thin out what the step selects.
-/

namespace Interchange

namespace Path

inductive Axis where
  | child
  | attr
  | self
  | parent
  deriving DecidableEq, Repr

/-- Which nodes of an axis a step selects: those of a name, those of the axis's own kind, texts, or
all. -/
inductive NodeTest where
  | name (name : String)
  | any
  | text
  | node
  deriving DecidableEq, Repr

/-- What a predicate looks at. -/
inductive Operand where
  | attr (name : String)
  | child (name : String)
  | context
  deriving DecidableEq, Repr

/-- Positions count from one. -/
inductive Predicate where
  | position (position : Nat)
  | last
  | holds (operand : Operand)
  | equals (operand : Operand) (literal : String)
  deriving DecidableEq, Repr

/-- A step; a recursive one starts from its origin and from every element below it. -/
structure Step where
  recursive : Bool
  axis : Axis
  test : NodeTest
  predicates : List Predicate
  deriving DecidableEq, Repr

end Path

/-- A location path; an absolute one starts at the document. -/
structure Path where
  absolute : Bool
  steps : List Path.Step
  deriving DecidableEq, Repr

end Interchange
