import Interchange.Path.Selection
import Interchange.Shape
import Interchange.Transform

/-!
Binding one rule: the value that the rule's path selects, or else its fallback, is transformed, coerced
to the declared type and put into the field. A rule whose path selects nothing and that has no fallback
does nothing, unless a value is required.
-/

namespace Interchange

open Xml (Document)

/-- A field that could not be set by a rule. -/
structure BindingError where
  path : String
  field : String
  flaw : BindingFlaw
  deriving DecidableEq, Repr

def BindingError.message (e : BindingError) : String :=
  "Failed to set field " ++ e.field ++ ": " ++ e.flaw.message

namespace Rule

/-- The error of a rule that meets a flaw. -/
def error (r : Rule) (flaw : BindingFlaw) : BindingError := ⟨r.path, r.field, flaw⟩

/-- The value that a rule makes of what it finds. -/
def transformed (r : Rule) (transforms : TransformTable) (raw : String) : String :=
  match r.transform with
  | some name => if Text.isBlankText name then raw else transforms.apply name raw
  | none => raw

/-- Puts what a rule finds into its field. -/
def bind {R : Type} (r : Rule) (transforms : TransformTable) (fields : FieldTable R) (raw : String)
    (record : R) : Except Obstacle R :=
  match fields.find r.field with
  | none => .error (.flaw .unknownField)
  | some setter =>
    match Value.coerce r.type (r.transformed transforms raw) with
    | .error flaw => .error (.flaw flaw)
    | .ok value => setter.assign value record

/-- What a rule finds at a path: a value, or nothing, or no path at all. -/
def extract (r : Rule) (d : Document) (context : Nat) (path : String) :
    Except BindingFlaw (Option String) :=
  match d.valueOf context path with
  | .error e => .error (.invalidPath e.message)
  | .ok (some value) => .ok (some value)
  | .ok none =>
    match r.fallback with
    | some value => .ok (some value)
    | none => if r.required then .error .missingRequired else .ok none

/-- Applies a rule to a record: what its path selects from a context goes into its field. -/
def apply {R : Type} (r : Rule) (transforms : TransformTable) (fields : FieldTable R) (d : Document)
    (context : Nat) (path : String) (record : R) : Except Obstacle R :=
  match r.extract d context path with
  | .error flaw => .error (.flaw flaw)
  | .ok none => .ok record
  | .ok (some raw) => r.bind transforms fields raw record

end Rule

end Interchange
