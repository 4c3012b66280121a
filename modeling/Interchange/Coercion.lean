import Interchange.Decimal.Binary64
import Interchange.Rule

/-!
Values and their coercion from text. Numbers may be written with points between groups of digits and
a comma in front of the fraction. A whole number is read like any other number and then rounded.
-/

namespace Interchange

/-- A value for a field. -/
inductive Value where
  | integer (n : Int)
  | decimal (b : Decimal.Binary64)
  | boolean (b : Bool)
  | text (s : String)
  deriving DecidableEq, Repr

/-- What a value or a field holds. -/
inductive ValueKind where
  | integer
  | decimal
  | boolean
  | text
  deriving DecidableEq, Repr

def ValueKind.name : ValueKind → String
  | .integer => "integer"
  | .decimal => "decimal"
  | .boolean => "boolean"
  | .text => "string"

def Value.kind : Value → ValueKind
  | .integer _ => .integer
  | .decimal _ => .decimal
  | .boolean _ => .boolean
  | .text _ => .text

/-- Why a field could not be set. -/
inductive BindingFlaw where
  | unknownField
  | invalidNumber (value : String)
  | invalidBoolean (value : String)
  | outOfRange (value : String)
  | typeMismatch (expected found : ValueKind)
  | missingRequired
  | invalidPath (reason : String)
  deriving DecidableEq, Repr

def BindingFlaw.message : BindingFlaw → String
  | .unknownField => "no such field on the destination record"
  | .invalidNumber value => "'" ++ value ++ "' is not a number"
  | .invalidBoolean value => "'" ++ value ++ "' is not a boolean"
  | .outOfRange value => value ++ " is out of range for the field"
  | .typeMismatch expected found =>
    "cannot assign a " ++ found.name ++ " value to a " ++ expected.name ++ " field"
  | .missingRequired => "required value is missing"
  | .invalidPath reason => reason

namespace Value

/-- A number in the form with a point in front of the fraction and no other marks. A comma makes all
points marks between groups, and so do several points without a comma. -/
def plainNumber (cs : List Char) : List Char :=
  let cs := Text.trimChars cs
  if cs.contains ',' then (cs.filter (· != '.')).map fun c => if c = ',' then '.' else c
  else if 1 < cs.count '.' then cs.filter (· != '.')
  else cs

def readNumber (value : String) : Option Decimal.Binary64 :=
  Decimal.Binary64.read (plainNumber value.toList)

/-- Reads a whole number of 64 bits; a half is rounded away from zero. -/
def readInteger (value : String) : Except BindingFlaw Int :=
  match readNumber value with
  | none => .error (.invalidNumber value)
  | some b =>
    if Decimal.isInt64 b.round then .ok b.round else .error (.outOfRange (Text.trim value))

/-- Reads yes or no; a blank text is no. -/
def readBoolean (value : String) : Except BindingFlaw Bool :=
  let word := Text.asciiLower (Text.trim value)
  if ["true", "1", "yes", "y"].contains word then .ok true
  else if ["false", "0", "no", "n", ""].contains word then .ok false
  else .error (.invalidBoolean value)

/-- The value of a declared type that a text stands for. -/
def coerce (type : DataType) (value : String) : Except BindingFlaw Value :=
  match type with
  | .integer => (readInteger value).map .integer
  | .decimal =>
    match readNumber value with
    | some b => .ok (.decimal b)
    | none => .error (.invalidNumber value)
  | .boolean => (readBoolean value).map .boolean
  | .date => .ok (.text value)
  | .text => .ok (.text value)

end Value

end Interchange
