import Interchange.Calendar.Clock
import Interchange.Decimal.Binary64
import Interchange.Text.Case

/-!
Transforms: functions on texts that are known by name, whatever the case of its letters. Applying one
never fails: blank texts, unknown names and values that a transform refuses are left as they are.
-/

namespace Interchange

/-- Why a transform refuses a value. -/
inductive TransformError where
  | invalidDate (value : String)
  | invalidTime (value : String)
  | invalidNumber (value : String)
  | failed (reason : String)
  deriving DecidableEq, Repr

def TransformError.message : TransformError → String
  | .invalidDate value => "'" ++ value ++ "' is not a date in YYYY-MM-DD form"
  | .invalidTime value => "'" ++ value ++ "' is not a time in HH:MM:SS form"
  | .invalidNumber value => "'" ++ value ++ "' is not a number"
  | .failed reason => reason

/-- A function on texts. -/
abbrev Transform := String → Except TransformError String

namespace Transform

open Text (trimChars)

def date : Transform := fun value =>
  match Calendar.Date.read (trimChars value.toList) with
  | some d => .ok d.text
  | none => .error (.invalidDate value)

/-- A time of day, written in full. -/
def time : Transform := fun value =>
  match Calendar.Clock.read (trimChars value.toList) with
  | some c => .ok c.text
  | none => .error (.invalidTime value)

/-- A whole number of 64 bits without leading zeros. -/
def integer : Transform := fun value =>
  match Decimal.readInteger (trimChars value.toList) with
  | some n => if Decimal.isInt64 n then .ok (toString n) else .error (.invalidNumber value)
  | none => .error (.invalidNumber value)

/-- A number with three digits behind the point. -/
def decimal : Transform := fun value =>
  match Decimal.Binary64.read (trimChars value.toList) with
  | some b => .ok (b.fixed 3)
  | none => .error (.invalidNumber value)

/-- The name of a status code; other values stay. -/
def status : Transform := fun value =>
  .ok (match Text.trim value with
    | "01" => "NEW"
    | "02" => "PROCESSING"
    | "03" => "COMPLETED"
    | "04" => "ERROR"
    | _ => value)

/-- Whether characters have the shape of a pattern in which `d` stands for a digit of ASCII. -/
def hasShape (pattern cs : List Char) : Bool :=
  pattern.length == cs.length &&
    (pattern.zip cs).all fun (p, c) => if p = 'd' then c.isDigit else p == c

/-- Month, day and year with the same mark between them are put into the order year, month, day;
other values stay. -/
def reorderDate : Transform := fun value =>
  let cs := value.toList
  if hasShape "dd/dd/dddd".toList cs || hasShape "dd-dd-dddd".toList cs then
    .ok (String.ofList (cs.drop 6 ++ '-' :: cs.take 2 ++ '-' :: (cs.drop 3).take 2))
  else .ok value

/-- The number that is left without everything but digits, points and hyphens, with two digits behind
the point. -/
def amount : Transform := fun value =>
  match Decimal.Binary64.read (value.toList.filter fun c => c.isDigit || c == '.' || c == '-') with
  | some b => .ok (b.fixed 2)
  | none => .error (.invalidNumber value)

end Transform

/-- Transforms by name, names in lower case and each once. -/
structure TransformTable where
  entries : List (String × Transform)

namespace TransformTable

def empty : TransformTable := ⟨[]⟩

/-- Adds a transform; it takes the place of the one that has its name. -/
def register (t : TransformTable) (name : String) (f : Transform) : TransformTable :=
  let key := Text.asciiLower name
  ⟨t.entries.filter (·.1 != key) ++ [(key, f)]⟩

/-- The transform of a name; white space around the name does not count. -/
def find (t : TransformTable) (name : String) : Option Transform :=
  (t.entries.find? (·.1 == Text.asciiLower (Text.trim name))).map (·.2)

def contains (t : TransformTable) (name : String) : Bool := (t.find name).isSome

def names (t : TransformTable) : List String :=
  (t.entries.map (·.1)).mergeSort fun a b => !(b < a)

/-- What the transform of a name makes of a value, if there is one. -/
def tryApply (t : TransformTable) (name value : String) : Option (Except TransformError String) :=
  (t.find name).map fun f => f value

/-- Applies a transform; a value that it cannot be applied to stays. -/
def apply (t : TransformTable) (name value : String) : String :=
  if Text.isBlankText value then value
  else match t.tryApply name value with
    | some (.ok result) => result
    | _ => value

/-- The transforms that every table starts with. -/
def standard : TransformTable :=
  let t := empty.register "uppercase" fun v => .ok (Text.upper v)
  let t := t.register "lowercase" fun v => .ok (Text.lower v)
  let t := t.register "trim" fun v => .ok (Text.trim v)
  let t := t.register "date_format" Transform.date
  let t := t.register "format_date" Transform.date
  let t := t.register "time_format" Transform.time
  let t := t.register "format_time" Transform.time
  let t := t.register "remove_leading_zeros" Transform.integer
  let t := t.register "parse_integer" Transform.integer
  let t := t.register "decimal_format" Transform.decimal
  let t := t.register "format_decimal" Transform.decimal
  let t := t.register "status_code" Transform.status
  let t := t.register "map_status" Transform.status
  let t := t.register "date" Transform.reorderDate
  t.register "number" Transform.amount

end TransformTable

end Interchange
