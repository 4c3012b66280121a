import Interchange.Coercion
import Interchange.Text.Case

/-!
The shapes of records: where a record starts from, and a setter for each field name. Names are known
in every case style, by their words in lower case.
-/

namespace Interchange

/-! ## Field names -/

namespace FieldName

def isSeparator (c : Char) : Bool := c == '_' || c == '-' || c == ' ' || c == '.'

/-- Whether a word starts at `c` between `previous` and `next`: at the capital behind a small letter
or a digit, and at the last capital of several. -/
def startsWord (previous : Char) (c : Char) (next : Option Char) : Bool :=
  Text.isUppercase c &&
    (Text.isLowercase previous || previous.isDigit ||
      (Text.isUppercase previous && next.any Text.isLowercase))

/-- The words of what is left of a name; `word` is the word at hand and `previous` the character in
front. -/
def wordsFrom (previous : Char) (word : List Char) : List Char → List (List Char)
  | [] => if word.isEmpty then [] else [word]
  | c :: rest =>
    if isSeparator c then
      if word.isEmpty then wordsFrom c [] rest else word :: wordsFrom c [] rest
    else if !word.isEmpty && startsWord previous c rest.head? then
      word :: wordsFrom c (Text.lowerOf c) rest
    else wordsFrom c (word ++ Text.lowerOf c) rest

/-- The words of a name, in lower case. -/
def words (name : List Char) : List (List Char) := wordsFrom '_' [] (Text.trimChars name)

/-- The form under which a name is known: its words with underscores between them. -/
def normalize (name : String) : String :=
  String.intercalate "_" ((words name.toList).map String.ofList)

end FieldName

/-! ## Setters -/

/-- A setter that broke down. -/
structure Crash where
  message : String
  deriving DecidableEq, Repr

/-- How a field of a record is set. -/
inductive Setter (R : Type) where
  | int32 (set : Int → R → Except Crash R)
  | int64 (set : Int → R → Except Crash R)
  | float64 (set : Decimal.Binary64 → R → Except Crash R)
  | boolean (set : Bool → R → Except Crash R)
  | text (set : String → R → Except Crash R)

/-- What kept a value from a field: a flaw, or a setter that broke down. -/
inductive Obstacle where
  | flaw (flaw : BindingFlaw)
  | crash (crash : Crash)
  deriving DecidableEq, Repr

namespace Setter

variable {R : Type}

/-- The kind of value that a setter takes. -/
def kind : Setter R → ValueKind
  | int32 _ => .integer
  | int64 _ => .integer
  | float64 _ => .decimal
  | boolean _ => .boolean
  | text _ => .text

/-- Sets a field. The kind must be right, and a whole number must fit. -/
def assign (s : Setter R) (value : Value) (record : R) : Except Obstacle R :=
  match s, value with
  | int32 set, .integer n =>
    if Decimal.isInt32 n then (set n record).mapError .crash
    else .error (.flaw (.outOfRange (toString n)))
  | int64 set, .integer n => (set n record).mapError .crash
  | float64 set, .decimal b => (set b record).mapError .crash
  | boolean set, .boolean b => (set b record).mapError .crash
  | text set, .text s => (set s record).mapError .crash
  | s, value => .error (.flaw (.typeMismatch s.kind value.kind))

end Setter

/-- Setters by field name, each name once. -/
structure FieldTable (R : Type) where
  entries : List (String × Setter R)

namespace FieldTable

variable {R : Type}

def empty : FieldTable R := ⟨[]⟩

/-- Adds a setter; it takes the place of the one that has its name. -/
def add (t : FieldTable R) (name : String) (setter : Setter R) : FieldTable R :=
  let key := FieldName.normalize name
  ⟨t.entries.filter (·.1 != key) ++ [(key, setter)]⟩

def int32 (t : FieldTable R) (name : String) (set : R → Int → R) : FieldTable R :=
  t.add name (.int32 fun v r => .ok (set r v))

def int64 (t : FieldTable R) (name : String) (set : R → Int → R) : FieldTable R :=
  t.add name (.int64 fun v r => .ok (set r v))

def float64 (t : FieldTable R) (name : String) (set : R → Decimal.Binary64 → R) : FieldTable R :=
  t.add name (.float64 fun v r => .ok (set r v))

def boolean (t : FieldTable R) (name : String) (set : R → Bool → R) : FieldTable R :=
  t.add name (.boolean fun v r => .ok (set r v))

def text (t : FieldTable R) (name : String) (set : R → String → R) : FieldTable R :=
  t.add name (.text fun v r => .ok (set r v))

/-- The setter of a field, in whatever case style its name is written. -/
def find (t : FieldTable R) (name : String) : Option (Setter R) :=
  (t.entries.find? (·.1 == FieldName.normalize name)).map (·.2)

def size (t : FieldTable R) : Nat := t.entries.length

end FieldTable

/-- The shape of records: what a new record holds, and how its fields are set. -/
structure Shape (R : Type) where
  initial : R
  fields : FieldTable R

end Interchange
