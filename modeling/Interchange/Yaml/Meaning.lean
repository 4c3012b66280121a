import Interchange.Decimal.Shortest
import Interchange.Text.Quoted
import Interchange.Yaml.Node

/-!
What scalars stand for: nothing, truth values, whole numbers, numbers or texts.
-/

namespace Interchange.Yaml

/-- The value of a scalar. A number that is no finite one is told by its name. -/
inductive Meaning where
  | nothing
  | boolean (b : Bool)
  | integer (n : Int)
  | number (b : Decimal.Binary64)
  | special (name : String)
  | text (s : String)
  deriving DecidableEq, Repr

def isNull (s : String) : Bool := s == "null" || s == "Null" || s == "NULL" || s == "~"

def readBoolean (s : String) : Option Bool :=
  if s == "true" || s == "True" || s == "TRUE" then some true
  else if s == "false" || s == "False" || s == "FALSE" then some false
  else none

/-! ## Whole numbers -/

/-- The number that digits stand for, of which there is one at least. -/
def readDigits (base : Nat) (digits : List Char) : Option Nat :=
  if digits.isEmpty then none
  else digits.foldlM (fun n c => ((hexDigit c).filter (· < base)).map (n * base + ·)) 0

/-- The base that a number names in front of its digits. -/
def splitBase : List Char → Option (Nat × List Char)
  | '0' :: 'x' :: rest => some (16, rest)
  | '0' :: 'o' :: rest => some (8, rest)
  | '0' :: 'b' :: rest => some (2, rest)
  | _ => none

/-- A zero in front of other digits makes a text of them. -/
def isZeroLed (cs : List Char) : Bool :=
  match (Decimal.splitSign cs).2 with
  | '0' :: rest => Decimal.isDigits rest
  | _ => false

/-- Reads digits in the base that is named in front of them. -/
def readMagnitude (cs : List Char) : Option Nat :=
  match splitBase cs with
  | some (base, digits) => readDigits base digits
  | none => readDigits 10 cs

def readInteger (s : String) : Option Int :=
  let (negative, body) := Decimal.splitSign s.toList
  if isZeroLed s.toList then none
  else (readMagnitude body).map fun n => if negative then -(n : Int) else n

/-- The whole numbers of 128 bits, with or without a sign. -/
def isInt128 (n : Int) : Bool :=
  -0x80000000000000000000000000000000 ≤ n && n < 0x100000000000000000000000000000000

/-! ## Numbers -/

def isInfinity (s : String) : Bool := s == ".inf" || s == ".Inf" || s == ".INF"

/-- Reads a number that need not be whole. -/
def readNumber (s : String) : Option Meaning :=
  match s.toList with
  | '+' :: rest =>
    if isInfinity (String.ofList rest) then some (.special "inf")
    else if rest.head?.any fun c => c == '+' || c == '-' then none
    else (Decimal.Binary64.read rest).map .number
  | cs =>
    if isInfinity s then some (.special "inf")
    else if s == "-.inf" || s == "-.Inf" || s == "-.INF" then some (.special "-inf")
    else if s == ".nan" || s == ".NaN" || s == ".NAN" then some (.special "NaN")
    else (Decimal.Binary64.read cs).map .number

/-! ## Scalars -/

/-- What a plain scalar without a tag stands for. -/
def Meaning.ofPlain (s : String) : Meaning :=
  if s.isEmpty || isNull s then .nothing
  else
    match readBoolean s, (readInteger s).filter isInt128 with
    | some b, _ => .boolean b
    | none, some n => .integer n
    | none, none => ((if isZeroLed s.toList then none else readNumber s)).getD (.text s)

def booleanTag : String := "tag:yaml.org,2002:bool"
def integerTag : String := "tag:yaml.org,2002:int"
def numberTag : String := "tag:yaml.org,2002:float"
def nullTag : String := "tag:yaml.org,2002:null"

/-- A tag of an application's own. -/
def isLocalTag (tag : String) : Bool := tag.toList.head? == some '!'

/-- What a scalar stands for, or what its tag asks for in vain. -/
def Meaning.ofScalar (tag : Option String) (style : ScalarStyle) (s : String) :
    Except String Meaning :=
  let demand (expected : String) (m : Option Meaning) : Except String Meaning :=
    m.elim (.error expected) .ok
  match tag with
  | none => .ok (if style = .plain then .ofPlain s else .text s)
  | some tag =>
    if tag = booleanTag then demand "a boolean" ((readBoolean s).map .boolean)
    else if tag = integerTag then
      demand "an integer" (((readInteger s).filter isInt128).map .integer)
    else if tag = numberTag then demand "a float" (readNumber s)
    else if tag = nullTag then demand "null" (if isNull s then some .nothing else none)
    else .ok (if isLocalTag tag && style = .plain then .ofPlain s else .text s)

/-- A number with a point in it. -/
def pointed (b : Decimal.Binary64) : String :=
  let s := b.shortest
  if s.contains '.' then s else s ++ ".0"

/-- The words for a value in messages. -/
def Meaning.message : Meaning → String
  | .nothing => "unit value"
  | .boolean b => "boolean `" ++ toString b ++ "`"
  | .integer n =>
    let width :=
      if n < -0x8000000000000000 then " as i128"
      else if 0x10000000000000000 ≤ n then " as u128"
      else ""
    "integer `" ++ toString n ++ "`" ++ width
  | .number b => "floating point `" ++ pointed b ++ "`"
  | .special name => "floating point `" ++ name ++ "`"
  | .text s => "string " ++ Text.quoted s

end Interchange.Yaml
