import Interchange.Decimal.Shortest
import Interchange.Json

/-!
The text of values. Items and members stand on lines of their own, two spaces further in than the list or
the object that holds them.
-/

namespace Interchange

/-- The text of a number: at least one digit on either side of the point. Numbers from ten to the
sixteenth upwards, and those below the fifth place behind the point, have an exponent. -/
def Decimal.Binary64.jsonText (b : Binary64) : String :=
  if b.significand = 0 then b.sign ++ "0.0"
  else
    let (n, k) := b.shortestDigits
    let digits := toString n
    let point := digits.length + k
    if 0 ≤ k ∧ point ≤ 16 then b.sign ++ toString (n * Nat.pow 10 k.toNat) ++ ".0"
    else if -5 < point ∧ point ≤ 16 then
      let scale := Nat.pow 10 (-k).toNat
      b.sign ++ toString (n / scale) ++ "." ++ padZeros (-k).toNat (n % scale)
    else
      let scale := Nat.pow 10 (digits.length - 1)
      let fraction :=
        if n < 10 then "" else "." ++ padZeros (digits.length - 1) (n % scale)
      b.sign ++ toString (n / scale) ++ fraction ++ "e" ++ toString (point - 1)

namespace JsonValue

/-- A character between quotes: quotes, backslashes and control characters are escaped. -/
def escaped (c : Char) : List Char :=
  if c = '"' ∨ c = '\\' then ['\\', c]
  else if c = '\n' then ['\\', 'n']
  else if c = '\r' then ['\\', 'r']
  else if c = '\t' then ['\\', 't']
  else if c.toNat = 8 then ['\\', 'b']
  else if c.toNat = 12 then ['\\', 'f']
  else if c.toNat < 32 then
    ['\\', 'u', '0', '0', Nat.digitChar (c.toNat / 16), Nat.digitChar (c.toNat % 16)]
  else [c]

def quotedText (s : String) : String := "\"" ++ String.ofList (s.toList.flatMap escaped) ++ "\""

/-- The start of a line at a depth. -/
def lineStart (depth : Nat) : String := "\n" ++ String.ofList (List.replicate (2 * depth) ' ')

/-- Lines between brackets; without any, the brackets stand alone. -/
def bracketed (opening closing : String) (depth : Nat) : List String → String
  | [] => opening ++ closing
  | lines =>
    opening ++ String.intercalate "," (lines.map (lineStart (depth + 1) ++ ·)) ++ lineStart depth ++
      closing

mutual

/-- The text of a value that stands at a depth. -/
def textAt (depth : Nat) : JsonValue → String
  | null => "null"
  | bool b => if b then "true" else "false"
  | integer n => toString n
  | decimal b => b.jsonText
  | text s => quotedText s
  | list items => bracketed "[" "]" depth (itemTexts (depth + 1) items)
  | object members => bracketed "\x7b" "\x7d" depth (memberTexts (depth + 1) members)

def itemTexts (depth : Nat) : List JsonValue → List String
  | [] => []
  | v :: rest => textAt depth v :: itemTexts depth rest

def memberTexts (depth : Nat) : List (String × JsonValue) → List String
  | [] => []
  | (key, v) :: rest => (quotedText key ++ ": " ++ textAt depth v) :: memberTexts depth rest

end

def toText (v : JsonValue) : String := textAt 0 v

end JsonValue

end Interchange
