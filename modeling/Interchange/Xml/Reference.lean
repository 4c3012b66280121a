import Interchange.Xml.Event

/-!
References: a name or a number between `&` and `;` that stands for a character. In character data a
reference comes as an event of its own; in the value of an attribute it stands in the text.
-/

namespace Interchange.Xml

/-- The five names that every document knows. -/
def namedCharacter : List Char → Option Char
  | ['l', 't'] => some '<'
  | ['g', 't'] => some '>'
  | ['a', 'm', 'p'] => some '&'
  | ['a', 'p', 'o', 's'] => some '\''
  | ['q', 'u', 'o', 't'] => some '"'
  | _ => none

/-! ## Numbers of 32 bits -/

/-- Why a text is no number of 32 bits. -/
inductive NumberFlaw where
  | empty
  | invalidDigit
  | tooLarge
  deriving DecidableEq, Repr

def NumberFlaw.message : NumberFlaw → String
  | .empty => "cannot parse integer from empty string"
  | .invalidDigit => "invalid digit found in string"
  | .tooLarge => "number too large to fit in target type"

/-- The value of a digit in base ten or sixteen. -/
def digitValue (hex : Bool) (c : Char) : Option Nat :=
  if c.isDigit then some (c.toNat - '0'.toNat)
  else if hex && 'a' ≤ c && c ≤ 'f' then some (c.toNat - 'a'.toNat + 10)
  else if hex && 'A' ≤ c && c ≤ 'F' then some (c.toNat - 'A'.toNat + 10)
  else none

/-- Reads digits behind a number; the first digit that is none, or that is one too many, decides. -/
def readDigits (hex : Bool) (number : Nat) : List Char → Except NumberFlaw Nat
  | [] => .ok number
  | c :: rest =>
    match digitValue hex c with
    | none => .error .invalidDigit
    | some d =>
      let number := number * (if hex then 16 else 10) + d
      if number < 0x100000000 then readDigits hex number rest else .error .tooLarge

/-- Reads an unsigned number of 32 bits. -/
def readNumber (hex : Bool) (digits : List Char) : Except NumberFlaw Nat :=
  if digits.isEmpty then .error .empty else readDigits hex 0 digits

/-- The character of a code point, if it is one. -/
def characterOf (n : Nat) : Option Char := if n.isValidChar then some (Char.ofNat n) else none

/-- The base of a number and its digits. -/
def splitBase : List Char → Bool × List Char
  | 'x' :: digits => (true, digits)
  | digits => (false, digits)

/-! ## In character data -/

/-- Reads a number that may carry one plus sign. -/
def readSigned (hex : Bool) : List Char → Except NumberFlaw Nat
  | '+' :: c :: digits => readNumber hex (c :: digits)
  | digits => readNumber hex digits

/-- The character that a reference in character data stands for. -/
def resolveReference (name : List Char) : Option Char :=
  match namedCharacter name with
  | some c => some c
  | none =>
    match name with
    | '#' :: code =>
      let (hex, digits) := splitBase code
      match readSigned hex digits with
      | .ok n => characterOf n
      | .error _ => none
    | _ => none

/-! ## In the value of an attribute -/

/-- Why the number in a reference stands for no character. -/
inductive CharacterFlaw where
  | sign
  | number (flaw : NumberFlaw)
  | noCharacter (number : Nat)
  | null
  deriving DecidableEq, Repr

def CharacterFlaw.message : CharacterFlaw → String
  | .sign => "unexpected number sign"
  | .number flaw => flaw.message
  | .noCharacter n => "`" ++ toString n ++ "` is not a valid codepoint"
  | .null => "0x0 character is not permitted in XML"

/-- Why the value of an attribute cannot be read; places count octets from its start. -/
inductive ValueFlaw where
  | unclosed (start stop : Nat)
  | unknownName (start stop : Nat) (name : String)
  | character (flaw : CharacterFlaw)
  deriving DecidableEq, Repr

def ValueFlaw.message : ValueFlaw → String
  | .unclosed start stop =>
    "Error while escaping character at range " ++ toString start ++ ".." ++ toString stop ++
      ": Cannot find ';' after '&'"
  | .unknownName start stop name =>
    "at " ++ toString start ++ ".." ++ toString stop ++ ": unrecognized entity `" ++ name ++ "`"
  | .character flaw => "invalid character reference: " ++ flaw.message

/-- A number in a reference has no sign and stands for a character other than NUL. -/
def resolveNumber (code : List Char) : Except CharacterFlaw Char :=
  let (hex, digits) := splitBase code
  match digits.head? with
  | some '+' => .error .sign
  | some '-' => .error .sign
  | _ =>
    match readNumber hex digits with
    | .error flaw => .error (.number flaw)
    | .ok n =>
      if n = 0 then .error .null
      else match characterOf n with
        | some c => .ok c
        | none => .error (.noCharacter n)

/-- The length of characters in octets. -/
def octetCount (cs : List Char) : Nat := cs.foldr (fun c n => c.utf8Size + n) 0

/-- The character that a reference stands for; its name begins at octet `start`. -/
def resolveInValue (start : Nat) (name : List Char) : Except ValueFlaw Char :=
  match name with
  | '#' :: code => (resolveNumber code).mapError .character
  | _ =>
    match namedCharacter name with
    | some c => .ok c
    | none => .error (.unknownName start (start + octetCount name) (String.ofList name))

/-- A character that ends a reference, rightly or not. -/
def endsName (c : Char) : Bool := c == '&' || c == ';'

/-- Replaces the references in what is left of a value of `total` octets, from octet `start` on. -/
def unescapeFrom (total start : Nat) : List Char → Except ValueFlaw (List Char)
  | [] => .ok []
  | c :: rest =>
    if c = '&' then
      match h : rest.dropWhile (!endsName ·) with
      | ';' :: after => do
        let name := rest.takeWhile (!endsName ·)
        let d ← resolveInValue (start + 1) name
        have : after.length < rest.length := by
          have hle := (List.dropWhile_sublist (!endsName ·) (l := rest)).length_le
          rw [h, List.length_cons] at hle
          omega
        let ds ← unescapeFrom total (start + octetCount name + 2) after
        return d :: ds
      | _ => .error (.unclosed start total)
    else (unescapeFrom total (start + c.utf8Size) rest).map (c :: ·)
termination_by cs => cs.length

/-- The text that the value of an attribute stands for. -/
def unescape (raw : List Char) : Except ValueFlaw (List Char) :=
  unescapeFrom (octetCount raw) 0 raw

end Interchange.Xml
