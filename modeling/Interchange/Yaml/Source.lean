/-!
YAML text as it is read: places in lines and columns, kinds of characters, and what is left to read with
the place where it begins. Every line break of the text is one character.
-/

namespace Interchange.Yaml

/-- A place in a text; lines and columns are counted from zero. -/
structure Mark where
  line : Nat
  column : Nat
  deriving DecidableEq, Repr

namespace Mark

def start : Mark := ⟨0, 0⟩

def message (m : Mark) : String :=
  "line " ++ toString (m.line + 1) ++ " column " ++ toString (m.column + 1)

/-- Where a place is named, except the first of a text. -/
def suffix (m : Mark) : String := if m = start then "" else " at " ++ m.message

end Mark

/-! ## Characters -/

def isBlank (c : Char) : Bool := c == ' ' || c == '\t'

/-- A line break: a line feed, a line separator or a paragraph separator. -/
def isBreak (c : Char) : Bool := c == '\n' || c.toNat == 0x2028 || c.toNat == 0x2029

def isSpace (c : Char) : Bool := isBlank c || isBreak c

/-- A character of the names of anchors, directives and handles. -/
def isWord (c : Char) : Bool := c.isAlphanum || c == '_' || c == '-'

/-- The number that a digit in base sixteen stands for. -/
def hexDigit (c : Char) : Option Nat :=
  if '0' ≤ c && c ≤ '9' then some (c.toNat - '0'.toNat)
  else if 'a' ≤ c && c ≤ 'f' then some (c.toNat - 'a'.toNat + 10)
  else if 'A' ≤ c && c ≤ 'F' then some (c.toNat - 'A'.toNat + 10)
  else none

/-- The number that digits in base sixteen stand for. -/
def hexNumber (digits : List Char) : Option Nat :=
  digits.foldlM (fun n c => (hexDigit c).map (n * 16 + ·)) 0

/-- The characters that a text may hold. -/
def isAdmitted (c : Char) : Bool :=
  let n := c.toNat
  n == 0x09 || n == 0x0A || n == 0x0D || (0x20 ≤ n && n ≤ 0x7E) || n == 0x85 ||
    (0xA0 ≤ n && n ≤ 0xD7FF) || (0xE000 ≤ n && n ≤ 0xFFFD && n != 0xFEFF) || 0x10000 ≤ n

/-- Writes a line feed for each carriage return, line feed, pair of both, and next line. -/
def unifyBreaks : List Char → List Char
  | '\r' :: '\n' :: rest => '\n' :: unifyBreaks rest
  | '\r' :: rest => '\n' :: unifyBreaks rest
  | c :: rest => (if c.toNat = 0x85 then '\n' else c) :: unifyBreaks rest
  | [] => []

/-- Drops the byte order mark in front of a text. -/
def dropByteOrderMark : List Char → List Char
  | c :: rest => if c.toNat = 0xFEFF then rest else c :: rest
  | [] => []

/-! ## What is left to read -/

/-- What is left to read, and the place where it begins. -/
structure Cursor where
  rest : List Char
  mark : Mark
  deriving DecidableEq, Repr

namespace Cursor

def passed (m : Mark) (c : Char) : Mark :=
  if isBreak c then ⟨m.line + 1, 0⟩ else ⟨m.line, m.column + 1⟩

/-- Moves past the first `n` characters. -/
def advance (c : Cursor) (n : Nat) : Cursor :=
  ⟨c.rest.drop n, (c.rest.take n).foldl passed c.mark⟩

/-- Takes the characters in front that satisfy `p`. -/
def span (c : Cursor) (p : Char → Bool) : List Char × Cursor :=
  let taken := c.rest.takeWhile p
  (taken, c.advance taken.length)

/-- Moves past the characters in front that satisfy `p`. -/
def skip (c : Cursor) (p : Char → Bool) : Cursor := (c.span p).2

/-- Moves past `n` characters or fewer that satisfy `p`. -/
def skipAtMost (c : Cursor) (n : Nat) (p : Char → Bool) : Cursor :=
  c.advance ((c.rest.take n).takeWhile p).length

def at? (c : Cursor) (n : Nat) : Option Char := c.rest[n]?

def isAt (c : Cursor) (x : Char) : Bool := c.rest.head? == some x

/-- The text, or the line, ends `n` places on, or there is a blank. -/
def spaceAt (c : Cursor) (n : Nat) : Bool := (c.at? n).all isSpace

def endsLine (c : Cursor) : Bool := (c.at? 0).all isBreak

/-- Moves past the line break that is here, if one is. -/
def skipBreak (c : Cursor) : Cursor := c.skipAtMost 1 isBreak

/-- Moves past blanks and a comment. -/
def skipComment (c : Cursor) : Cursor :=
  let c := c.skip isBlank
  if c.isAt '#' then c.skip (!isBreak ·) else c

/-- Three marks alone at the front of a line begin or end a document. -/
def atIndicator (c : Cursor) (x : Char) : Bool :=
  c.mark.column == 0 && [x, x, x].isPrefixOf c.rest && c.spaceAt 3

def atDocumentBoundary (c : Cursor) : Bool := c.atIndicator '-' || c.atIndicator '.'

theorem rest_span (c : Cursor) (p : Char → Bool) : (c.span p).2.rest = c.rest.dropWhile p := by
  show c.rest.drop (c.rest.takeWhile p).length = c.rest.dropWhile p
  induction c.rest with
  | nil => rfl
  | cons x rest ih => by_cases h : p x <;> simp [h, ih]

theorem length_advance (c : Cursor) (n : Nat) :
    (c.advance n).rest.length = c.rest.length - n := by
  simp [advance]

end Cursor

end Interchange.Yaml
