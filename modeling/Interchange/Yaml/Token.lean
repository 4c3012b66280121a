import Interchange.Yaml.Scalar

/-!
Tokens, and the reading of those that carry names: anchors, tags and directives.
-/

namespace Interchange.Yaml

/-- A tag as it is written: a handle, empty if the address is given in full, and an address. -/
structure TagName where
  handle : String
  address : String
  deriving DecidableEq, Repr

inductive TokenKind where
  | streamEnd
  | version (major minor : Nat)
  | handle (name address : String)
  | documentStart
  | documentEnd
  | blockSequenceStart
  | blockMappingStart
  | blockEnd
  | flowSequenceStart
  | flowSequenceEnd
  | flowMappingStart
  | flowMappingEnd
  | blockEntry
  | flowEntry
  | key
  | value
  | alias (name : String)
  | anchor (name : String)
  | tag (name : TagName)
  | scalar (style : ScalarStyle) (text : String)
  deriving DecidableEq, Repr

/-- A token and the place where it begins. -/
structure Token where
  kind : TokenKind
  mark : Mark
  deriving DecidableEq, Repr

/-- The place behind an indicator of one character. -/
def Token.after (t : Token) : Mark := ⟨t.mark.line, t.mark.column + 1⟩

/-! ## Anchors -/

/-- The name of an anchor or an alias may be followed by these characters. -/
def endsAnchor (c : Cursor) : Bool :=
  c.spaceAt 0 || (c.at? 0).any ['?', ':', ',', ']', '\x7d', '%', '@', Char.ofNat 0x60].contains

/-- Reads the name behind the indicator of an anchor or an alias. -/
def readAnchor (construct : Construct) (c : Cursor) : Except Fault (String × Cursor) :=
  let start := c.mark
  let (name, c) := (c.advance 1).span isWord
  if name.isEmpty || !endsAnchor c then .error ⟨.anchorName, c.mark, some (construct, start)⟩
  else .ok (String.ofList name, c)

/-! ## Tags -/

/-- The characters of addresses; those given in full may hold the indicators of flow style. -/
def isAddress (full : Bool) (c : Char) : Bool :=
  isWord c ||
    [';', '/', '?', ':', '@', '&', '=', '+', '$', '.', '%', '!', '~', '*', '\'', '(', ')'].contains c ||
    (full && (c == ',' || c == '[' || c == ']'))

/-- The number of octets of a character that begins with this octet. -/
def octetWidth (octet : Nat) : Option Nat :=
  if octet < 0x80 then some 1
  else if 0xC0 ≤ octet && octet < 0xE0 then some 2
  else if 0xE0 ≤ octet && octet < 0xF0 then some 3
  else if 0xF0 ≤ octet && octet < 0xF8 then some 4
  else none

/-- Reads an octet that is written as a percent sign and two digits in base sixteen. -/
def readOctet (construct : Construct) (start : Mark) (c : Cursor) : Except Fault (Nat × Cursor) :=
  match c.rest with
  | '%' :: a :: b :: _ =>
    match hexNumber [a, b] with
    | some octet => .ok (octet, c.advance 3)
    | none => .error ⟨.addressEscape, c.mark, some (construct, start)⟩
  | _ => .error ⟨.addressEscape, c.mark, some (construct, start)⟩

/-- Reads `n` more octets of a character. -/
def readTrailingOctets (construct : Construct) (start : Mark) :
    Nat → Cursor → Except Fault Cursor
  | 0, c => .ok c
  | n + 1, c =>
    match readOctet construct start c with
    | .error e => .error e
    | .ok (octet, after) =>
      if 0x80 ≤ octet && octet < 0xC0 then readTrailingOctets construct start n after
      else .error ⟨.addressTrailingOctet, c.mark, some (construct, start)⟩

/-- Reads a character that is written as octets. Characters beyond ASCII are not told apart. -/
def readAddressEscape (construct : Construct) (start : Mark) (c : Cursor) :
    Except Fault (Char × Cursor) := do
  let (octet, after) ← readOctet construct start c
  match octetWidth octet with
  | none => throw ⟨.addressLeadingOctet, c.mark, some (construct, start)⟩
  | some width =>
    let after ← readTrailingOctets construct start (width - 1) after
    return (if width = 1 then Char.ofNat octet else '\ufffd', after)

/-- Reads the characters of an address. -/
def addressFrom (full : Bool) (construct : Construct) (start : Mark) :
    Nat → List Char → Cursor → Except Fault (List Char × Cursor)
  | 0, text, c => .ok (text.reverse, c)
  | fuel + 1, text, c =>
    match c.rest with
    | [] => .ok (text.reverse, c)
    | x :: _ =>
      if x = '%' then
        match readAddressEscape construct start c with
        | .ok (x, c) => addressFrom full construct start fuel (x :: text) c
        | .error e => .error e
      else if isAddress full x then addressFrom full construct start fuel (x :: text) (c.advance 1)
      else .ok (text.reverse, c)

/-- Reads an address of which the characters in `front` have been read. -/
def readAddress (full mayBeEmpty : Bool) (construct : Construct) (start : Mark) (front : List Char)
    (c : Cursor) : Except Fault (String × Cursor) := do
  let (text, after) ← addressFrom full construct start (c.rest.length + 1) [] c
  if text.isEmpty && !mayBeEmpty then
    throw ⟨.addressMissing, after.mark, some (construct, start)⟩
  return (String.ofList (front ++ text), after)

/-- Reads the letters of a handle that begins with the exclamation mark here. -/
def readHandle (c : Cursor) : List Char × Cursor :=
  let (name, c) := (c.advance 1).span isWord
  if c.isAt '!' then ('!' :: name ++ ['!'], c.advance 1) else ('!' :: name, c)

/-- Whether a handle has a name, or is the second of the two default ones. -/
def isNamedHandle (handle : List Char) : Bool := 1 < handle.length && handle.getLast? == some '!'

/-- Reads the name of a tag. A mark that opens no handle belongs to the default handle, and a mark
alone stands for itself. -/
def readTagName (start : Mark) (c : Cursor) : Except Fault (TagName × Cursor) := do
  if c.at? 1 == some '<' then
    let (address, c) ← readAddress true false .tagAddress start [] (c.advance 2)
    if c.isAt '>' then return (⟨"", address⟩, c.advance 1)
    else throw ⟨.addressEnd, c.mark, some (.tag, start)⟩
  else
    let (handle, c) := readHandle c
    if isNamedHandle handle then
      let (address, c) ← readAddress false false .tagAddress start [] c
      return (⟨String.ofList handle, address⟩, c)
    else
      let (address, c) ← readAddress false true .tagAddress start (handle.drop 1) c
      return (if address.isEmpty then ⟨"", "!"⟩ else ⟨"!", address⟩, c)

/-- Reads the tag that begins here; white space follows it, or a comma in flow style. -/
def readTag (inFlow : Bool) (c : Cursor) : Except Fault (TagName × Cursor) := do
  let (name, after) ← readTagName c.mark c
  if after.spaceAt 0 || (inFlow && after.isAt ',') then return (name, after)
  else throw ⟨.tagEnd, after.mark, some (.tag, c.mark)⟩

/-! ## Directives -/

/-- Reads a part of a version. -/
def readVersionPart (start : Mark) (c : Cursor) : Except Fault (Nat × Cursor) :=
  let (digits, after) := c.span Char.isDigit
  if 9 < digits.length then
    .error ⟨.versionLength, (c.advance 9).mark, some (.versionDirective, start)⟩
  else if digits.isEmpty then .error ⟨.versionMissing, c.mark, some (.versionDirective, start)⟩
  else .ok (digits.foldl (fun n d => n * 10 + (d.toNat - '0'.toNat)) 0, after)

def readVersion (start : Mark) (c : Cursor) : Except Fault (TokenKind × Cursor) := do
  let (major, c) ← readVersionPart start (c.skip isBlank)
  if !c.isAt '.' then throw ⟨.versionDigit, c.mark, some (.versionDirective, start)⟩
  let (minor, c) ← readVersionPart start (c.advance 1)
  return (.version major minor, c)

/-- Reads the handle that a directive declares. -/
def readDeclaredHandle (start : Mark) (c : Cursor) : Except Fault (List Char × Cursor) :=
  if !c.isAt '!' then .error ⟨.handleMark, c.mark, some (.tagDirectiveHandle, start)⟩
  else
    let (handle, c) := readHandle c
    if handle.length = 1 || isNamedHandle handle then .ok (handle, c)
    else .error ⟨.handleMark, c.mark, some (.tagDirectiveName, start)⟩

def readHandleDirective (start : Mark) (c : Cursor) : Except Fault (TokenKind × Cursor) := do
  let (handle, c) ← readDeclaredHandle start (c.skip isBlank)
  if !(c.at? 0).any isBlank then throw ⟨.handleSpace, c.mark, some (.tagDirective, start)⟩
  let (address, c) ← readAddress true false .tagDirectiveAddress start [] (c.skip isBlank)
  if !c.spaceAt 0 then throw ⟨.tagEnd, c.mark, some (.tagDirective, start)⟩
  return (.handle (String.ofList handle) address, c)

/-- Reads the directive that begins here, with the rest of its line. -/
def readDirective (c : Cursor) : Except Fault (TokenKind × Cursor) := do
  let start := c.mark
  let (name, c) := (c.advance 1).span isWord
  if name.isEmpty then throw ⟨.namelessDirective, c.mark, some (.directive, start)⟩
  if !c.spaceAt 0 then throw ⟨.directiveName, c.mark, some (.directive, start)⟩
  let (kind, c) ←
    match String.ofList name with
    | "YAML" => readVersion start c
    | "TAG" => readHandleDirective start c
    | _ => throw ⟨.unknownDirective, c.mark, some (.directive, start)⟩
  let c := c.skipComment
  if c.endsLine then return (kind, c.skipBreak)
  else throw ⟨.directiveEnd, c.mark, some (.directive, start)⟩

end Interchange.Yaml
