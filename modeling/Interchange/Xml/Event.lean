import Interchange.Text.Utf8

/-!
The events that a reader of XML meets: tags, character data, references, and the markup that carries
no data. Events keep the octets between their delimiters as they were written.
-/

namespace Interchange.Xml

open Text.Utf8 (Octets)

/-! ## The octets that delimit markup -/

abbrev quoteMark : UInt8 := 0x22
abbrev apostrophe : UInt8 := 0x27
abbrev ampersand : UInt8 := 0x26
abbrev hyphen : UInt8 := 0x2D
abbrev slash : UInt8 := 0x2F
abbrev semicolon : UInt8 := 0x3B
abbrev lessThan : UInt8 := 0x3C
abbrev equalsSign : UInt8 := 0x3D
abbrev greaterThan : UInt8 := 0x3E
abbrev questionMark : UInt8 := 0x3F
abbrev exclamation : UInt8 := 0x21
abbrev leftBracket : UInt8 := 0x5B
abbrev rightBracket : UInt8 := 0x5D

/-- White space in markup: space, tab, line feed and carriage return. -/
def isSpace (b : UInt8) : Bool := b == 0x20 || b == 0x09 || b == 0x0A || b == 0x0D

/-- What stands between the brackets of an opening or empty tag: a name, then attributes. -/
structure Tag where
  content : Octets
  deriving DecidableEq, Repr

/-- The name of a tag runs to the first white space. -/
def Tag.name (t : Tag) : Octets := t.content.takeWhile (!isSpace ·)

/-- What a reader meets. Only the first six carry data of the document. -/
inductive Event where
  | opening (tag : Tag)
  | emptyElement (tag : Tag)
  | closing (name : Octets)
  | characters (data : Octets)
  | literal (data : Octets)
  | reference (name : Octets)
  | comment (content : Octets)
  | instruction (content : Octets)
  | doctype (content : Octets)
  deriving DecidableEq, Repr

end Interchange.Xml
