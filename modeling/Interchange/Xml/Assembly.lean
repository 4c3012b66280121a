import Interchange.Xml.Attribute
import Interchange.Xml.Document
import Interchange.Xml.Reader
import Interchange.Xml.Reference

/-!
Documents from events. Neighbouring character data and references make one text, which is dropped when
it holds white space alone; markup without data leaves no trace. A document has one outermost element
and no text outside it.
-/

namespace Interchange.Xml

open Text.Utf8 (Octets decode)

/-- Why octets are no document. -/
inductive Malformed where
  | markup (flaw : Flaw) (position : Nat)
  | encoding (error : Text.Utf8.Error)
  | unknownReference (name : String)
  | attributes (flaw : AttributeFlaw)
  | attributeValue (key : String) (flaw : ValueFlaw)
  | textOutside
  | secondRoot
  | unexpectedClosing (name : String)
  | mismatchedClosing (name opened : String)
  | unclosedElement (name : String)
  | noRoot
  deriving DecidableEq, Repr

/-- What is wrong with a document. -/
def Malformed.reason : Malformed → String
  | .markup flaw position => flaw.message ++ " (at byte " ++ toString position ++ ")"
  | .encoding error => "invalid UTF-8: " ++ error.message
  | .unknownReference name => "unknown entity reference &" ++ name ++ ";"
  | .attributes flaw => flaw.message
  | .attributeValue key flaw => "attribute '" ++ key ++ "': " ++ flaw.message
  | .textOutside => "text content outside the document element"
  | .secondRoot => "document has more than one root element"
  | .unexpectedClosing name => "unexpected closing tag </" ++ name ++ ">"
  | .mismatchedClosing name opened =>
    "closing tag </" ++ name ++ "> does not match <" ++ opened ++ ">"
  | .unclosedElement name => "unexpected end of input inside <" ++ name ++ ">"
  | .noRoot => "document has no root element"

def Malformed.message (m : Malformed) : String := "Malformed XML document: " ++ m.reason

def readText (octets : Octets) : Except Malformed (List Char) :=
  (decode octets).mapError .encoding

/-- A document under construction: what is complete, the elements that stand open, innermost first,
and the characters that are not yet a text, last first. -/
structure Assembly where
  document : Document
  opened : List Nat
  pending : List Char
  opened_lt : ∀ i ∈ opened, i < document.size
  size_pos : 0 < document.size

namespace Assembly

/-- Nothing has been read. -/
def start : Assembly where
  document := .empty
  opened := []
  pending := []
  opened_lt := by simp
  size_pos := by simp [Document.empty, Document.size]

/-- The node that the next node hangs on. -/
def current (a : Assembly) : Nat := a.opened.head?.getD Document.rootId

theorem current_lt (a : Assembly) : a.current < a.document.size := by
  unfold current
  cases h : a.opened with
  | nil => exact a.size_pos
  | cons i rest => exact a.opened_lt i (by simp [h])

/-- Hangs a text on the current node. -/
def addText (a : Assembly) : Assembly where
  document := a.document.append a.current a.current_lt .child (.text (String.ofList a.pending.reverse))
  opened := a.opened
  pending := []
  opened_lt := fun i hi => by
    rw [Document.size_append]
    exact Nat.lt_succ_of_lt (a.opened_lt i hi)
  size_pos := by simp

/-- Hangs an element with its attributes on the current node, and goes on inside it if `enter` says
so. -/
def addElement (a : Assembly) (enter : Bool) (name : String)
    (attributes : List (String × String)) : Assembly where
  document :=
    (a.document.append a.current a.current_lt .child (.element name)).appendAttributes
      a.document.size (by simp) attributes
  opened := if enter then a.document.size :: a.opened else a.opened
  pending := a.pending
  opened_lt := fun i hi => by
    rw [Document.size_appendAttributes, Document.size_append]
    have hold : i ∈ a.opened → i < a.document.size := a.opened_lt i
    split at hi
    · rcases List.mem_cons.1 hi with rfl | hi
      · omega
      · have := hold hi
        omega
    · have := hold hi
      omega
  size_pos := by
    rw [Document.size_appendAttributes, Document.size_append]
    omega

/-- Goes on outside the innermost open element. -/
def leave (a : Assembly) : Assembly :=
  { a with
    opened := a.opened.tail
    opened_lt := fun i hi => a.opened_lt i (List.mem_of_mem_tail hi) }

/-- More characters for the text at hand. -/
def addCharacters (a : Assembly) (cs : List Char) : Assembly :=
  { a with pending := cs.reverse ++ a.pending }

/-- Makes a node of the text at hand, unless it holds white space alone. -/
def flush (a : Assembly) : Except Malformed Assembly :=
  if a.pending.all Text.isBlank then .ok { a with pending := [] }
  else if a.opened.isEmpty then .error .textOutside
  else .ok a.addText

/-- Reads one attribute: its key, then its value. -/
def readPair (raw : RawAttribute) : Except Malformed (String × String) := do
  let key ← readText raw.key
  let value ← readText raw.value
  let value ← (unescape value).mapError (.attributeValue (String.ofList key))
  return (String.ofList key, String.ofList value)

/-- Reads the attributes of a tag; the first flaw counts. -/
def readPairs (reading : AttributeReading) : Except Malformed (List (String × String)) := do
  let pairs ← reading.attributes.mapM readPair
  match reading.flaw with
  | some flaw => throw (.attributes flaw)
  | none => return pairs

/-- Adds the element of a tag. -/
def openElement (a : Assembly) (enter : Bool) (tag : Tag) : Except Malformed Assembly := do
  let a ← a.flush
  if a.opened.isEmpty && !(a.document.node Document.rootId).children.isEmpty then
    throw .secondRoot
  let name ← readText tag.name
  let pairs ← readPairs tag.attributes
  return a.addElement enter (String.ofList name) pairs

/-- Closes the innermost open element, which must have the name. -/
def closeElement (a : Assembly) (name : Octets) : Except Malformed Assembly := do
  let a ← a.flush
  let name := String.ofList (← readText name)
  match a.opened with
  | [] => throw (.unexpectedClosing name)
  | i :: _ =>
    let opened := (a.document.node i).name
    if opened = name then return a.leave else throw (.mismatchedClosing name opened)

def step (a : Assembly) : Event → Except Malformed Assembly
  | .opening tag => a.openElement true tag
  | .emptyElement tag => a.openElement false tag
  | .closing name => a.closeElement name
  | .characters data => do return a.addCharacters (← readText data)
  | .literal data => do return a.addCharacters (← readText data)
  | .reference name => do
    let name ← readText name
    match resolveReference name with
    | some c => return a.addCharacters [c]
    | none => throw (.unknownReference (String.ofList name))
  | .comment _ => .ok a
  | .instruction _ => .ok a
  | .doctype _ => .ok a

/-- The document, once nothing follows. -/
def finish (a : Assembly) : Except Malformed Document := do
  let a ← a.flush
  match a.opened with
  | i :: _ => throw (.unclosedElement (a.document.node i).name)
  | [] =>
    if (a.document.node Document.rootId).children.isEmpty then throw .noRoot
    else return a.document

end Assembly

/-- The document of what a reader met; the first flaw counts. -/
def Document.ofReading (reading : Reading) : Except Malformed Document := do
  let a ← reading.events.foldlM Assembly.step Assembly.start
  match reading.flaw with
  | some (flaw, position) => throw (.markup flaw position)
  | none => a.finish

/-- The mark that may stand in front of a text in UTF-8. -/
def byteOrderMark : Octets := [0xEF, 0xBB, 0xBF]

def dropMark (input : Octets) : Octets :=
  if byteOrderMark.isPrefixOf input then input.drop byteOrderMark.length else input

/-- Parses octets; up to two marks in front are passed over. -/
def Document.parse (input : Octets) : Except Malformed Document :=
  Document.ofReading (read (dropMark (dropMark input)))

def Document.parseText (text : String) : Except Malformed Document :=
  Document.parse (Text.Utf8.encodeText text)

end Interchange.Xml
