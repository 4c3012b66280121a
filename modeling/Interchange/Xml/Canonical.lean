import Interchange.Xml.Document

/-!
The canonical form of a document: a declaration, then every element without line breaks between them,
with runs of white space in texts folded. Attribute values keep their white space.
-/

namespace Interchange.Xml

/-- A character as it is written in a text or an attribute value. -/
def escapeChar (c : Char) : List Char :=
  if c = '<' then ['&', 'l', 't', ';']
  else if c = '>' then ['&', 'g', 't', ';']
  else if c = '&' then ['&', 'a', 'm', 'p', ';']
  else if c = '\'' then ['&', 'a', 'p', 'o', 's', ';']
  else if c = '"' then ['&', 'q', 'u', 'o', 't', ';']
  else [c]

def escape (cs : List Char) : List Char := cs.flatMap escapeChar

/-- The declaration in front of a canonical document. -/
def declaration : String := "<?xml version=\"1.0\" encoding=\"UTF-8\"?>"

namespace Document

/-- An attribute inside a tag, with the space in front of it. -/
def attributeChars (d : Document) (a : Nat) : List Char :=
  ' ' :: (d.node a).name.toList ++ ['=', '"'] ++
    escape (((d.node a).value.getD "").toList) ++ ['"']

/-- The name and the attributes of an element. -/
def tagChars (d : Document) (i : Nat) : List Char :=
  (d.node i).name.toList ++ (d.node i).attributes.flatMap d.attributeChars

/-- What is written for a node whose children are written as `inner`. -/
def wrapChars (d : Document) (i : Nat) (inner : List Char) : List Char :=
  match (d.node i).content with
  | .document => declaration.toList ++ inner
  | .element name =>
    if (d.node i).children.isEmpty then '<' :: d.tagChars i ++ ['/', '>']
    else '<' :: d.tagChars i ++ '>' :: inner ++ ['<', '/'] ++ name.toList ++ ['>']
  | .text value => escape (Text.collapseChars value.toList)
  | .attr _ _ => []

/-- What is written for a node and all below it. -/
def canonicalChars (d : Document) (i : Nat) : List Char :=
  d.wrapChars i ((d.node i).children.attach.flatMap fun ⟨c, _⟩ => d.canonicalChars c)
termination_by d.size - i
decreasing_by
  rename_i h
  have := lt_of_mem_children h
  omega

/-- The canonical form of a document. -/
def canonical (d : Document) : String := String.ofList (d.canonicalChars rootId)

end Document

end Interchange.Xml
