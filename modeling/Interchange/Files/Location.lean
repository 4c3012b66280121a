import Interchange.Text.Blank

/-!
Locations of files: names with slashes between them. Empty names and single points stand for the folder
in front of them, two points for the folder around it.
-/

namespace Interchange.Files

/-- A location as it is written. -/
abbrev Location := String

namespace Location

def isAbsolute (p : Location) : Bool := p.toList.head? == some '/'

/-- A location relative to another, unless it is absolute. -/
def join (base p : Location) : Location :=
  if isAbsolute p || base.isEmpty then p
  else if base.toList.getLast? == some '/' then base ++ p
  else base ++ "/" ++ p

def pieces (p : Location) : List String := (p.toList.splitOn '/').map String.ofList

def isIdle (piece : String) : Bool := piece == "" || piece == "."

/-- The names on the way to a location. -/
def names (p : Location) : List String := (pieces p).filter (!isIdle ·)

/-- The name of a file without the way to it. -/
def lastName (p : Location) : Option String := (names p).getLast?.filter (· != "..")

/-- Whether a location is a name and nothing else. -/
def isBare (p : Location) : Bool :=
  !isAbsolute p && (pieces p).head? != some "." && (names p).length == 1

/-- Whether a location can only be a folder. -/
def isFolderLike (p : Location) : Bool := (pieces p).getLast?.any isIdle

/-- The folder around a location; the top of all folders has none, nor has the empty location. -/
def parent (p : Location) : Option Location :=
  match pieces p with
  | [] => none
  | first :: rest =>
    match (Text.dropTail isIdle rest).dropLast with
    | [] =>
      if first.isEmpty then (if rest.all isIdle then none else some "/")
      else if rest.all isIdle then some ""
      else some first
    | between =>
      match Text.dropTail isIdle between with
      | [] => some (if first.isEmpty then "/" else first)
      | kept => some (String.intercalate "/" (first :: kept))

end Location

end Interchange.Files
