import Interchange.Files.Access

/-!
A folder held in memory: files by the names on the way to them. What lies around the folder is a folder
of which nothing else is known.
-/

namespace Interchange.Files

open Text.Utf8 (Octets)

/-- A file, and the names on the way to it. -/
structure StoredFile where
  names : List String
  content : Octets
  deriving DecidableEq, Repr

/-- A folder: its files, and the folders in it. -/
structure Folder where
  files : List StoredFile
  folders : List (List String)
  deriving DecidableEq, Repr

/-- Where a location leads. -/
inductive Place where
  | within (names : List String)
  | around
  deriving DecidableEq, Repr

namespace Folder

def empty : Folder := ⟨[], []⟩

def file? (d : Folder) (names : List String) : Option Octets :=
  (d.files.find? (·.names == names)).map (·.content)

def isFolder (d : Folder) (names : List String) : Bool := names.isEmpty || d.folders.contains names

/-- Writes a file; the folders on the way to it are made. -/
def write (d : Folder) (p : Location) (content : Octets) : Folder :=
  let names := Location.names p
  let way := (List.range names.length).map fun n => names.take n
  ⟨⟨names, content⟩ :: d.files.filter (·.names != names),
    d.folders ++ (way.filter fun f => !d.isFolder f)⟩

/-- Removes a file, if there is one; folders stay. -/
def remove (d : Folder) (p : Location) : Folder :=
  { d with files := d.files.filter (·.names != Location.names p) }

/-- Goes on to a name from a place, which has to be a folder. -/
def step (d : Folder) (place : Place) (name : String) : Except FileFlaw Place :=
  match place with
  | .around => if name == ".." then .ok .around else .error .missing
  | .within names =>
    if !d.isFolder names then
      .error (if (d.file? names).isSome then .folderOnTheWay else .missing)
    else if name == ".." then
      .ok (if names.isEmpty then .around else .within names.dropLast)
    else .ok (.within (names ++ [name]))

/-- Finds a location. Absolute ones lead out of the folder, all to the top or to nothing. -/
def find (d : Folder) (p : Location) : Except FileFlaw Place :=
  if p.isEmpty then .error .missing
  else if Location.isAbsolute p then
    if (Location.names p).all (· == "..") then .ok .around else .error .missing
  else (Location.names p).foldlM d.step (.within [])

def read (d : Folder) (p : Location) : Except FileFlaw Octets := do
  match ← d.find p with
  | .around => throw .folder
  | .within names =>
    if d.isFolder names then throw .folder
    match d.file? names with
    | some content => if Location.isFolderLike p then throw .folderOnTheWay else return content
    | none => throw .missing

def isFile (d : Folder) (p : Location) : Bool := (d.read p).isOk

/-- Access to the files of a folder. -/
def access (d : Folder) : Access Id where
  read p := d.read p
  isFile p := d.isFile p

end Folder

end Interchange.Files
