import Interchange.Files.Location
import Interchange.Text.Utf8

/-!
Access to files: reading a file, and asking whether there is one.
-/

namespace Interchange.Files

open Text.Utf8 (Octets)

/-- Why a file cannot be read. -/
inductive FileFlaw where
  | missing
  | folderOnTheWay
  | folder
  | notText
  | refused (reason : String)
  deriving DecidableEq, Repr

def FileFlaw.message : FileFlaw → String
  | .missing => "No such file or directory (os error 2)"
  | .folderOnTheWay => "Not a directory (os error 20)"
  | .folder => "Is a directory (os error 21)"
  | .notText => "stream did not contain valid UTF-8"
  | .refused reason => reason

/-- The means by which files are reached. -/
structure Access (m : Type → Type) where
  read : Location → m (Except FileFlaw Octets)
  isFile : Location → m Bool

namespace Access

def textOf (octets : Octets) : Except FileFlaw String :=
  match Text.Utf8.decode octets with
  | .ok cs => .ok (String.ofList cs)
  | .error _ => .error .notText

def readText {m : Type → Type} [Monad m] (files : Access m) (p : Location) :
    m (Except FileFlaw String) := do
  match ← files.read p with
  | .ok octets => return textOf octets
  | .error e => return .error e

end Access

end Interchange.Files
