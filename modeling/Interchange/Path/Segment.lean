import Interchange.Path.Expr

/-!
The outer shape of a path: a slash separates steps unless it stands inside brackets or quotes. A path
is cut at all its separators for reading, or at the last one alone to part its last step from the rest.
-/

namespace Interchange.Path

/-- The quote that stands open behind a character. -/
def quoteAfter (quote : Option Char) (c : Char) : Option Char :=
  match quote with
  | some q => if c = q then none else some q
  | none => if c = '\'' || c = '"' then some c else none

/-- Where a character of a path stands: how many brackets are open, and which quote. -/
structure Nesting where
  depth : Nat
  quote : Option Char
  deriving DecidableEq, Repr

namespace Nesting

/-- In front of a path. -/
def start : Nesting := ⟨0, none⟩

/-- The depth behind a character. A closing bracket without an opening one changes nothing. -/
def depthAfter (n : Nesting) (c : Char) : Nat :=
  if n.quote.isSome then n.depth
  else if c = '[' then n.depth + 1
  else if c = ']' then n.depth - 1
  else n.depth

/-- Behind a character. -/
def after (n : Nesting) (c : Char) : Nesting := ⟨n.depthAfter c, quoteAfter n.quote c⟩

/-- Outside all brackets and quotes. -/
def isOutside (n : Nesting) : Bool := n.depth == 0 && n.quote.isNone

end Nesting

/-- Why a path cannot be cut into steps. -/
inductive SegmentFlaw where
  | unbalancedBracket
  | unclosedLiteral
  | unclosedBracket
  deriving DecidableEq, Repr

def SegmentFlaw.message : SegmentFlaw → String
  | .unbalancedBracket => "unbalanced ']'"
  | .unclosedLiteral => "unterminated string literal"
  | .unclosedBracket => "unclosed '['"

/-- Puts a character in front of the first segment. -/
def consFirst (c : Char) : List (List Char) → List (List Char)
  | [] => [[c]]
  | segment :: rest => (c :: segment) :: rest

def segmentsFrom (n : Nesting) : List Char → Except SegmentFlaw (List (List Char))
  | [] =>
    if n.quote.isSome then .error .unclosedLiteral
    else if n.depth ≠ 0 then .error .unclosedBracket
    else .ok [[]]
  | c :: rest =>
    if n.isOutside && c == '/' then (segmentsFrom n rest).map ([] :: ·)
    else if n.isOutside && c == ']' then .error .unbalancedBracket
    else (segmentsFrom (n.after c) rest).map (consFirst c)

/-- The segments of a path's body; there is always one. -/
def segments (body : List Char) : Except SegmentFlaw (List (List Char)) :=
  segmentsFrom .start body

def splitLastFrom (n : Nesting) : List Char → Option (List Char × List Char)
  | [] => none
  | c :: rest =>
    match splitLastFrom (n.after c) rest with
    | some (before, after) => some (c :: before, after)
    | none => if n.isOutside && c == '/' then some ([], rest) else none

/-- Parts a path's last step from the rest. A path whose last separator comes first, or that has none,
is its own parent. -/
def splitLastChars (path : List Char) : List Char × List Char :=
  match splitLastFrom .start path with
  | none => (path, path)
  | some ([], after) => (path, after)
  | some (before, after) => (before, after)

/-- The parent of a path and its last step. -/
def splitLast (path : String) : String × String :=
  let (parent, last) := splitLastChars path.toList
  (String.ofList parent, String.ofList last)

end Interchange.Path
