import Interchange.Binding

/-!
The errors of a run, joined into one message of limited length.
-/

namespace Interchange

/-- Cuts characters to a length, the last three then being points; the points are not cut. -/
def truncateChars (limit : Nat) (cs : List Char) : List Char :=
  if cs.length ≤ limit then cs else cs.take (limit - 3) ++ ['.', '.', '.']

/-- Cuts a message to a number of characters. -/
def truncateMessage (message : String) (limit : Nat) : String :=
  String.ofList (truncateChars limit message.toList)

theorem truncateMessage_of_le {message : String} {limit : Nat}
    (h : message.toList.length ≤ limit) : truncateMessage message limit = message := by
  simp [truncateMessage, truncateChars, h]

theorem length_truncateChars_le {limit : Nat} {cs : List Char} (h : 3 ≤ limit) :
    (truncateChars limit cs).length ≤ limit := by
  unfold truncateChars
  split
  · assumption
  · simp only [List.length_append, List.length_take, List.length_cons, List.length_nil]
    omega

/-- Where in a document an error arose; lines count from one within their group. -/
inductive ErrorScope where
  | header
  | line (number : Nat)
  | lineGroup
  deriving DecidableEq, Repr

def ErrorScope.title : ErrorScope → String
  | .header => "Header"
  | .line number => "Line " ++ toString number
  | .lineGroup => "Line"

/-- An error of a run. -/
structure ErrorEntry where
  scope : ErrorScope
  error : BindingError
  deriving DecidableEq, Repr

def ErrorEntry.message (e : ErrorEntry) : String :=
  e.scope.title ++ " mapping error for " ++ e.error.path ++ ": " ++ e.error.message

/-- The errors of a run, in order. -/
abbrev ErrorLog := List ErrorEntry

/-- All errors in one message of limited length, a semicolon and a space behind each. -/
def ErrorLog.render (log : ErrorLog) (limit : Nat) : String :=
  truncateMessage (String.join (log.map fun e => e.message ++ "; ")) limit

end Interchange
