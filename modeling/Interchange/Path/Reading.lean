import Interchange.Path.Segment
import Interchange.Text.Letter

/-!
Reading paths. White space around a path, around the name of a step and around predicates is passed
over; the first flaw from the left is reported.
-/

namespace Interchange

namespace Path

/-- Why a text is no path. -/
inductive Flaw where
  | empty
  | segment (flaw : SegmentFlaw)
  | trailingSlash
  | tripleSlash
  | attributeName (name : String)
  | step (text : String)
  | predicateOn (head : String)
  | textAfterStep (text : String)
  | emptyPredicate
  | position (text : String)
  | zeroPosition
  | operand (text : String)
  | literal (text : String)
  deriving DecidableEq, Repr

def Flaw.message : Flaw → String
  | .empty => "empty expression"
  | .segment flaw => flaw.message
  | .trailingSlash => "trailing '/'"
  | .tripleSlash => "'///' is not a valid step"
  | .attributeName name => "invalid attribute name '" ++ name ++ "'"
  | .step text => "invalid step '" ++ text ++ "'"
  | .predicateOn head => "predicates are not allowed on '" ++ head ++ "'"
  | .textAfterStep text => "unexpected text '" ++ text ++ "' after step"
  | .emptyPredicate => "empty predicate"
  | .position text => "invalid position '" ++ text ++ "'"
  | .zeroPosition => "positions start at 1"
  | .operand text => "unsupported predicate operand '" ++ text ++ "'"
  | .literal text => "expected a quoted literal, found '" ++ text ++ "'"

/-- A text that is no path, and why. -/
structure Invalid where
  path : String
  flaw : Flaw
  deriving DecidableEq, Repr

def Invalid.message (e : Invalid) : String :=
  "Invalid path '" ++ e.path ++ "': " ++ e.flaw.message

/-! ## Names and literals -/

def isNameChar (c : Char) : Bool :=
  Text.isAlphanumeric c || c == '_' || c == '-' || c == '.' || c == ':'

/-- A name starts with a letter or underscore and does not end in a colon. -/
def isName : List Char → Bool
  | [] => false
  | c :: rest =>
    (Text.isAlphabetic c || c == '_') && rest.all isNameChar && (c :: rest).getLast? != some ':'

def readOperand (text : List Char) : Except Flaw Operand :=
  let bad : Except Flaw Operand := .error (.operand (String.ofList text))
  if text = ['.'] || text = "text()".toList then .ok .context
  else match text with
    | '@' :: name => if isName name then .ok (.attr (String.ofList name)) else bad
    | _ => if isName text then .ok (.child (String.ofList text)) else bad

/-- A literal is all that stands between a quote at the front and the same quote at the back. -/
def readLiteral (text : List Char) : Except Flaw String :=
  let bad : Except Flaw String := .error (.literal (String.ofList text))
  match text with
  | [] => bad
  | quote :: rest =>
    if (quote == '\'' || quote == '"') && rest.getLast? == some quote then
      .ok (String.ofList rest.dropLast)
    else bad

/-- The number that decimal digits stand for. -/
def digitsValue (digits : List Char) : Nat :=
  digits.foldl (fun n c => n * 10 + (c.toNat - '0'.toNat)) 0

def readPredicate (text : List Char) : Except Flaw Predicate :=
  if text.isEmpty then .error .emptyPredicate
  else if text = "last()".toList then .ok .last
  else if text.all Char.isDigit then
    let n := digitsValue text
    if 0x10000000000000000 ≤ n then .error (.position (String.ofList text))
    else if n = 0 then .error .zeroPosition
    else .ok (.position n)
  else match Text.splitOnce '=' text with
    | some (left, right) => do
      let operand ← readOperand (Text.trimChars left)
      let literal ← readLiteral (Text.trimChars right)
      return .equals operand literal
    | none => (readOperand text).map .holds

/-! ## Steps -/

/-- Cuts at the first closing bracket outside quotes; `quote` is the quote that stands open. -/
def cutBracket (quote : Option Char) : List Char → Option (List Char × List Char)
  | [] => none
  | c :: rest =>
    if quote.isNone && c == ']' then some ([], rest)
    else
      (cutBracket (quoteAfter quote c) rest).map fun (inside, after) => (c :: inside, after)

theorem length_cutBracket {quote : Option Char} {s inside after : List Char}
    (h : cutBracket quote s = some (inside, after)) : after.length < s.length := by
  induction s generalizing quote inside with
  | nil => simp [cutBracket] at h
  | cons c rest ih =>
    rw [cutBracket] at h
    split at h
    · simp only [Option.some.injEq, Prod.mk.injEq] at h
      simp [h.2]
    · obtain ⟨⟨i, a⟩, hr, he⟩ := Option.map_eq_some_iff.1 h
      simp only [Prod.mk.injEq] at he
      obtain ⟨rfl, rfl⟩ := he
      exact Nat.lt_succ_of_lt (ih hr)

/-- Reads the predicates behind a step. -/
def readPredicates : List Char → Except Flaw (List Predicate)
  | [] => .ok []
  | c :: rest =>
    if c = '[' then
      match h : cutBracket none rest with
      | none => .error (.segment .unclosedBracket)
      | some (inside, after) => do
        have : (Text.trimLeft after).length < (c :: rest).length := by
          have hcut := length_cutBracket h
          have hle := (List.dropWhile_sublist Text.isBlank (l := after)).length_le
          simp only [Text.trimLeft, List.length_cons]
          omega
        let predicate ← readPredicate (Text.trimChars inside)
        let more ← readPredicates (Text.trimLeft after)
        return predicate :: more
    else .error (.textAfterStep (String.ofList (c :: rest)))
termination_by s => s.length
decreasing_by assumption

/-- The axis and the test that the head of a step stands for. -/
def readHead (segment head : List Char) : Except Flaw (Axis × NodeTest) :=
  if head = ['.'] then .ok (.self, .node)
  else if head = ['.', '.'] then .ok (.parent, .node)
  else if head = ['*'] then .ok (.child, .any)
  else if head = "text()".toList then .ok (.child, .text)
  else if head = "node()".toList then .ok (.child, .node)
  else if head = ['@', '*'] then .ok (.attr, .any)
  else match head with
    | '@' :: name =>
      if isName name then .ok (.attr, .name (String.ofList name))
      else .error (.attributeName (String.ofList name))
    | _ =>
      if isName head then .ok (.child, .name (String.ofList head))
      else .error (.step (String.ofList segment))

/-- Reads a step: a head up to the first bracket, then predicates. -/
def readStep (recursive : Bool) (segment : List Char) : Except Flaw Step := do
  let head := Text.trimChars (segment.takeWhile (· != '['))
  let (axis, test) ← readHead segment head
  let predicates ← readPredicates (segment.dropWhile (· != '['))
  if !predicates.isEmpty && (axis == .self || axis == .parent) then
    throw (.predicateOn (String.ofList head))
  return ⟨recursive, axis, test, predicates⟩

/-- Reads the segments of a path; an empty one makes the next step recursive. -/
def readSteps (recursive : Bool) : List (List Char) → Except Flaw (List Step)
  | [] => .ok []
  | segment :: rest =>
    if segment.isEmpty then
      if rest.isEmpty then .error .trailingSlash
      else if recursive then .error .tripleSlash
      else readSteps true rest
    else do
      let step ← readStep recursive segment
      let steps ← readSteps false rest
      return step :: steps

/-- Reads a path without white space around it. -/
def readTrimmed (path : List Char) : Except Flaw Path :=
  match path with
  | [] => .error .empty
  | '/' :: body => do
    let segments ← (segments body).mapError .segment
    if segments = [[]] then return ⟨true, []⟩
    else return ⟨true, ← readSteps false segments⟩
  | body => do
    let segments ← (segments body).mapError .segment
    return ⟨false, ← readSteps false segments⟩

def parse (path : String) : Except Invalid Path :=
  (readTrimmed (Text.trimChars path.toList)).mapError (⟨path, ·⟩)

end Path

end Interchange
