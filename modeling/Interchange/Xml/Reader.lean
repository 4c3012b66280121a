import Interchange.Text.Blank
import Interchange.Xml.Event

/-!
Reading octets into events. The reader checks that markup is closed and that closing tags carry the
name of the tag they close; names, attributes and references are read later. What follows the first
flaw is not read, and what precedes it is kept.
-/

namespace Interchange.Xml

open Text.Utf8 (Octets decode)

/-- Why octets cannot be cut into events. -/
inductive Flaw where
  | unclosedTag
  | unclosedLiteral
  | unclosedComment
  | unclosedDoctype
  | unclosedInstruction
  | unknownMarkup
  | namelessDoctype
  | unclosedReference
  | mismatchedClosing (expected found : String)
  | unmatchedClosing (found : String)
  deriving DecidableEq, Repr

/-- The wording of an end that is missing. -/
def missingEnd (what : String) (delimiter : String) : String :=
  "syntax error: " ++ what ++ " not closed: `" ++ delimiter ++ "` not found before end of input"

def Flaw.message : Flaw → String
  | .unclosedTag => missingEnd "tag" ">"
  | .unclosedLiteral => missingEnd "CDATA" "]]>"
  | .unclosedComment => missingEnd "comment" "-->"
  | .unclosedDoctype => missingEnd "DOCTYPE" ">"
  | .unclosedInstruction => missingEnd "processing instruction or xml declaration" "?>"
  | .unknownMarkup => "syntax error: unknown or missed symbol in markup"
  | .namelessDoctype =>
    "ill-formed document: `<!DOCTYPE>` declaration does not contain a name of a document type"
  | .unclosedReference =>
    "ill-formed document: entity or character reference not closed: `;` not found before end of input"
  | .mismatchedClosing expected found =>
    "ill-formed document: expected `</" ++ expected ++ ">`, but `</" ++ found ++ ">` was found"
  | .unmatchedClosing found =>
    "ill-formed document: close tag `</" ++ found ++ ">` does not match any open tag"

/-! ## Finding where markup ends -/

/-- Cuts at the first octet that `step` stops at; the octet belongs to neither part. -/
def cut {σ : Type} (step : σ → UInt8 → Option σ) (state : σ) : Octets → Option (Octets × Octets)
  | [] => none
  | b :: rest =>
    match step state b with
    | none => some ([], rest)
    | some state => (cut step state rest).map fun (inside, after) => (b :: inside, after)

theorem cut_eq_some {σ : Type} {step : σ → UInt8 → Option σ} {state : σ} {s inside after : Octets}
    (h : cut step state s = some (inside, after)) : ∃ b, s = inside ++ b :: after := by
  induction s generalizing state inside with
  | nil => simp [cut] at h
  | cons b rest ih =>
    simp only [cut] at h
    split at h
    · simp only [Option.some.injEq, Prod.mk.injEq] at h
      exact ⟨b, by simp [← h.1, h.2]⟩
    · obtain ⟨⟨i, a⟩, hr, he⟩ := Option.map_eq_some_iff.1 h
      simp only [Prod.mk.injEq] at he
      obtain ⟨rfl, rfl⟩ := he
      obtain ⟨d, rfl⟩ := ih hr
      exact ⟨d, rfl⟩

theorem length_cut {σ : Type} {step : σ → UInt8 → Option σ} {state : σ} {s inside after : Octets}
    (h : cut step state s = some (inside, after)) : after.length < s.length := by
  obtain ⟨b, rfl⟩ := cut_eq_some h
  simp only [List.length_append, List.length_cons]
  omega

/-- A tag ends at the first `>` outside quotes; the state is the quote that stands open. -/
def tagStep : Option UInt8 → UInt8 → Option (Option UInt8)
  | some q, b => some (if b = q then none else some q)
  | none, b =>
    if b = greaterThan then none
    else some (if b = quoteMark || b = apostrophe then some b else none)

/-- A document type declaration ends at the `>` that balances the brackets opened inside it. -/
def doctypeStep (depth : Nat) (b : UInt8) : Option Nat :=
  if b = lessThan then some (depth + 1)
  else if b = greaterThan then (if depth = 0 then none else some (depth - 1))
  else some depth

/-- Ends at the first `>` in front of which `closes` holds of what was read, last octet first. -/
def closeStep (closes : Octets → Bool) (before : Octets) (b : UInt8) : Option Octets :=
  if b = greaterThan && closes before then none else some (b :: before)

/-- What was read, last octet first, ends like a comment that is longer than its delimiters. -/
def closesComment (before : Octets) : Bool :=
  [hyphen, hyphen].isPrefixOf before && 5 ≤ before.length

def closesLiteral (before : Octets) : Bool := [rightBracket, rightBracket].isPrefixOf before

def closesInstruction (before : Octets) : Bool := [questionMark].isPrefixOf before

/-! ## What markup means -/

/-- The keyword at the front of octets, in any case. -/
def startsWithKeyword (keyword octets : Octets) : Bool :=
  keyword == (octets.take keyword.length).map fun b =>
    if 0x61 ≤ b && b ≤ 0x7A then b - 0x20 else b

/-- `![CDATA[` -/
def literalStart : Octets := [0x21, 0x5B, 0x43, 0x44, 0x41, 0x54, 0x41, 0x5B]

/-- `!DOCTYPE` -/
def doctypeStart : Octets := [0x21, 0x44, 0x4F, 0x43, 0x54, 0x59, 0x50, 0x45]

def literalOf (inside : Octets) : Except Flaw Event :=
  if literalStart.isPrefixOf inside then
    .ok (.literal ((inside.drop literalStart.length).dropLast.dropLast))
  else .error .unclosedLiteral

def commentOf (inside : Octets) : Except Flaw Event :=
  if [exclamation, hyphen, hyphen].isPrefixOf inside then
    .ok (.comment ((inside.drop 3).dropLast.dropLast))
  else .error .unclosedComment

/-- A document type declaration has a name. -/
def doctypeOf (inside : Octets) : Except Flaw Event :=
  if startsWithKeyword doctypeStart inside then
    let name := (inside.drop doctypeStart.length).dropWhile isSpace
    if name.isEmpty then .error .namelessDoctype else .ok (.doctype name)
  else .error .unclosedDoctype

/-- The question mark that opens an instruction does not close it. -/
def instructionOf (inside : Octets) : Except Flaw Event :=
  if inside.length ≤ 1 then .error .unclosedInstruction
  else .ok (.instruction (inside.drop 1).dropLast)

/-- The name in a closing tag: white space behind it is dropped, unless there is nothing else. -/
def closingName (content : Octets) : Octets :=
  if content.all isSpace then content else Text.dropTail isSpace content

def closingOf (inside : Octets) : Except Flaw Event := .ok (.closing (closingName inside))

/-- A tag that ends in a slash is an element without content. -/
def tagOf (inside : Octets) : Except Flaw Event :=
  if inside.getLast? = some slash then .ok (.emptyElement ⟨inside.dropLast⟩)
  else .ok (.opening ⟨inside⟩)

/-! ## One event -/

/-- A flaw and the octets that had not been read when it was found. -/
abbrev Stop := Flaw × Octets

/-- Reads up to the octet that `step` stops at, and makes an event of what was read. -/
def readUpTo {σ : Type} (step : σ → UInt8 → Option σ) (state : σ) (unclosed : Flaw)
    (eventOf : Octets → Except Flaw Event) (s : Octets) : Except Stop (Event × Octets) :=
  match cut step state s with
  | none => .error (unclosed, [])
  | some (inside, after) =>
    match eventOf inside with
    | .ok event => .ok (event, after)
    | .error flaw => .error (flaw, after)

/-- Reads markup of which `<!` and the octet `kind` come next; `s` begins at the `!`. -/
def readDeclaration (kind : UInt8) (s : Octets) : Except Stop (Event × Octets) :=
  if kind = leftBracket then readUpTo (closeStep closesLiteral) [] .unclosedLiteral literalOf s
  else if kind = hyphen then readUpTo (closeStep closesComment) [] .unclosedComment commentOf s
  else if kind = 0x44 || kind = 0x64 then readUpTo doctypeStep 0 .unclosedDoctype doctypeOf s
  else .error (.unknownMarkup, s)

/-- Reads the markup behind a `<`. -/
def readMarkup : Octets → Except Stop (Event × Octets)
  | [] => .error (.unclosedTag, [])
  | b :: rest =>
    if b = exclamation then
      match rest with
      | [] => .error (.unknownMarkup, b :: rest)
      | kind :: _ => readDeclaration kind (b :: rest)
    else if b = slash then readUpTo tagStep none .unclosedTag closingOf rest
    else if b = questionMark then
      readUpTo (closeStep closesInstruction) [] .unclosedInstruction instructionOf (b :: rest)
    else readUpTo tagStep none .unclosedTag tagOf (b :: rest)

/-- An octet that ends a reference, rightly or not. -/
def endsReference (b : UInt8) : Bool := b == semicolon || b == ampersand || b == lessThan

/-- Reads the reference behind an `&`. -/
def readReference (s : Octets) : Except Stop (Event × Octets) :=
  match s.dropWhile (!endsReference ·) with
  | [] => .error (.unclosedReference, [])
  | b :: rest =>
    if b = semicolon then .ok (.reference (s.takeWhile (!endsReference ·)), rest)
    else .error (.unclosedReference, b :: rest)

/-- An octet that ends a run of character data. -/
def endsCharacters (b : UInt8) : Bool := b == lessThan || b == ampersand

/-- Reads one event off octets of which the first is `b`. -/
def readEvent (b : UInt8) (rest : Octets) : Except Stop (Event × Octets) :=
  if b = lessThan then readMarkup rest
  else if b = ampersand then readReference rest
  else .ok (.characters (b :: rest.takeWhile (!endsCharacters ·)), rest.dropWhile (!endsCharacters ·))

/-! ## Every event takes octets -/

theorem length_readUpTo {σ : Type} {step : σ → UInt8 → Option σ} {state : σ} {unclosed : Flaw}
    {eventOf : Octets → Except Flaw Event} {s after : Octets} {e : Event}
    (h : readUpTo step state unclosed eventOf s = .ok (e, after)) : after.length < s.length := by
  unfold readUpTo at h
  split at h
  · simp at h
  · rename_i hc
    split at h
    · simp only [Except.ok.injEq, Prod.mk.injEq] at h
      exact h.2 ▸ length_cut hc
    · simp at h

theorem length_readDeclaration {kind : UInt8} {s after : Octets} {e : Event}
    (h : readDeclaration kind s = .ok (e, after)) : after.length < s.length := by
  unfold readDeclaration at h
  split at h
  · exact length_readUpTo h
  split at h
  · exact length_readUpTo h
  split at h
  · exact length_readUpTo h
  · simp at h

theorem length_readMarkup {s after : Octets} {e : Event} (h : readMarkup s = .ok (e, after)) :
    after.length < s.length := by
  unfold readMarkup at h
  split at h
  · simp at h
  split at h
  · split at h
    · simp at h
    · exact length_readDeclaration h
  split at h
  · exact Nat.lt_succ_of_lt (length_readUpTo h)
  split at h
  · exact length_readUpTo h
  · exact length_readUpTo h

theorem length_readReference {s after : Octets} {e : Event}
    (h : readReference s = .ok (e, after)) : after.length < s.length := by
  unfold readReference at h
  have hle := (List.dropWhile_sublist (!endsReference ·) (l := s)).length_le
  split at h
  · simp at h
  · rename_i hd
    rw [hd, List.length_cons] at hle
    split at h
    · simp only [Except.ok.injEq, Prod.mk.injEq] at h
      rw [← h.2]
      omega
    · simp at h

theorem length_readEvent {b : UInt8} {rest after : Octets} {e : Event}
    (h : readEvent b rest = .ok (e, after)) : after.length < (b :: rest).length := by
  unfold readEvent at h
  split at h
  · exact Nat.lt_succ_of_lt (length_readMarkup h)
  split at h
  · exact Nat.lt_succ_of_lt (length_readReference h)
  · simp only [Except.ok.injEq, Prod.mk.injEq] at h
    have hle := (List.dropWhile_sublist (!endsCharacters ·) (l := rest)).length_le
    rw [← h.2, List.length_cons]
    omega

/-! ## All events -/

/-- What was read: the events, and the flaw that ended the reading with the number of octets in front
of it. -/
structure Reading where
  events : List Event
  flaw : Option (Flaw × Nat)
  deriving DecidableEq, Repr

/-- A name as it is shown in a flaw: empty when it is no text. -/
def shownName (name : Octets) : String :=
  match decode name with
  | .ok cs => String.ofList cs
  | .error _ => ""

/-- The names that stand open after an event, innermost first. -/
def nesting (opened : List Octets) : Event → Except Flaw (List Octets)
  | .opening tag => .ok (tag.name :: opened)
  | .closing name =>
    match opened with
    | [] => .error (.unmatchedClosing (shownName name))
    | expected :: outer =>
      if name = expected then .ok outer
      else .error (.mismatchedClosing (shownName expected) (shownName name))
  | _ => .ok opened

/-- Reads what is left of an input of `total` octets inside the elements of the names `opened`. -/
def readFrom (total : Nat) (opened : List Octets) : Octets → Reading
  | [] => ⟨[], none⟩
  | b :: rest =>
    match h : readEvent b rest with
    | .error (flaw, left) => ⟨[], some (flaw, total - left.length)⟩
    | .ok (event, after) =>
      match nesting opened event with
      | .error flaw => ⟨[], some (flaw, total - after.length)⟩
      | .ok opened =>
        have := length_readEvent h
        let reading := readFrom total opened after
        { reading with events := event :: reading.events }
termination_by s => s.length
decreasing_by assumption

/-- Reads the events of an input. -/
def read (input : Octets) : Reading := readFrom input.length [] input

end Interchange.Xml
