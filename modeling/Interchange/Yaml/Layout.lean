import Interchange.Yaml.Token

/-!
The tokens of a text. Indentation opens and closes block collections; a token in front of a colon is a
key after all, so the token that says so is put in front of it once the colon has been found.
-/

namespace Interchange.Yaml

/-- A token that would be a key if a colon followed. It must be one if it stands where the entries of
its collection begin. -/
structure Candidate where
  required : Bool
  index : Nat
  mark : Mark
  deriving DecidableEq, Repr

/-- The tokens of the text in front of the cursor; the columns of the open block collections, innermost
first; the candidate of the innermost flow collection and those of the collections around it. -/
structure Layout where
  cursor : Cursor
  tokens : Array Token
  columns : List Nat
  candidate : Option Candidate
  outer : List (Option Candidate)
  keyAllowed : Bool

namespace Layout

def start (text : List Char) : Layout where
  cursor := ⟨text, .start⟩
  tokens := #[]
  columns := []
  candidate := none
  outer := []
  keyAllowed := true

/-- Whether a collection in flow style is open. -/
def inFlow (s : Layout) : Bool := !s.outer.isEmpty

def mark (s : Layout) : Mark := s.cursor.mark

/-- The least column in which the text of the innermost block collection goes on. -/
def floor (s : Layout) : Nat :=
  match s.columns with
  | [] => 0
  | column :: _ => column + 1

def fail {α : Type} (s : Layout) (flaw : Flaw) (within : Option (Construct × Mark)) : Except Fault α :=
  .error ⟨flaw, s.mark, within⟩

def emit (s : Layout) (kind : TokenKind) (mark : Mark) : Layout :=
  { s with tokens := s.tokens.push ⟨kind, mark⟩ }

/-- Puts a token in front of the token of an index. -/
def insert (s : Layout) (index : Nat) (kind : TokenKind) (mark : Mark) : Layout :=
  { s with tokens := s.tokens.insertIdxIfInBounds index ⟨kind, mark⟩ }

/-- Emits an indicator of `width` characters. -/
def indicator (s : Layout) (kind : TokenKind) (width : Nat) : Layout :=
  { s.emit kind s.mark with cursor := s.cursor.advance width }

/-! ## Candidates -/

/-- A key lies on one line and has 1024 characters at most. -/
def isStale (s : Layout) (k : Candidate) : Bool :=
  k.mark.line < s.mark.line || k.mark.column + 1024 < s.mark.column

def dropStale (s : Layout) : Option Candidate → Except Fault (Option Candidate)
  | none => .ok none
  | some k =>
    if !s.isStale k then .ok (some k)
    else if k.required then s.fail .keyWithoutValue (some (.simpleKey, k.mark))
    else .ok none

/-- Gives up the candidates behind which no colon can follow any more. -/
def refresh (s : Layout) : Except Fault Layout := do
  let outer ← s.outer.reverse.mapM s.dropStale
  let candidate ← s.dropStale s.candidate
  return { s with candidate := candidate, outer := outer.reverse }

def dropCandidate (s : Layout) : Except Fault Layout :=
  match s.candidate with
  | some k =>
    if k.required then s.fail .keyWithoutValue (some (.simpleKey, k.mark))
    else .ok { s with candidate := none }
  | none => .ok s

/-- Makes a candidate of the token that comes next, where a key may stand. -/
def noteCandidate (s : Layout) : Except Fault Layout :=
  if s.keyAllowed then do
    let s ← s.dropCandidate
    let required := !s.inFlow && s.columns.head? == some s.mark.column
    return { s with candidate := some ⟨required, s.tokens.size, s.mark⟩ }
  else .ok s

/-! ## Indentation -/

/-- Opens a block collection if its column lies further in than that of the innermost one. -/
def openBlock (s : Layout) (kind : TokenKind) (index : Nat) (mark : Mark) : Layout :=
  if s.inFlow || mark.column < s.floor then s
  else { s.insert index kind mark with columns := mark.column :: s.columns }

/-- Closes the block collections whose columns lie further in than `column`, or all. -/
def closeBlocks (s : Layout) (column : Option Nat) : Layout :=
  if s.inFlow then s
  else
    let closed := s.columns.takeWhile fun c => column.all (· < c)
    let ends := closed.map fun _ => (⟨.blockEnd, s.mark⟩ : Token)
    { s with tokens := s.tokens ++ ends, columns := s.columns.drop closed.length }

/-- Leaves all collections in front of what belongs to no document. -/
def leaveDocument (s : Layout) : Except Fault Layout := do
  let s ← (s.closeBlocks none).dropCandidate
  return { s with keyAllowed := false }

/-! ## Space between tokens -/

/-- Moves to the next token. Tabs are blanks only where no key may stand, and a new line admits a key
outside collections in flow style. -/
def skipSpace : Nat → Layout → Layout
  | 0, s => s
  | fuel + 1, s =>
    let c := s.cursor.skip fun x => x == ' ' || ((s.inFlow || !s.keyAllowed) && x == '\t')
    let c := if c.isAt '#' then c.skip (!isBreak ·) else c
    if c.rest.isEmpty || !c.endsLine then { s with cursor := c }
    else skipSpace fuel { s with cursor := c.skipBreak, keyAllowed := s.keyAllowed || !s.inFlow }

/-! ## Tokens -/

/-- The end of the text counts as a line of its own. -/
def endMark (s : Layout) : Mark :=
  if s.mark.column = 0 then s.mark else ⟨s.mark.line + 1, 0⟩

def readStreamEnd (s : Layout) : Except Fault Layout := do
  let s := { s with cursor := ⟨[], s.endMark⟩ }
  let s ← s.leaveDocument
  return s.emit .streamEnd s.mark

def readDirectiveToken (s : Layout) : Except Fault Layout := do
  let s ← s.leaveDocument
  let (kind, c) ← readDirective s.cursor
  return { s.emit kind s.mark with cursor := c }

def readDocumentIndicator (s : Layout) (kind : TokenKind) : Except Fault Layout := do
  let s ← s.leaveDocument
  return s.indicator kind 3

def readFlowStart (s : Layout) (kind : TokenKind) : Except Fault Layout := do
  let s ← s.noteCandidate
  let s := { s with outer := s.candidate :: s.outer, candidate := none, keyAllowed := true }
  return s.indicator kind 1

def readFlowEnd (s : Layout) (kind : TokenKind) : Except Fault Layout := do
  let s ← s.dropCandidate
  let s :=
    match s.outer with
    | [] => s
    | candidate :: outer => { s with candidate := candidate, outer := outer }
  return { s with keyAllowed := false }.indicator kind 1

def readFlowEntry (s : Layout) : Except Fault Layout := do
  let s ← s.dropCandidate
  return { s with keyAllowed := true }.indicator .flowEntry 1

/-- Opens the block collection that an indicator outside flow style belongs to. -/
def enterBlock (s : Layout) (kind : TokenKind) (flaw : Flaw) : Except Fault Layout :=
  if s.inFlow then .ok s
  else if !s.keyAllowed then s.fail flaw none
  else .ok (s.openBlock kind s.tokens.size s.mark)

def readBlockEntry (s : Layout) : Except Fault Layout := do
  let s ← s.enterBlock .blockSequenceStart .sequenceEntryHere
  let s ← s.dropCandidate
  return { s with keyAllowed := true }.indicator .blockEntry 1

def readKey (s : Layout) : Except Fault Layout := do
  let s ← s.enterBlock .blockMappingStart .mappingKeyHere
  let s ← s.dropCandidate
  return { s with keyAllowed := !s.inFlow }.indicator .key 1

/-- A colon makes a key of the candidate in front of it, or has an empty key. -/
def readValue (s : Layout) : Except Fault Layout :=
  match s.candidate with
  | some k =>
    let s := (s.insert k.index .key k.mark).openBlock .blockMappingStart k.index k.mark
    .ok ({ s with candidate := none, keyAllowed := false }.indicator .value 1)
  | none => do
    let s ← s.enterBlock .blockMappingStart .mappingValueHere
    return { s with keyAllowed := !s.inFlow }.indicator .value 1

/-- Reads a token that may be a key. -/
def readKeyable (s : Layout) (read : Cursor → Except Fault (TokenKind × Cursor)) :
    Except Fault Layout := do
  let s ← s.noteCandidate
  let (kind, c) ← read s.cursor
  return { s.emit kind s.mark with cursor := c, keyAllowed := false }

def readAnchorToken (s : Layout) : Except Fault Layout :=
  s.readKeyable fun c => (readAnchor .anchor c).map fun (name, c) => (.anchor name, c)

def readAliasToken (s : Layout) : Except Fault Layout :=
  s.readKeyable fun c => (readAnchor .alias c).map fun (name, c) => (.alias name, c)

def readTagToken (s : Layout) : Except Fault Layout :=
  s.readKeyable fun c => (readTag s.inFlow c).map fun (name, c) => (.tag name, c)

def readQuotedToken (s : Layout) (double : Bool) : Except Fault Layout :=
  s.readKeyable fun c => (readQuoted double c).map fun (text, c) => (.scalar .quoted text, c)

/-- Reads a plain scalar; a key may stand on a line below it. -/
def readPlainToken (s : Layout) : Except Fault Layout := do
  let s ← s.noteCandidate
  let (text, c, broken) ← readPlain s.inFlow s.floor s.cursor
  return { s.emit (.scalar .plain text) s.mark with cursor := c, keyAllowed := broken }

def readBlockToken (s : Layout) (literal : Bool) : Except Fault Layout := do
  let s ← s.dropCandidate
  let (text, c) ← readBlock literal s.floor s.cursor
  let style := if literal then ScalarStyle.literal else .folded
  return { s.emit (.scalar style text) s.mark with cursor := c, keyAllowed := true }

/-- The characters that begin no plain scalar. -/
def isIndicator (c : Char) : Bool :=
  ['-', '?', ':', ',', '[', ']', '\x7b', '\x7d', '#', '&', '*', '!', '|', '>', '\'', '"', '%', '@',
    Char.ofNat 0x60].contains c

/-- Whether a plain scalar begins with the character here; an indicator may begin one if no blank
follows it. -/
def beginsPlain (s : Layout) (x : Char) : Bool :=
  (!isSpace x && !isIndicator x) || (x == '-' && !(s.cursor.at? 1).any isBlank) ||
    (!s.inFlow && (x == '?' || x == ':') && !s.cursor.spaceAt 1)

/-- Reads the token that begins here. -/
def readToken (s : Layout) : Except Fault Layout :=
  match s.cursor.rest with
  | [] => s.readStreamEnd
  | x :: _ =>
    let alone := s.cursor.spaceAt 1
    if s.mark.column = 0 && x = '%' then s.readDirectiveToken
    else if s.cursor.atIndicator '-' then s.readDocumentIndicator .documentStart
    else if s.cursor.atIndicator '.' then s.readDocumentIndicator .documentEnd
    else if x = '[' then s.readFlowStart .flowSequenceStart
    else if x = '\x7b' then s.readFlowStart .flowMappingStart
    else if x = ']' then s.readFlowEnd .flowSequenceEnd
    else if x = '\x7d' then s.readFlowEnd .flowMappingEnd
    else if x = ',' then s.readFlowEntry
    else if x = '-' && alone then s.readBlockEntry
    else if x = '?' && (s.inFlow || alone) then s.readKey
    else if x = ':' && (s.inFlow || alone) then s.readValue
    else if x = '*' then s.readAliasToken
    else if x = '&' then s.readAnchorToken
    else if x = '!' then s.readTagToken
    else if x = '|' && !s.inFlow then s.readBlockToken true
    else if x = '>' && !s.inFlow then s.readBlockToken false
    else if x = '\'' then s.readQuotedToken false
    else if x = '"' then s.readQuotedToken true
    else if s.beginsPlain x then s.readPlainToken
    else s.fail .noTokenStart (some (.token, s.mark))

/-- Moves to the next token, closes the collections that end in front of it, and reads it. -/
def next (s : Layout) : Except Fault Layout := do
  let s := s.skipSpace (s.cursor.rest.length + 1)
  let s ← s.refresh
  (s.closeBlocks (some s.mark.column)).readToken

/-- The tokens that are certain: those in front of every candidate. -/
def settled (s : Layout) : List Token :=
  let indices := (s.candidate :: s.outer).filterMap fun k => k.map (·.index)
  s.tokens.toList.take (indices.foldl min s.tokens.size)

/-- The end of the text has been read. -/
def isFinished (s : Layout) : Bool := s.tokens.back?.any (·.kind == .streamEnd)

end Layout

/-- What was read of a text: its tokens, and the fault in front of which they end. -/
structure TokenReading where
  tokens : List Token
  fault : Option Fault
  deriving DecidableEq, Repr

namespace TokenReading

/-- Reads tokens until the text ends or a fault is met. -/
def readFrom : Nat → Layout → TokenReading
  | 0, s => ⟨s.settled, none⟩
  | fuel + 1, s =>
    match s.refresh with
    | .error e => ⟨s.settled, some e⟩
    | .ok s =>
      match s.next with
      | .error e => ⟨s.settled, some e⟩
      | .ok s => if s.isFinished then ⟨s.tokens.toList, none⟩ else readFrom fuel s

/-- The first character that a text may not hold, with the number of octets in front of it. -/
def findInadmissible (offset : Nat) : List Char → Option Nat
  | [] => none
  | c :: rest => if isAdmitted c then findInadmissible (offset + c.utf8Size) rest else some offset

/-- Reads the tokens of a text. -/
def ofText (text : String) : TokenReading :=
  let cs := dropByteOrderMark text.toList
  match findInadmissible 0 cs with
  | some offset => ⟨[], some ⟨.controlCharacter offset, .start, none⟩⟩
  | none =>
    let cs := unifyBreaks cs
    readFrom (cs.length + 2) (.start cs)

end TokenReading

end Interchange.Yaml
