import Interchange.Yaml.Fault

/-!
Scalars: plain, quoted, and in blocks. In plain and quoted ones a run of white space with line breaks
folds into one space, or into its line breaks but the first.
-/

namespace Interchange.Yaml

/-- How a scalar is written. -/
inductive ScalarStyle where
  | plain
  | quoted
  | literal
  | folded
  deriving DecidableEq, Repr

/-- What a run of white space inside a scalar stands for. -/
def fold (run : List Char) : List Char :=
  match run.filter isBreak with
  | [] => run
  | '\n' :: [] => [' ']
  | '\n' :: more => more
  | breaks => breaks

theorem fold_of_no_break {run : List Char} (h : ∀ c ∈ run, isBreak c = false) : fold run = run := by
  have : run.filter isBreak = [] := by simpa [List.filter_eq_nil_iff] using h
  simp [fold, this]

/-! ## Quoted scalars -/

/-- What a letter behind a backslash stands for. -/
def letterEscape : Char → Option Char
  | '0' => some '\x00'
  | 'a' => some '\x07'
  | 'b' => some '\x08'
  | 't' => some '\t'
  | '\t' => some '\t'
  | 'n' => some '\n'
  | 'v' => some '\x0b'
  | 'f' => some '\x0c'
  | 'r' => some '\r'
  | 'e' => some '\x1b'
  | ' ' => some ' '
  | '"' => some '"'
  | '/' => some '/'
  | '\\' => some '\\'
  | 'N' => some '\u0085'
  | '_' => some '\u00a0'
  | 'L' => some '\u2028'
  | 'P' => some '\u2029'
  | _ => none

/-- How many digits follow a letter that names a character by its number. -/
def escapeWidth : Char → Option Nat
  | 'x' => some 2
  | 'u' => some 4
  | 'U' => some 8
  | _ => none

/-- The character of a number that one has. -/
def scalarValue (n : Nat) : Option Char := if n.isValidChar then some (Char.ofNat n) else none

/-- Reads the escape that begins with the backslash here. -/
def readEscape (start : Mark) (c : Cursor) : Except Fault (Char × Cursor) :=
  let stop (flaw : Flaw) (c : Cursor) : Except Fault (Char × Cursor) :=
    .error ⟨flaw, c.mark, some (.quotedEscape, start)⟩
  match c.at? 1 with
  | none => stop .unknownEscape c
  | some letter =>
    match letterEscape letter, escapeWidth letter with
    | some x, _ => .ok (x, c.advance 2)
    | none, none => stop .unknownEscape c
    | none, some width =>
      let c := c.advance 2
      let digits := c.rest.take width
      match (if digits.length = width then hexNumber digits else none) with
      | none => stop .escapeDigits c
      | some n =>
        match scalarValue n with
        | none => stop .escapeCode c
        | some x => .ok (x, c.advance width)

def quoteOf (double : Bool) : Char := if double then '"' else '\''

/-- Reads the rest of a quoted scalar; `text` is what was read, last character first. -/
def quotedFrom (double : Bool) (start : Mark) :
    Nat → List Char → Cursor → Except Fault (List Char × Cursor)
  | 0, _, c => .error ⟨.unclosedQuote, c.mark, some (.quotedScalar, start)⟩
  | fuel + 1, text, c =>
    if c.atDocumentBoundary then .error ⟨.documentBoundary, c.mark, some (.quotedScalar, start)⟩
    else
      match c.rest with
      | [] => .error ⟨.unclosedQuote, c.mark, some (.quotedScalar, start)⟩
      | x :: rest =>
        if isSpace x then
          let (run, c) := c.span isSpace
          quotedFrom double start fuel ((fold run).reverse ++ text) c
        else if x = quoteOf double then
          if !double && rest.head? == some x then
            quotedFrom double start fuel (x :: text) (c.advance 2)
          else .ok (text.reverse, c.advance 1)
        else if double && x = '\\' then
          if rest.head?.any isBreak then
            let (run, c) := (c.advance 2).span isSpace
            quotedFrom double start fuel ((run.filter isBreak).reverse ++ text) c
          else
            match readEscape start c with
            | .ok (x, c) => quotedFrom double start fuel (x :: text) c
            | .error e => .error e
        else quotedFrom double start fuel (x :: text) (c.advance 1)

/-- Reads the quoted scalar that begins here. -/
def readQuoted (double : Bool) (c : Cursor) : Except Fault (String × Cursor) :=
  (quotedFrom double c.mark (c.rest.length + 1) [] (c.advance 1)).map fun (text, c) =>
    (String.ofList text, c)

/-! ## Plain scalars -/

/-- The indicators of collections in flow style. -/
def isFlowIndicator (c : Char) : Bool :=
  c == ',' || c == '[' || c == ']' || c == '\x7b' || c == '\x7d'

/-- A plain scalar ends in front of these characters. -/
def endsPlain (inFlow : Bool) : List Char → Bool
  | [] => true
  | x :: rest =>
    isSpace x || (x == ':' && rest.head?.all isSpace) || (inFlow && isFlowIndicator x)

/-- In flow style a colon may not stand in front of an indicator. -/
def isStrayColon (inFlow : Bool) : List Char → Bool
  | ':' :: y :: _ => inFlow && (isFlowIndicator y || y == '?')
  | _ => false

/-- The part of a plain scalar up to white space. -/
def plainWord (inFlow : Bool) : List Char → List Char
  | [] => []
  | x :: rest =>
    if endsPlain inFlow (x :: rest) || isStrayColon inFlow (x :: rest) then []
    else x :: plainWord inFlow rest

/-- The number of characters in front of a tab that indents a line less than `indent` columns. -/
def indentingTab (indent : Nat) (column : Option Nat) : List Char → Option Nat
  | [] => none
  | x :: rest =>
    if x = '\t' && column.any (· < indent) then some 0
    else
      let column := if isBreak x then some 0 else column.map (· + 1)
      (indentingTab indent column rest).map (· + 1)

/-- A plain scalar as far as it was read: its text, last character first, and the white space that
follows. -/
structure PlainText where
  text : List Char
  run : List Char
  cursor : Cursor

/-- Reads on in a plain scalar on lines that are indented by `indent` at least. -/
def plainFrom (inFlow : Bool) (indent : Nat) (start : Mark) :
    Nat → PlainText → Except Fault PlainText
  | 0, p => .ok p
  | fuel + 1, p =>
    if p.cursor.atDocumentBoundary || p.cursor.isAt '#' then .ok p
    else
      let word := plainWord inFlow p.cursor.rest
      let c := p.cursor.advance word.length
      if isStrayColon inFlow c.rest then
        .error ⟨.colonInFlow, c.mark, some (.plainScalar, start)⟩
      else if word.isEmpty then .ok p
      else
        let text := word.reverse ++ ((fold p.run).reverse ++ p.text)
        let (run, after) := c.span isSpace
        match indentingTab indent none run with
        | some n => .error ⟨.plainTab, (c.advance n).mark, some (.plainScalar, start)⟩
        | none =>
          let p := ⟨text, run, after⟩
          if run.isEmpty || (!inFlow && after.mark.column < indent) then .ok p
          else plainFrom inFlow indent start fuel p

/-- Reads the plain scalar that begins here. The last part tells whether line breaks follow it. -/
def readPlain (inFlow : Bool) (indent : Nat) (c : Cursor) : Except Fault (String × Cursor × Bool) :=
  (plainFrom inFlow indent c.mark (c.rest.length + 1) ⟨[], [], c⟩).map fun p =>
    (String.ofList p.text.reverse, p.cursor, p.run.any isBreak)

/-! ## Block scalars -/

/-- What becomes of the line breaks at the end of a block. -/
inductive Chomping where
  | strip
  | clip
  | keep
  deriving DecidableEq, Repr

/-- Reads the chomping indicator that may be here. -/
def readChomping (c : Cursor) : Option Chomping × Cursor :=
  if c.isAt '+' then (some .keep, c.advance 1)
  else if c.isAt '-' then (some .strip, c.advance 1)
  else (none, c)

/-- Reads the indentation indicator that may be here. -/
def readIncrement (start : Mark) (c : Cursor) : Except Fault (Option Nat × Cursor) :=
  match c.at? 0 with
  | none => .ok (none, c)
  | some x =>
    if x = '0' then .error ⟨.zeroIndent, c.mark, some (.blockScalar, start)⟩
    else if x.isDigit then .ok (some (x.toNat - '0'.toNat), c.advance 1)
    else .ok (none, c)

/-- Reads the two indicators, in either order, and the rest of their line. -/
def readHeader (start : Mark) (c : Cursor) : Except Fault (Chomping × Option Nat × Cursor) := do
  let (early, c) := readChomping c
  let (increment, c) ← readIncrement start c
  let (late, c) := if early.isNone && increment.isSome then readChomping c else (none, c)
  let c := c.skipComment
  if c.endsLine then return ((early.or late).getD .clip, increment, c.skipBreak)
  else throw ⟨.scalarHeaderEnd, c.mark, some (.blockScalar, start)⟩

/-- Moves past spaces, up to the column of the block if that is known, and past empty lines. The
result holds the greatest column that was reached and the line breaks. -/
def emptyLines (start : Mark) (indent : Option Nat) :
    Nat → Nat → List Char → Cursor → Except Fault (Nat × List Char × Cursor)
  | 0, width, breaks, c => .ok (width, breaks, c)
  | fuel + 1, width, breaks, c =>
    let c :=
      match indent with
      | none => c.skip (· == ' ')
      | some n => c.skipAtMost (n - c.mark.column) (· == ' ')
    let width := max width c.mark.column
    if indent.all (c.mark.column < ·) && c.isAt '\t' then
      .error ⟨.tabIndent, c.mark, some (.blockScalar, start)⟩
    else
      match c.rest with
      | x :: _ =>
        if isBreak x then emptyLines start indent fuel width (breaks ++ [x]) (c.advance 1)
        else .ok (width, breaks, c)
      | [] => .ok (width, breaks, c)

/-- A block as far as it was read: its text, last character first, the break of its last line, and
the breaks of the empty lines that follow. -/
structure BlockText where
  text : List Char
  lastBreak : List Char
  emptyBreaks : List Char
  lastBlank : Bool
  cursor : Cursor

/-- What stands for the breaks in front of a line; a folded block keeps those next to lines that begin
with blanks. -/
def BlockText.joint (b : BlockText) (literal blank : Bool) : List Char :=
  if !literal && b.lastBreak == ['\n'] && !b.lastBlank && !blank then
    if b.emptyBreaks.isEmpty then [' '] else b.emptyBreaks
  else b.lastBreak ++ b.emptyBreaks

/-- Reads the lines of a block whose text begins in column `indent`. -/
def blockFrom (literal : Bool) (indent : Nat) (start : Mark) :
    Nat → BlockText → Except Fault BlockText
  | 0, b => .ok b
  | fuel + 1, b =>
    if b.cursor.mark.column ≠ indent || b.cursor.rest.isEmpty then .ok b
    else
      let blank := (b.cursor.at? 0).any isBlank
      let (line, c) := b.cursor.span (!isBreak ·)
      let text := line.reverse ++ ((b.joint literal blank).reverse ++ b.text)
      let lastBreak := c.rest.take 1
      match emptyLines start (some indent) (c.rest.length + 1) 0 [] (c.advance 1) with
      | .error e => .error e
      | .ok (_, emptyBreaks, c) =>
        blockFrom literal indent start fuel ⟨text, lastBreak, emptyBreaks, blank, c⟩

/-- What a block stands for once its end has been reached. -/
def BlockText.finish (b : BlockText) (chomping : Chomping) : List Char :=
  b.text.reverse ++
    match chomping with
    | .strip => []
    | .clip => b.lastBreak
    | .keep => b.lastBreak ++ b.emptyBreaks

/-- Reads the block scalar that begins here, inside a collection whose entries are indented by less
than `indent`. -/
def readBlock (literal : Bool) (indent : Nat) (c : Cursor) : Except Fault (String × Cursor) := do
  let start := c.mark
  let (chomping, increment, c) ← readHeader start (c.advance 1)
  let known := increment.map (· + (indent - 1))
  let (width, breaks, c) ← emptyLines start known (c.rest.length + 1) 0 [] c
  let column := known.getD (max width (max indent 1))
  let b ← blockFrom literal column start (c.rest.length + 1) ⟨[], [], breaks, false, c⟩
  return (String.ofList (b.finish chomping), b.cursor)

end Interchange.Yaml
