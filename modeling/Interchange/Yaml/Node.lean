import Interchange.Yaml.Layout

/-!
The tree of a document. Where a fault ends the reading, the tree holds a node that was not read, and
what precedes it is kept.
-/

namespace Interchange.Yaml

inductive Node where
  | scalar (mark : Mark) (tag : Option String) (style : ScalarStyle) (text : String)
  | sequence (mark : Mark) (tag : Option String) (items : List Node)
  | mapping (mark : Mark) (tag : Option String) (entries : List (Node × Node))
  | alias (mark : Mark) (number : Nat)
  | unread
  deriving Repr

namespace Node

/-- The scalar that stands where a node is left out. -/
def absent (mark : Mark) : Node := .scalar mark none .plain ""

mutual

/-- A node in which nothing is missing. -/
def isComplete : Node → Bool
  | .scalar .. => true
  | .sequence _ _ items => areComplete items
  | .mapping _ _ entries => entriesComplete entries
  | .alias .. => true
  | .unread => false

def areComplete : List Node → Bool
  | [] => true
  | n :: rest => n.isComplete && areComplete rest

def entriesComplete : List (Node × Node) → Bool
  | [] => true
  | (k, v) :: rest => k.isComplete && v.isComplete && entriesComplete rest

end

end Node

/-! ## Anchors -/

/-- The anchors of a document. An anchor has the number of names that were known when it was declared,
and a number stands for the node that took it last. -/
structure Anchors where
  names : List (String × Nat)
  bearers : List (Nat × Nat)
  nodes : List (Nat × Node)
  deriving Repr

namespace Anchors

def empty : Anchors := ⟨[], [], []⟩

/-- Declares a name for the node that comes next. The result tells how many were declared before. -/
def declare (a : Anchors) (name : String) : Nat × Anchors :=
  let number := a.names.length
  let names := (name, number) :: a.names.filter (·.1 != name)
  (a.bearers.length, { a with names := names, bearers := (number, a.bearers.length) :: a.bearers })

def record (a : Anchors) (serial : Option Nat) (n : Node) : Anchors :=
  match serial with
  | some serial => { a with nodes := (serial, n) :: a.nodes }
  | none => a

/-- The node that a number stands for. -/
def resolve (a : Anchors) (number : Nat) : Option Node :=
  (a.bearers.lookup number).bind fun serial => a.nodes.lookup serial

end Anchors

/-! ## Reading nodes -/

/-- The tokens that are left, the fault behind the last of them, and the fault that has been met. -/
structure NodeReader where
  tokens : List Token
  ending : Fault
  fault : Option Fault
  handles : List (String × String)
  anchors : Anchors

namespace NodeReader

def skip (r : NodeReader) : NodeReader := { r with tokens := r.tokens.drop 1 }

def fail (r : NodeReader) (flaw : Flaw) (mark : Mark) (within : Option (Construct × Mark)) :
    NodeReader :=
  { r with fault := some ⟨flaw, mark, within⟩ }

/-- Meets the end of the tokens. -/
def exhaust (r : NodeReader) : NodeReader := { r with fault := some r.ending }

/-- Goes on with the next token, if there is one. -/
def withToken {α : Type} (r : NodeReader) (otherwise : α) (f : Token → α × NodeReader) :
    α × NodeReader :=
  match r.tokens with
  | t :: _ => f t
  | [] => (otherwise, r.exhaust)

/-- Goes on unless a fault has been met. -/
def unlessFaulty {α : Type} (r : NodeReader) (otherwise : α) (f : NodeReader → α × NodeReader) :
    α × NodeReader :=
  if r.fault.isSome then (otherwise, r) else f r

/-- What stands in front of a node. -/
structure Properties where
  anchor : Option String
  tag : Option (TagName × Mark)
  mark : Option Mark

/-- Takes an anchor and a tag, in either order. -/
def readProperties (r : NodeReader) : Properties × NodeReader :=
  match r.tokens with
  | ⟨.anchor a, m⟩ :: ⟨.tag t, n⟩ :: rest => (⟨some a, some (t, n), some m⟩, { r with tokens := rest })
  | ⟨.anchor a, m⟩ :: rest => (⟨some a, none, some m⟩, { r with tokens := rest })
  | ⟨.tag t, m⟩ :: ⟨.anchor a, _⟩ :: rest => (⟨some a, some (t, m), some m⟩, { r with tokens := rest })
  | ⟨.tag t, m⟩ :: rest => (⟨none, some (t, m), some m⟩, { r with tokens := rest })
  | _ => (⟨none, none, none⟩, r)

/-- The handles that need no directive. -/
def defaultHandles : List (String × String) := [("!", "!"), ("!!", "tag:yaml.org,2002:")]

/-- The full address of a tag. -/
def resolveTag (r : NodeReader) (t : TagName) : Option String :=
  if t.handle.isEmpty then some t.address
  else (r.handles.lookup t.handle).map (· ++ t.address)

/-- A scalar of the tag that stands for itself has no tag. -/
def scalarTag (tag : Option String) : Option String := tag.filter (· != "!")

mutual

/-- Reads a node. Outside flow style, block collections are nodes; where `indentless` says so, entries
of a sequence may come without a collection being opened. -/
def readNode (fuel : Nat) (block indentless : Bool) (r : NodeReader) : Node × NodeReader :=
  match fuel with
  | 0 => (.unread, r.exhaust)
  | fuel + 1 =>
    match r.tokens with
    | ⟨.alias name, mark⟩ :: _ =>
      match r.anchors.names.lookup name with
      | some number => (.alias mark number, r.skip)
      | none => (.unread, r.fail .unknownAnchor mark none)
    | _ =>
      let (props, r) := r.readProperties
      r.withToken .unread fun t =>
        let mark := props.mark.getD t.mark
        match props.tag with
        | none => readContent fuel block indentless props.anchor none mark t r
        | some (name, tagMark) =>
          match r.resolveTag name with
          | some tag => readContent fuel block indentless props.anchor (some tag) mark t r
          | none => (.unread, r.fail .handleUnknown tagMark (some (.node, mark)))

/-- Reads what follows the anchor and the tag of a node. -/
def readContent (fuel : Nat) (block indentless : Bool) (anchor tag : Option String) (mark : Mark)
    (t : Token) (r : NodeReader) : Node × NodeReader :=
  match fuel with
  | 0 => (.unread, r.exhaust)
  | fuel + 1 =>
    let (serial, anchors) :=
      match anchor with
      | some name => let (serial, anchors) := r.anchors.declare name; (some serial, anchors)
      | none => (none, r.anchors)
    let bare := anchor.isNone && tag.isNone
    let r := { r with anchors := anchors }
    let (node, r) :=
      match t.kind with
      | .scalar style text => (Node.scalar mark (scalarTag tag) style text, r.skip)
      | .flowSequenceStart =>
        let (items, r) := readFlowItems fuel t.mark true r.skip
        (.sequence mark tag items, r)
      | .flowMappingStart =>
        let (entries, r) := readFlowEntries fuel t.mark true r.skip
        (.mapping mark tag entries, r)
      | kind =>
        if indentless && kind == TokenKind.blockEntry then
          let (items, r) := readBareItems fuel r
          (.sequence mark tag items, r)
        else if block && kind == TokenKind.blockSequenceStart then
          let (items, r) := readBlockItems fuel t.mark r.skip
          (.sequence mark tag items, r)
        else if block && kind == TokenKind.blockMappingStart then
          let (entries, r) := readBlockEntries fuel t.mark r.skip
          (.mapping mark tag entries, r)
        else if bare then
          let construct := if block then Construct.blockNode else .flowNode
          (.unread, r.fail .nodeContent t.mark (some (construct, mark)))
        else (.scalar mark tag .plain "", r)
    (node, { r with anchors := r.anchors.record serial node })

/-- Reads a node in block style, which is left out if one of the tokens `closing` comes next. -/
def readBlockNode (fuel : Nat) (indentless : Bool) (closing : List TokenKind) (left : Mark)
    (r : NodeReader) : Node × NodeReader :=
  match fuel with
  | 0 => (.unread, r.exhaust)
  | fuel + 1 =>
    r.withToken .unread fun t =>
      if closing.contains t.kind then (.absent left, r) else readNode fuel true indentless r

/-- Reads a node in flow style, which is left out if one of the tokens `closing` comes next. -/
def readFlowNode (fuel : Nat) (closing : List TokenKind) (r : NodeReader) : Node × NodeReader :=
  match fuel with
  | 0 => (.unread, r.exhaust)
  | fuel + 1 =>
    r.withToken .unread fun t =>
      if closing.contains t.kind then (.absent t.mark, r) else readNode fuel false false r

/-- Reads the entries of a block sequence. -/
def readBlockItems (fuel : Nat) (start : Mark) (r : NodeReader) : List Node × NodeReader :=
  match fuel with
  | 0 => ([.unread], r.exhaust)
  | fuel + 1 =>
    r.withToken [.unread] fun t =>
      match t.kind with
      | .blockEntry =>
        let (item, r) := readBlockNode fuel false [.blockEntry, .blockEnd] t.after r.skip
        r.unlessFaulty [item] fun r =>
          let (items, r) := readBlockItems fuel start r
          (item :: items, r)
      | .blockEnd => ([], r.skip)
      | _ => ([.unread], r.fail .blockEntry t.mark (some (.blockSequence, start)))

/-- Reads the entries of a sequence that no token opened. -/
def readBareItems (fuel : Nat) (r : NodeReader) : List Node × NodeReader :=
  match fuel with
  | 0 => ([.unread], r.exhaust)
  | fuel + 1 =>
    r.withToken [.unread] fun t =>
      match t.kind with
      | .blockEntry =>
        let (item, r) :=
          readBlockNode fuel false [.blockEntry, .key, .value, .blockEnd] t.after r.skip
        r.unlessFaulty [item] fun r =>
          let (items, r) := readBareItems fuel r
          (item :: items, r)
      | _ => ([], r)

/-- Reads the value of a key in block style. -/
def readBlockValue (fuel : Nat) (r : NodeReader) : Node × NodeReader :=
  match fuel with
  | 0 => (.unread, r.exhaust)
  | fuel + 1 =>
    r.withToken .unread fun t =>
      if t.kind == .value then
        readBlockNode fuel true [.key, .value, .blockEnd] t.after r.skip
      else (.absent t.mark, r)

/-- Reads the entries of a block mapping. -/
def readBlockEntries (fuel : Nat) (start : Mark) (r : NodeReader) :
    List (Node × Node) × NodeReader :=
  match fuel with
  | 0 => ([(.unread, .unread)], r.exhaust)
  | fuel + 1 =>
    r.withToken [(.unread, .unread)] fun t =>
      match t.kind with
      | .key =>
        let (key, r) := readBlockNode fuel true [.key, .value, .blockEnd] t.after r.skip
        r.unlessFaulty [(key, .unread)] fun r =>
          let (value, r) := readBlockValue fuel r
          r.unlessFaulty [(key, value)] fun r =>
            let (entries, r) := readBlockEntries fuel start r
            ((key, value) :: entries, r)
      | .blockEnd => ([], r.skip)
      | _ => ([(.unread, .unread)], r.fail .blockKey t.mark (some (.blockMapping, start)))

/-- Reads the value of a key in a flow collection that `closing` ends. -/
def readFlowValue (fuel : Nat) (closing : TokenKind) (r : NodeReader) : Node × NodeReader :=
  match fuel with
  | 0 => (.unread, r.exhaust)
  | fuel + 1 =>
    r.withToken .unread fun t =>
      if t.kind == .value then readFlowNode fuel [.flowEntry, closing] r.skip
      else (.absent t.mark, r)

/-- Reads a mapping of one entry that stands in a flow sequence. A key that is left out takes the next
indicator with it. -/
def readPair (fuel : Nat) (mark : Mark) (r : NodeReader) : Node × NodeReader :=
  match fuel with
  | 0 => (.unread, r.exhaust)
  | fuel + 1 =>
    let (key, r) :=
      r.withToken Node.unread fun t =>
        if [TokenKind.value, .flowEntry, .flowSequenceEnd].contains t.kind then
          (Node.absent t.after, r.skip)
        else readNode fuel false false r
    r.unlessFaulty (.mapping mark none [(key, .unread)]) fun r =>
      let (value, r) := readFlowValue fuel .flowSequenceEnd r
      (.mapping mark none [(key, value)], r)

/-- Reads the items of a flow sequence. -/
def readFlowItems (fuel : Nat) (start : Mark) (first : Bool) (r : NodeReader) :
    List Node × NodeReader :=
  match fuel with
  | 0 => ([.unread], r.exhaust)
  | fuel + 1 =>
    r.withToken [.unread] fun t =>
      if t.kind == .flowSequenceEnd then ([], r.skip)
      else if !first && t.kind != .flowEntry then
        ([.unread], r.fail .flowSequenceEntry t.mark (some (.flowSequence, start)))
      else
        let r := if first then r else r.skip
        r.withToken [.unread] fun t =>
          if t.kind == .flowSequenceEnd then ([], r.skip)
          else
            let (item, r) :=
              if t.kind == .key then readPair fuel t.mark r.skip else readNode fuel false false r
            r.unlessFaulty [item] fun r =>
              let (items, r) := readFlowItems fuel start false r
              (item :: items, r)

/-- Reads the entries of a flow mapping. -/
def readFlowEntries (fuel : Nat) (start : Mark) (first : Bool) (r : NodeReader) :
    List (Node × Node) × NodeReader :=
  match fuel with
  | 0 => ([(.unread, .unread)], r.exhaust)
  | fuel + 1 =>
    r.withToken [(.unread, .unread)] fun t =>
      if t.kind == .flowMappingEnd then ([], r.skip)
      else if !first && t.kind != .flowEntry then
        ([(.unread, .unread)], r.fail .flowMappingEntry t.mark (some (.flowMapping, start)))
      else
        let r := if first then r else r.skip
        r.withToken [(.unread, .unread)] fun t =>
          if t.kind == .flowMappingEnd then ([], r.skip)
          else
            let explicit := t.kind == .key
            let (key, r) :=
              if explicit then readFlowNode fuel [.value, .flowEntry, .flowMappingEnd] r.skip
              else readNode fuel false false r
            r.unlessFaulty [(key, .unread)] fun r =>
              let (value, r) :=
                if explicit then readFlowValue fuel .flowMappingEnd r
                else r.withToken Node.unread fun t => (Node.absent t.mark, r)
              r.unlessFaulty [(key, value)] fun r =>
                let (entries, r) := readFlowEntries fuel start false r
                ((key, value) :: entries, r)

end

/-! ## Documents -/

/-- Adds a handle, which a document declares once. -/
def declareHandle (r : NodeReader) (name address : String) (mark : Mark) : NodeReader :=
  if (r.handles.lookup name).isSome then r.fail .handleTwice mark none
  else { r with handles := r.handles ++ [(name, address)] }

/-- Reads the directives in front of a document. -/
def readDirectives (hasVersion : Bool) : List Token → NodeReader → NodeReader
  | ⟨.version major minor, mark⟩ :: rest, r =>
    if hasVersion then r.fail .versionTwice mark none
    else if major ≠ 1 || (minor ≠ 1 && minor ≠ 2) then r.fail .versionUnknown mark none
    else readDirectives true rest r.skip
  | ⟨.handle name address, mark⟩ :: rest, r =>
    let r := r.declareHandle name address mark
    if r.fault.isSome then r else readDirectives hasVersion rest r.skip
  | _, r => r

/-- The tokens that no document begins with unless an indicator says so. -/
def isExplicitStart : TokenKind → Bool
  | .version _ _ | .handle _ _ | .documentStart => true
  | _ => false

/-- The tokens in front of which a document is left empty. -/
def endsDocument : TokenKind → Bool
  | .documentEnd | .streamEnd => true
  | kind => isExplicitStart kind

/-- Reads a document whose beginning is marked. -/
def readExplicit (fuel : Nat) (r : NodeReader) : Node × NodeReader :=
  let r := r.readDirectives false r.tokens
  r.unlessFaulty .unread fun r =>
    r.withToken .unread fun t =>
      if t.kind != .documentStart then (.unread, r.fail .documentStart t.mark none)
      else
        let r := { r.skip with handles := r.handles ++ defaultHandles }
        r.withToken .unread fun t =>
          if endsDocument t.kind then (.absent t.mark, r) else readNode fuel true false r

/-- Reads the first document of a text. -/
def readDocument (fuel : Nat) (r : NodeReader) : Node × NodeReader :=
  r.withToken .unread fun t =>
    if t.kind == .streamEnd then (.absent t.mark, r)
    else
      let (root, r) :=
        if isExplicitStart t.kind then readExplicit fuel r
        else readNode fuel true false { r with handles := defaultHandles }
      r.unlessFaulty root fun r => r.withToken root fun _ => (root, r)

/-- Nothing follows but marks that end a document. -/
def atEnd (r : NodeReader) : Bool :=
  (r.tokens.dropWhile (·.kind == .documentEnd)).head?.any (·.kind == .streamEnd)

end NodeReader

/-- The first document of a text: its root, its anchors, the fault that ended the reading, and whether
anything follows. -/
structure Document where
  root : Node
  anchors : Anchors
  fault : Option Fault
  isFollowed : Bool
  deriving Repr

namespace Document

/-- Reads the first document of a text. -/
def ofText (text : String) : Document :=
  let reading := TokenReading.ofText text
  let ending := reading.fault.getD ⟨.nodeContent, .start, none⟩
  let (root, r) :=
    (NodeReader.mk reading.tokens ending none [] .empty).readDocument (4 * reading.tokens.length + 8)
  ⟨root, r.anchors, r.fault, !r.atEnd⟩

/-- The text is well-formed: it holds one document and can be read to its end. -/
def isWellFormed (d : Document) : Bool := d.fault.isNone && !d.isFollowed

end Document

end Interchange.Yaml
