import Mathlib.Logic.Relation
import Interchange.Proofs.Nesting
import Interchange.Proofs.Tags
import Interchange.Proofs.Writing

/-!
# Canonical documents are read back

Reading goes from place to place (`Place.Step`). From the front of a row in canonical form it comes to the
end of the row with the pieces of the row put in (`Place.Reaches.row`), so that the document that is read
from a canonical form is the one that was written, its white space folded (`Document.parse_canonical`).
-/

namespace Interchange.Xml

open Text (collapseChars)
open Text.Utf8 (Octets encode encodeText encodeChar encode_append decode_encode mem_of_mem_encode)

/-! ## Places -/

/-- Where reading stands: the octets that are left, the names of the open tags, and what was assembled. -/
structure Place where
  left : Octets
  names : List Octets
  assembly : Assembly

namespace Place

/-- One event is read and put in. -/
inductive Step : Place → Place → Prop
  | event {b : UInt8} {rest after : Octets} {names inside : List Octets} {e : Event} {a c : Assembly}
      (hevent : readEvent b rest = .ok (e, after)) (hnames : nesting names e = .ok inside)
      (hstep : a.step e = .ok c) : Step ⟨b :: rest, names, a⟩ ⟨after, inside, c⟩

def Reaches : Place → Place → Prop := Relation.ReflTransGen Step

variable {p q r : Place}

theorem Reaches.refl : p.Reaches p := Relation.ReflTransGen.refl

theorem Step.markup {rest after : Octets} {names inside : List Octets} {e : Event} {a c : Assembly}
    (hmarkup : readMarkup rest = .ok (e, after)) (hnames : nesting names e = .ok inside)
    (hstep : a.step e = .ok c) : Step ⟨lessThan :: rest, names, a⟩ ⟨after, inside, c⟩ :=
  .event (by rw [readEvent, if_pos rfl, hmarkup]) hnames hstep

theorem Step.reaches (h : p.Step q) : p.Reaches q := Relation.ReflTransGen.single h

theorem Reaches.trans (h : p.Reaches q) (hq : q.Reaches r) : p.Reaches r := Relation.ReflTransGen.trans h hq

end Place

theorem readFrom_cons {total : Nat} {names inside : List Octets} {b : UInt8} {rest after : Octets} {e : Event}
    (hevent : readEvent b rest = .ok (e, after)) (hnames : nesting names e = .ok inside) :
    readFrom total names (b :: rest) =
      ⟨e :: (readFrom total inside after).events, (readFrom total inside after).flaw⟩ := by
  rw [readFrom.eq_def]
  dsimp only
  split
  · rename_i flaw left herror
    rw [hevent] at herror
    cases herror
  · rename_i e' after' hok
    rw [hevent, Except.ok.injEq, Prod.mk.injEq] at hok
    obtain ⟨rfl, rfl⟩ := hok
    rw [hnames]

/-- What is read between two places, and put in between them. -/
theorem Place.Reaches.exists_events {p q : Place} (h : p.Reaches q) : ∃ events,
    (∀ total, readFrom total p.names p.left =
      ⟨events ++ (readFrom total q.names q.left).events, (readFrom total q.names q.left).flaw⟩) ∧
      events.foldlM Assembly.step p.assembly = .ok q.assembly := by
  induction h using Relation.ReflTransGen.head_induction_on with
  | refl => exact ⟨[], fun _ => rfl, rfl⟩
  | head hstep _ ih =>
      obtain ⟨events, hread, hfold⟩ := ih
      cases hstep with
      | @event b rest after names inside e a c hevent hnames hstep =>
          refine ⟨e :: events, fun total => ?_, ?_⟩
          · simp only [readFrom_cons hevent hnames, hread total, List.cons_append]
          · rw [List.foldlM_cons, hstep]
            exact hfold

/-- A place at which nothing is left gives the document of what was assembled. -/
theorem Document.ofReading_read {octets : Octets} {names : List Octets} {a : Assembly}
    (h : Place.Reaches ⟨octets, [], .start⟩ ⟨[], names, a⟩) :
    Document.ofReading (read octets) = a.finish := by
  obtain ⟨events, hread, hfold⟩ := h.exists_events
  have hnil : readFrom octets.length names [] = ⟨[], none⟩ := by rw [readFrom.eq_def]
  simp only [Document.ofReading, read, hread, hnil, List.append_nil, hfold, bind, Except.bind]

/-! ## Texts -/

section Texts

variable {a : Assembly} {names : List Octets} {rest after : Octets} {x : UInt8} {run t : List Char}

theorem endsCharacters_of_mem {b : UInt8} (hrun : ∀ c ∈ run, isSpecial c = false) (hb : b ∈ encode run) :
    endsCharacters b = false := by
  rw [Bool.eq_false_iff]
  intro hends
  simp only [endsCharacters, Bool.or_eq_true, beq_iff_eq] at hends
  have hspecial := hrun (Char.ofNat b.toNat) (mem_of_mem_encode (by rcases hends with rfl | rfl <;> decide) hb)
  rcases hends with rfl | rfl <;> exact absurd hspecial (by decide)

theorem readEvent_characters {b : UInt8} {more : Octets} (hrun : ∀ c ∈ run, isSpecial c = false)
    (hx : endsCharacters x = true) (hoctets : encode run = b :: more) :
    readEvent b (more ++ x :: after) = .ok (.characters (encode run), x :: after) := by
  have hmem : ∀ y ∈ b :: more, endsCharacters y = false := fun y hy =>
    endsCharacters_of_mem hrun (hoctets ▸ hy)
  have hmore : ∀ y ∈ more, endsCharacters y = false := fun y hy => hmem y (List.mem_cons_of_mem b hy)
  have hfirst := hmem b List.mem_cons_self
  simp only [endsCharacters, Bool.or_eq_false_iff, beq_eq_false_iff_ne] at hfirst
  rw [readEvent, if_neg hfirst.1, if_neg hfirst.2, takeWhile_run hmore hx, dropWhile_run hmore hx, hoctets]

/-- Characters that are no delimiters are read up to one. -/
theorem Place.Reaches.characters (hrun : ∀ c ∈ run, isSpecial c = false) (hx : endsCharacters x = true) :
    Place.Reaches ⟨encode run ++ x :: after, names, a⟩ ⟨x :: after, names, a.addCharacters run⟩ := by
  cases hoctets : encode run with
  | nil =>
      have hnil : run = [] := by
        have hdecode : Text.Utf8.decode (encode run) = .ok run := decode_encode
        rw [hoctets] at hdecode
        exact (Except.ok.inj hdecode).symm
      rw [hnil]
      exact .refl
  | cons b more =>
      rw [List.cons_append]
      refine (Step.event (readEvent_characters hrun hx hoctets) rfl ?_).reaches
      simp only [Assembly.step, readText, decode_encode]
      rfl

/-- A reference is read up to its semicolon. -/
theorem readEvent_reference {name : Octets} (hname : ∀ y ∈ name, endsReference y = false) :
    readEvent ampersand (name ++ semicolon :: after) = .ok (.reference name, after) := by
  rw [readEvent, if_neg (by decide), if_pos rfl, readReference, dropWhile_run hname (by decide),
    takeWhile_run hname (by decide)]
  rfl

theorem encode_reference {name : List Char} : encode ('&' :: (name ++ [';'])) ++ after =
    ampersand :: (encode name ++ semicolon :: after) := by
  have hfirst : encodeChar '&' = [ampersand] := rfl
  have hlast : encodeChar ';' = [semicolon] := rfl
  simp [encode_append, hfirst, hlast]

/-- A reference to a character puts in the character. -/
theorem Place.Reaches.reference {name : List Char} {c : Char} (hname : namedCharacter name = some c)
    (halpha : name.all Char.isAlpha) :
    Place.Reaches ⟨encode ('&' :: name ++ [';']) ++ after, names, a⟩ ⟨after, names, a.addCharacters [c]⟩ := by
  have hletters : ∀ y ∈ encode name, endsReference y = false := by
    intro y hy
    rw [Bool.eq_false_iff]
    intro hends
    simp only [endsReference, Bool.or_eq_true, beq_iff_eq] at hends
    have hletter := List.all_eq_true.1 halpha (Char.ofNat y.toNat)
      (mem_of_mem_encode (by rcases hends with (rfl | rfl) | rfl <;> decide) hy)
    rcases hends with (rfl | rfl) | rfl <;> exact absurd hletter (by decide)
  rw [List.cons_append, encode_reference]
  refine (Step.event (readEvent_reference hletters) rfl ?_).reaches
  have hresolve : resolveReference name = some c := by simp only [resolveReference, hname]
  simp only [Assembly.step, readText, decode_encode, Except.mapError, bind, Except.bind, hresolve]
  rfl

/-- An escaped text puts in its characters. -/
theorem Place.Reaches.text : Place.Reaches ⟨encode (escape t) ++ lessThan :: rest, names, a⟩
    ⟨lessThan :: rest, names, a.addCharacters t⟩ := by
  -- a run of characters is read at once, so that those in front are carried along
  have hfront : ∀ run, (∀ c ∈ run, isSpecial c = false) →
      Place.Reaches ⟨encode (run ++ escape t) ++ lessThan :: rest, names, a⟩
        ⟨lessThan :: rest, names, a.addCharacters (run ++ t)⟩ := by
    induction t generalizing a with
    | nil =>
        intro run hrun
        rw [escape, List.flatMap_nil, List.append_nil]
        exact .characters hrun rfl
    | cons c t ih =>
        intro run hrun
        cases hspecial : isSpecial c with
        | true =>
            obtain ⟨name, hname, halpha, hescape⟩ := escapeChar_of_special hspecial
            have hreference : encode ('&' :: name ++ [';']) ++ (encode (escape t) ++ lessThan :: rest) =
                ampersand :: (encode (name ++ [';']) ++ (encode (escape t) ++ lessThan :: rest)) := rfl
            have hoctets : encode (run ++ escape (c :: t)) ++ lessThan :: rest = encode run ++ ampersand ::
                (encode (name ++ [';']) ++ (encode (escape t) ++ lessThan :: rest)) := by
              rw [← hreference, escape_cons, hescape, encode_append, encode_append, List.append_assoc,
                List.append_assoc]
            rw [hoctets]
            refine (characters hrun rfl).trans ?_
            rw [← hreference]
            refine (reference hname halpha).trans ?_
            have hall : a.addCharacters (run ++ c :: t) =
                ((a.addCharacters run).addCharacters [c]).addCharacters t := by
              rw [Assembly.addCharacters_addCharacters, Assembly.addCharacters_addCharacters]
              rfl
            rw [hall]
            exact ih [] (by simp)
        | false =>
            have hnext := ih (a := a) (run ++ [c]) (by
              intro y hy
              rcases List.mem_append.1 hy with hy | hy
              · exact hrun y hy
              · rw [List.mem_singleton.1 hy, hspecial])
            rw [List.append_assoc, List.append_assoc] at hnext
            rw [escape_cons, escapeChar_of_not_special hspecial]
            exact hnext
  exact hfront [] (by simp)

end Texts

/-! ## Names of rows -/

/-- An element or an attribute carries a name of XML. -/
def Node.Named (n : Node) : Prop := n.isElement ∨ n.isAttribute → isXmlName n.name

/-- The names in a row are names of XML. -/
def Row.Named : Row → Prop
  | .nil => True
  | .element _ name attributes inner _ rest =>
    isXmlName name ∧ (∀ p ∈ attributes, isXmlName p.1) ∧ inner.Named ∧ rest.Named

theorem Row.named_of_nodes {row : Row} {p next : Nat} (h : ∀ n ∈ row.nodes p next, n.Named) : row.Named := by
  induction row generalizing p next with
  | nil => trivial
  | element before name attributes inner tail rest ihInner ihRest =>
      simp only [nodes, List.mem_append, List.mem_cons] at h
      refine ⟨?_, fun a ha => ?_, ?_, ?_⟩
      · exact h _ (Or.inr (Or.inl rfl)) (Or.inl rfl)
      · exact h _ (Or.inr (Or.inr (Or.inl (List.mem_map.2 ⟨a, ha, rfl⟩)))) (Or.inr rfl)
      · exact ihInner fun n hn => h n (Or.inr (Or.inr (Or.inr (Or.inl hn))))
      · exact ihRest fun n hn => h n (Or.inr (Or.inr (Or.inr (Or.inr (Or.inr hn)))))

/-! ## Elements -/

section Elements

variable {a : Assembly} {names : List Octets} {left : Octets} {t tail : List Char} {name : String}
  {attributes : List (String × String)} {inner : Row}

theorem Kept.collapseChars (h : Kept t) : Kept (Text.collapseChars t) :=
  h.imp collapseChars_eq_nil.2 fun hblank => by rw [all_isBlank_collapseChars, hblank]

/-- A text that is kept becomes a piece at the next tag. -/
theorem Assembly.flush_addCharacters (hpending : a.pending = []) (ht : Kept t)
    (hinside : t = [] ∨ a.opened ≠ []) : (a.addCharacters t).flush = .ok (a.build (textPieces t)) := by
  have hflushed : (a.addCharacters t).flushed = textPieces t := by
    have htext : (a.addCharacters t).pending = t.reverse := by
      rw [addCharacters, hpending, List.append_nil]
    rw [flushed, htext, List.all_reverse, List.reverse_reverse]
    rcases ht with rfl | hblank
    · rfl
    · have hne : t.isEmpty = false := by
        cases t with
        | nil => cases hblank
        | cons c t => rfl
      rw [hblank, textPieces, hne]
  have hsettled : (a.addCharacters t).settled = a := Assembly.ext rfl rfl hpending.symm
  have hflush := flush_of_flushed (a := a.addCharacters t) (hinside.imp_left fun h => by rw [hflushed, h]; rfl)
  rw [hflush, hsettled, hflushed]

variable {b c : Assembly}

namespace Place.Reaches

theorem opening (hflush : a.flush = .ok b)
    (hroot : b.opened = [] → (b.document.node Document.rootId).children = []) (hname : isXmlName name)
    (hnames : ∀ p ∈ attributes, isXmlName p.1) (hnodup : (attributes.map (·.1)).Nodup) :
    Place.Reaches ⟨lessThan :: (encode (openingChars name attributes) ++ greaterThan :: left), names, a⟩
      ⟨left, encodeText name :: names, b.put (.opening name attributes)⟩ := by
  refine (Step.markup (readMarkup_opening hname hnames) ?_ ?_).reaches
  · rw [nesting, Tag.name_openingChars hname]
  · exact openElement_openingChars hflush hroot hname hnames hnodup

theorem emptyElement (hflush : a.flush = .ok b)
    (hroot : b.opened = [] → (b.document.node Document.rootId).children = []) (hname : isXmlName name)
    (hnames : ∀ p ∈ attributes, isXmlName p.1) (hnodup : (attributes.map (·.1)).Nodup) :
    Place.Reaches ⟨lessThan :: (encode (openingChars name attributes) ++ slash :: greaterThan :: left), names, a⟩
      ⟨left, names, b.build [.opening name attributes, .closing]⟩ :=
  (Step.markup (readMarkup_empty hname hnames) rfl
    (openElement_openingChars hflush hroot hname hnames hnodup)).reaches

theorem closing {i : Nat} {outer : List Nat} (hflush : a.flush = .ok b) (hopened : b.opened = i :: outer)
    (hcontent : (b.document.node i).content = .element name) (hname : isXmlName name) :
    Place.Reaches ⟨lessThan :: slash :: (encodeText name ++ greaterThan :: left), encodeText name :: names, a⟩
      ⟨left, names, b.put .closing⟩ := by
  refine (Step.markup (readMarkup_closing hname) ?_ ?_).reaches
  · rw [nesting, if_pos rfl]
  · exact closeElement_of_opened hflush hopened (by rw [Node.name, hcontent])

/-- An element in canonical form is read with all that it holds, if what it holds is. -/
theorem element (hpending : a.pending = []) (ht : Kept t) (hinside : t = [] ∨ a.opened ≠ [])
    (hroot : a.opened = [] → (a.document.node Document.rootId).children = []) (hname : isXmlName name)
    (hnames : ∀ p ∈ attributes, isXmlName p.1) (hnodup : (attributes.map (·.1)).Nodup) (htail : Kept tail)
    (hinner : ∀ {c : Assembly} {names : List Octets} {left : Octets}, c.pending = [] → c.opened ≠ [] →
      Place.Reaches ⟨encode inner.chars ++ left, names, c⟩ ⟨left, names, c.build inner.collapsed.pieces⟩) :
    Place.Reaches
      ⟨encode (elementChars name attributes (inner = .nil ∧ tail = []) (inner.chars ++ textChars tail)) ++ left,
        names, a.addCharacters t⟩
      ⟨left, names, a.build (Row.element t name attributes inner.collapsed (collapseChars tail) .nil).pieces⟩ := by
  have hflush : (a.addCharacters t).flush = .ok (a.build (textPieces t)) :=
    Assembly.flush_addCharacters hpending ht hinside
  have hbPending := Assembly.pending_build hpending (textPieces t)
  have hbRoot : (a.build (textPieces t)).opened = [] →
      ((a.build (textPieces t)).document.node Document.rootId).children = [] := by
    rw [Assembly.opened_build_text]
    intro hopened
    rw [hinside.resolve_right fun hne => hne hopened]
    exact hroot hopened
  rw [Row.pieces, Assembly.build_append, Assembly.build_cons]
  generalize a.build (textPieces t) = b at hflush hbPending hbRoot ⊢
  by_cases hempty : inner = .nil ∧ tail = []
  · -- the element holds nothing, and its tag closes it
    rw [decide_eq_true hempty, encode_elementChars_empty, hempty.1, hempty.2]
    exact emptyElement hflush hbRoot hname hnames hnodup
  · rw [decide_eq_false hempty, encode_elementChars, encode_append, List.append_assoc,
      Assembly.build_append, Assembly.build_append]
    refine (opening hflush hbRoot hname hnames hnodup).trans ?_
    -- inside, the element stays the innermost one
    have hcLt : b.document.size < (b.put (.opening name attributes)).document.size := by
      rw [Assembly.size_put_opening]
      omega
    have hcContent : ((b.put (.opening name attributes)).document.node b.document.size).content =
        .element name := Assembly.content_put_opening
    have hcOpened : (b.put (.opening name attributes)).opened = b.document.size :: b.opened := rfl
    have hcPending : (b.put (.opening name attributes)).pending = [] := hbPending
    generalize b.put (.opening name attributes) = c at hcLt hcContent hcOpened hcPending ⊢
    refine (hinner hcPending (by simp [hcOpened])).trans (Reaches.text.trans ?_)
    have hePending := Assembly.pending_build hcPending inner.collapsed.pieces
    have heOpened : (c.build inner.collapsed.pieces).opened = b.document.size :: b.opened := by
      rw [Assembly.opened_build_row, hcOpened]
    have hend : ((c.build inner.collapsed.pieces).build (textPieces (collapseChars tail))).opened =
        b.document.size :: b.opened := by
      rw [Assembly.opened_build_text, heOpened]
    refine closing (Assembly.flush_addCharacters hePending htail.collapseChars (Or.inr (by simp [heOpened])))
      hend ?_ hname
    rw [← Assembly.build_append, Assembly.content_build _ hcLt, hcContent]

/-- A row in canonical form is read as its pieces. -/
theorem row {row : Row} (hsound : row.Sound) (hnamed : row.Named) {a : Assembly} {names : List Octets}
    {left : Octets} (hpending : a.pending = []) (hopened : a.opened ≠ []) :
    Place.Reaches ⟨encode row.chars ++ left, names, a⟩ ⟨left, names, a.build row.collapsed.pieces⟩ := by
  induction row generalizing a names left with
  | nil => exact .refl
  | element before name attributes inner tail rest ihInner ihRest =>
      obtain ⟨hbefore, hnodup, hinner, htail, hrest⟩ := hsound
      obtain ⟨hname, hnames, hinnerNamed, hrestNamed⟩ := hnamed
      have hoctets : encode (Row.element before name attributes inner tail rest).chars ++ left =
          encode (textChars before) ++ (encode (elementChars name attributes (inner = .nil ∧ tail = [])
            (inner.chars ++ textChars tail)) ++ (encode rest.chars ++ left)) := by
        rw [Row.chars, encode_append, encode_append, List.append_assoc, List.append_assoc]
      have hpieces : (Row.element before name attributes inner tail rest).collapsed.pieces =
          (Row.element (collapseChars before) name attributes inner.collapsed (collapseChars tail) .nil).pieces ++
            rest.collapsed.pieces := by
        simp only [Row.collapsed, Row.pieces, List.append_assoc, List.cons_append, List.nil_append]
      obtain ⟨more, hmore⟩ : ∃ more, encode (elementChars name attributes (inner = .nil ∧ tail = [])
          (inner.chars ++ textChars tail)) ++ (encode rest.chars ++ left) = lessThan :: more := by
        unfold elementChars
        split <;> exact ⟨_, rfl⟩
      have hpiecesPending := Assembly.pending_build hpending
      rw [hoctets, hpieces, Assembly.build_append, hmore]
      refine Reaches.text.trans ?_
      rw [← hmore]
      refine (element hpending hbefore.collapseChars (Or.inr hopened) (fun h => absurd h hopened) hname hnames
        hnodup htail (ihInner hinner hinnerNamed)).trans ?_
      exact ihRest hrest hrestNamed (hpiecesPending _) (by rwa [Assembly.opened_build_row])

/-- The declaration in front of a document leaves no trace. -/
theorem declaration : Place.Reaches ⟨encode Xml.declaration.toList ++ left, names, a⟩ ⟨left, names, a⟩ := by
  -- behind the bracket and the question mark, the octets are not looked at
  obtain ⟨inside, hinside⟩ : ∃ inside, encode "xml version=\"1.0\" encoding=\"UTF-8\"?".toList = inside :=
    ⟨_, rfl⟩
  have hdeclaration : encode Xml.declaration.toList = lessThan :: questionMark :: (inside ++ [greaterThan]) := by
    rw [← hinside]
    decide
  have hcut : cut (closeStep closesInstruction) [] (questionMark :: inside ++ greaterThan :: left) =
      some (questionMark :: inside, left) := by
    have hread : (questionMark :: inside).foldlM (closeStep closesInstruction) [] =
        some (questionMark :: inside).reverse := by
      rw [← hinside]
      decide
    refine cut_of_foldlM hread ?_
    rw [← hinside]
    decide
  have hevent : instructionOf (questionMark :: inside) = .ok (.instruction inside.dropLast) := by
    rw [← hinside]
    rfl
  have hmarkup : readMarkup (questionMark :: (inside ++ greaterThan :: left)) =
      .ok (.instruction inside.dropLast, left) := by
    rw [readMarkup.eq_def]
    exact readUpTo_of_cut hcut hevent
  have hoctets : encode Xml.declaration.toList ++ left =
      lessThan :: questionMark :: (inside ++ greaterThan :: left) := by
    rw [hdeclaration, List.cons_append, List.cons_append, List.append_assoc, List.singleton_append]
  rw [hoctets]
  exact (Step.markup hmarkup rfl rfl).reaches

end Place.Reaches

end Elements

/-! ## Documents -/

/-- Behind the outermost element, the document is complete. -/
theorem Assembly.finish_of_closed {a : Assembly} (hpending : a.pending = []) (hopened : a.opened = [])
    (hchildren : (a.document.node Document.rootId).children ≠ []) : a.finish = .ok a.document :=
  finish_iff.2 ⟨a, flush_of_pending hpending, hopened, hchildren, rfl⟩

/-- A document that is one element in canonical form is read as its row, white space folded. -/
theorem Document.parse_element {name : String} {attributes : List (String × String)} {inner : Row}
    {tail : List Char} (hsound : (Row.element [] name attributes inner tail .nil).Sound)
    (hnamed : (Row.element [] name attributes inner tail .nil).Named) :
    Document.parse (encode (declaration.toList ++ (Row.element [] name attributes inner tail .nil).chars)) =
      .ok (Assembly.start.build (Row.element [] name attributes inner tail .nil).collapsed.pieces).document := by
  obtain ⟨-, hnodup, hinner, htail, -⟩ := hsound
  obtain ⟨hname, hnames, hinnerNamed, -⟩ := hnamed
  have hmark : ∀ octets, dropMark (encode declaration.toList ++ octets) = encode declaration.toList ++ octets :=
    fun _ => rfl
  have hchars : (Row.element [] name attributes inner tail .nil).chars =
      elementChars name attributes (inner = .nil ∧ tail = []) (inner.chars ++ textChars tail) := by
    simp only [Row.chars, textChars, collapseChars, Text.collapseFrom, escape, List.flatMap_nil, List.nil_append,
      List.append_nil]
  have hread : Place.Reaches ⟨encode declaration.toList ++ encode (elementChars name attributes
      (inner = .nil ∧ tail = []) (inner.chars ++ textChars tail)), [], .start⟩
        ⟨[], [], Assembly.start.build (Row.element [] name attributes inner tail .nil).collapsed.pieces⟩ := by
    refine Place.Reaches.declaration.trans ?_
    rw [← List.append_nil (encode (elementChars name _ _ _))]
    have hpending : Assembly.start.pending = [] := rfl
    have hroot : Assembly.start.opened = [] → (Assembly.start.document.node rootId).children = [] := fun _ => rfl
    exact Place.Reaches.element hpending (Or.inl rfl) (Or.inl rfl) hroot hname hnames hnodup htail
      fun hpending hopened => Place.Reaches.row hinner hinnerNamed hpending hopened
  rw [Document.parse, encode_append, hmark, hmark, hchars, Document.ofReading_read hread]
  refine Assembly.finish_of_closed (Assembly.pending_build rfl _) Assembly.opened_build_row
    (Assembly.children_root_build ?_)
  simp [Row.collapsed]

/-- The canonical form of a document, which one walk writes, can be read, and gives the same nodes with the
white space of texts folded. The canonical form of what is read is the same again. -/
theorem Document.parse_canonical {octets : Octets} {d : Document} (h : Document.parse octets = .ok d)
    (hnames : ∀ n ∈ d.nodes, n.isElement ∨ n.isAttribute → isXmlName n.name) :
    d.canonical = String.ofList ((d.fullWalk rootId).flatMap d.writtenAt) ∧
      ∃ e, Document.parseText d.canonical = .ok e ∧ e.nodes = d.nodes.map Node.collapsed ∧
        e.canonical = d.canonical := by
  refine ⟨canonical_eq_written h, ?_⟩
  obtain ⟨name, attributes, inner, tail, hsound, hd⟩ := Document.exists_row h
  have hlist : d.list = _ := hd ▸ Assembly.list_start_build
  have hnamed : (Row.element [] name attributes inner tail .nil).Named := by
    have hnodes : ∀ n ∈ (Row.element [] name attributes inner tail .nil).nodes 0 1, n.Named := by
      intro n hn
      refine hnames n ?_
      rw [← Array.mem_toList_iff]
      change n ∈ d.list
      rw [hlist]
      exact List.mem_cons_of_mem _ hn
    exact Row.named_of_nodes hnodes
  have hcanonical : d.canonical = _ := hd ▸ Assembly.canonical_start_build
  refine ⟨(Assembly.start.build (Row.element [] name attributes inner tail .nil).collapsed.pieces).document,
    ?_, ?_, ?_⟩
  · rw [Document.parseText, hcanonical, Text.Utf8.encodeText, String.toList_ofList]
    exact Document.parse_element hsound hnamed
  · rw [← Array.toList_inj, Array.toList_map]
    change Document.list _ = d.list.map _
    rw [hlist, Assembly.list_start_build, Row.nodes_collapsed, Row.ids_collapsed]
    rfl
  · rw [hcanonical, Assembly.canonical_start_build, Row.chars_collapsed]

theorem Document.parse_canonical_mixed : ∃ d e,
    Document.parse (encodeText "<a q='x &amp; \"y'>1 &lt;\n  2<b></b> <![CDATA[&]]></a>") = .ok d ∧
    d.canonical = declaration ++ "<a q=\"x &amp; &quot;y\">1 &lt; 2<b/> &amp;</a>" ∧
    (∀ n ∈ d.nodes, n.isElement ∨ n.isAttribute → isXmlName n.name) ∧
    d.canonical = String.ofList ((d.fullWalk rootId).flatMap d.writtenAt) ∧
    Document.parseText d.canonical = .ok e ∧ e.nodes = d.nodes.map Node.collapsed ∧
    e.canonical = d.canonical := by
  have hread : (Document.parse (encodeText "<a q='x &amp; \"y'>1 &lt;\n  2<b></b> <![CDATA[&]]></a>")).toOption.map
      (fun d => (d.canonical, d.list)) = some (declaration ++ "<a q=\"x &amp; &quot;y\">1 &lt; 2<b/> &amp;</a>",
        [⟨.document, none, [1], []⟩, ⟨.element "a", some 0, [3, 4, 5], [2]⟩, ⟨.attr "q" "x & \"y", some 1, [], []⟩,
          ⟨.text "1 <\n  2", some 1, [], []⟩, ⟨.element "b", some 1, [], []⟩, ⟨.text " &", some 1, [], []⟩]) := by
    decide +kernel
  cases hd : Document.parse (encodeText "<a q='x &amp; \"y'>1 &lt;\n  2<b></b> <![CDATA[&]]></a>") with
  | error m => simp [hd, Except.toOption] at hread
  | ok d =>
      simp only [hd, Except.toOption, Option.map_some, Option.some.injEq, Prod.mk.injEq] at hread
      obtain ⟨hcanonical, hlist⟩ := hread
      have hnames : ∀ n ∈ d.nodes, n.isElement ∨ n.isAttribute → isXmlName n.name := by
        intro n hn
        rw [← Array.mem_toList_iff] at hn
        change n ∈ d.list at hn
        rw [hlist] at hn
        revert n
        decide
      obtain ⟨hwritten, e, he⟩ := Document.parse_canonical hd hnames
      exact ⟨d, e, rfl, hcanonical, hnames, hwritten, he⟩

end Interchange.Xml
