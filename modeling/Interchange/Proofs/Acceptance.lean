import Interchange.Proofs.Arena
import Interchange.Proofs.AttributeLists
import Interchange.Proofs.Characters

/-!
# What is a document

Events are those of a document exactly if what they hold can be read, their tags pair up by name, and one element
holds all that is not blank (`Document.ofReading_accepts`). A document under construction knows of the tags in
front only the names that stand open (`Assembly.names`); what these names ask of the events to come is `Closes`.
-/

namespace Interchange.Xml

open Text.Utf8 (Octets encode encodeText)
open Document (rootId)

/-! ## Events of a document -/

/-- A key and a value that are text, the references in the value resolved. -/
def RawAttribute.Readable (raw : RawAttribute) : Prop :=
  ∃ key value text, raw.key = encode key ∧ raw.value = encode value ∧ unescape value = .ok text

/-- A name, and behind it a list of attributes with keys that differ. -/
structure Tag.Readable (tag : Tag) : Prop where
  name : IsText tag.name
  attributes : ∃ items, AttributeList items (tag.content.dropWhile (!isSpace ·)) ∧
    (items.map (·.key)).Nodup ∧ ∀ item ∈ items, item.Readable

/-- What an event holds can be read. -/
def Event.Readable : Event → Prop
  | .opening tag | .emptyElement tag => tag.Readable
  | .closing name => IsText name
  | .characters data | .literal data => IsText data
  | .reference name => ∃ cs c, name = encode cs ∧ resolveReference cs = some c
  | .comment _ | .instruction _ | .doctype _ => True

/-- Every opening tag has a closing tag of its name, and tags do not overlap. -/
inductive Balanced : List Event → Prop
  | nil : Balanced []
  | other {e : Event} {rest : List Event} (htag : e.isTag = false) (hrest : Balanced rest) : Balanced (e :: rest)
  | emptyElement (tag : Tag) {rest : List Event} (hrest : Balanced rest) : Balanced (.emptyElement tag :: rest)
  | element (tag : Tag) {inner rest : List Event} (hinner : Balanced inner) (hrest : Balanced rest) :
      Balanced (.opening tag :: (inner ++ .closing tag.name :: rest))

/-- One element, with all that it holds. -/
inductive IsElement : List Event → Prop
  | emptyElement (tag : Tag) : IsElement [.emptyElement tag]
  | element (tag : Tag) {inner : List Event} (hinner : Balanced inner) :
      IsElement (.opening tag :: (inner ++ [.closing tag.name]))

/-- One element, and nothing but blank characters around it. -/
def IsSingle (events : List Event) : Prop :=
  ∃ before element after, events = before ++ (element ++ after) ∧
    IsBlank before ∧ IsElement element ∧ IsBlank after

structure Acceptable (events : List Event) : Prop where
  readable : ∀ e ∈ events, e.Readable
  single : IsSingle events

/-! ## What can be read -/

section Reading

open Assembly (readPair readPairs)

variable {a b : Assembly} {e : Event} {tag : Tag} {raw : RawAttribute} {events : List Event}

theorem exists_readPair : (∃ pair, readPair raw = .ok pair) ↔ raw.Readable := by
  simp only [readPair, bind_eq_ok, readText_eq_ok, mapError_eq_ok, RawAttribute.Readable]
  constructor
  · rintro ⟨_, key, hkey, value, hvalue, text, htext, _⟩
    exact ⟨key, value, text, hkey, hvalue, htext⟩
  · rintro ⟨key, value, text, hkey, hvalue, htext⟩
    exact ⟨_, key, hkey, value, hvalue, text, htext, rfl⟩

theorem exists_readPairs : (∃ pairs, readPairs tag.attributes = .ok pairs) ↔
    ∃ items, AttributeList items (tag.content.dropWhile (!isSpace ·)) ∧ (items.map (·.key)).Nodup ∧
      ∀ item ∈ items, item.Readable := by
  simp only [readPairs_attributes]
  constructor
  · rintro ⟨pairs, items, hlist, hnodup, hpairs⟩
    exact ⟨items, hlist, hnodup, fun item hitem => exists_readPair.1 (ok_of_mapM hpairs hitem)⟩
  · rintro ⟨items, hlist, hnodup, hreadable⟩
    obtain ⟨pairs, hpairs⟩ := mapM_total fun item hitem => exists_readPair.2 (hreadable item hitem)
    exact ⟨pairs, items, hlist, hnodup, hpairs⟩

theorem Tag.readable_iff : tag.Readable ↔ (∃ name, readText tag.name = .ok name) ∧
    ∃ pairs, readPairs tag.attributes = .ok pairs := by
  rw [exists_readPairs]
  simp only [readText_eq_ok]
  exact ⟨fun h => ⟨h.name, h.attributes⟩, fun h => ⟨h.1, h.2⟩⟩

theorem Event.readable_iff (htag : e.isTag = false) : e.Readable ↔ ∃ cs, e.chars? = some cs := by
  cases e with
  | opening _ | emptyElement _ | closing _ => cases htag
  | characters data | literal data => simp only [Event.Readable, Event.chars?, toOption_decode, IsText]
  | reference name =>
      simp only [Event.Readable, Event.chars?, Option.map_eq_some_iff, Option.bind_eq_some_iff, toOption_decode]
      constructor
      · rintro ⟨cs, c, hname, hc⟩
        exact ⟨[c], c, ⟨cs, hname, hc⟩, rfl⟩
      · rintro ⟨_, c, ⟨cs, hname, hc⟩, _⟩
        exact ⟨cs, c, hname, hc⟩
  | comment _ | instruction _ | doctype _ => simp [Event.Readable, Event.chars?]

/-- Whatever is read can be read. -/
theorem Event.readable_of_step (h : a.step e = .ok b) : e.Readable := by
  cases e with
  | opening tag | emptyElement tag =>
      obtain ⟨_, name, pairs, _, _, hname, hpairs, _⟩ := Assembly.openElement_eq_ok h
      exact Tag.readable_iff.2 ⟨⟨name, hname⟩, pairs, hpairs⟩
  | closing name =>
      obtain ⟨_, _, _, cs, _, _, hname, _⟩ := Assembly.closeElement_iff.1 h
      exact ⟨cs, hname⟩
  | characters _ | literal _ | reference _ | comment _ | instruction _ | doctype _ =>
      obtain ⟨cs, hcs, _⟩ := (Assembly.step_eq_ok rfl).1 h
      exact (Event.readable_iff rfl).2 ⟨cs, hcs⟩

theorem readable_of_foldlM (h : events.foldlM Assembly.step a = .ok b) : ∀ e ∈ events, e.Readable := by
  induction events generalizing a with
  | nil => simp
  | cons e events ih =>
      obtain ⟨c, hstep, hrest⟩ := Assembly.foldlM_cons.1 h
      exact List.forall_mem_cons.2 ⟨Event.readable_of_step hstep, ih hrest⟩

end Reading

/-! ## The names that stand open -/

namespace Assembly

variable {a b c : Assembly} {e : Event} {events : List Event} {name : String} {pieces : List Piece}
  {attributes : List (String × String)} {cs : List Char}

/-- The names of the open elements, innermost first. -/
def names (a : Assembly) : List Octets := a.opened.map fun i => encodeText (a.document.node i).name

theorem names_eq_nil : a.names = [] ↔ a.opened = [] := List.map_eq_nil_iff

theorem names_of_opened (hopened : b.opened = a.opened) (hcontent : ∀ i < a.document.size,
    (b.document.node i).content = (a.document.node i).content) : b.names = a.names := by
  rw [names, names, hopened]
  refine List.map_congr_left fun i hi => ?_
  rw [Node.name, Node.name, hcontent i (a.opened_lt i hi)]

theorem names_flush (h : a.flush = .ok c) : c.names = a.names := by
  obtain ⟨hc, _, hopened⟩ := flush_eq_ok h
  refine names_of_opened hopened fun i hi => ?_
  rw [hc]
  exact content_build (a := a.settled) _ hi

theorem names_put_opening : (a.put (.opening name attributes)).names = encodeText name :: a.names := by
  have hopened : (a.put (.opening name attributes)).opened = a.document.size :: a.opened := rfl
  have houter : (a.opened.map fun i =>
      encodeText ((a.put (.opening name attributes)).document.node i).name) = a.names :=
    List.map_congr_left fun i hi => by rw [Node.name, Node.name, content_put _ (a.opened_lt i hi)]
  rw [names, hopened, List.map_cons, houter, Node.name, content_put_opening]

theorem names_leave : a.leave.names = a.names.tail := by
  simp only [names, leave, List.map_tail]

/-- Names are opened and closed as a reader of tags has it. -/
theorem nesting_of_step (h : a.step e = .ok b) : nesting a.names e = .ok b.names := by
  cases e with
  | opening tag =>
      obtain ⟨c, name, attributes, hflush, _, hname, _, rfl⟩ := openElement_eq_ok h
      have hopened : (c.put (.opening (String.ofList name) attributes)).names = tag.name :: a.names := by
        rw [names_put_opening, names_flush hflush, readText_eq_ok.1 hname, encodeText, String.toList_ofList]
      exact congrArg Except.ok hopened.symm
  | emptyElement tag =>
      obtain ⟨c, name, attributes, hflush, _, _, _, rfl⟩ := openElement_eq_ok h
      have hclosed : (c.put (.opening (String.ofList name) attributes)).leave.names = a.names := by
        rw [names_leave, names_put_opening, List.tail_cons, names_flush hflush]
      exact congrArg Except.ok hclosed.symm
  | closing name =>
      obtain ⟨c, i, outer, cs, hflush, hopened, rfl, hname, rfl⟩ := closeElement_iff.1 h
      have hnames : c.names = encode cs :: c.leave.names := by
        rw [names_leave, names, hopened, List.map_cons, hname, encodeText, String.toList_ofList, List.tail_cons]
      rw [← names_flush hflush, hnames, nesting, if_pos rfl]
  | characters _ | literal _ | reference _ | comment _ | instruction _ | doctype _ =>
      obtain ⟨cs, _, rfl⟩ := (step_eq_ok rfl).1 h
      rfl

/-! ## The outermost element -/

/-- Something hangs on the document. -/
def Rooted (a : Assembly) : Prop := (a.document.node rootId).children ≠ []

theorem Rooted.put {piece : Piece} (h : a.Rooted) : (a.put piece).Rooted := by
  have happend : ∀ content,
      ((a.document.append a.current a.current_lt .child content).node rootId).children ≠ [] := by
    intro content
    have hroot : rootId < a.document.size := a.size_pos
    rw [Document.node_append_of_lt hroot]
    split
    · simp [Document.Link.attach]
    · exact h
  cases piece with
  | opening name attributes =>
      have hne : rootId ≠ a.document.size := Nat.ne_of_lt a.size_pos
      rw [Rooted, document_put_opening, Document.node_appendAttributes_of_ne (by simp [rootId]) hne]
      exact happend _
  | text cs =>
      rw [Rooted, document_put_text]
      exact happend _
  | closing => exact h

theorem Rooted.build (h : a.Rooted) : (a.build pieces).Rooted := by
  induction pieces generalizing a with
  | nil => exact h
  | cons piece pieces ih => exact ih h.put

theorem Rooted.flush (h : a.Rooted) (hflush : a.flush = .ok c) : c.Rooted := by
  obtain ⟨rfl, _, _⟩ := flush_eq_ok hflush
  exact Rooted.build (a := a.settled) h

theorem Rooted.step (h : a.Rooted) (hstep : a.step e = .ok b) : b.Rooted := by
  cases step_advance hstep with
  | characters cs => exact h
  | opening hflush _ _ | emptyElement hflush _ _ | closing hflush _ => exact (h.flush hflush).build

theorem Rooted.foldlM (h : a.Rooted) (hrun : events.foldlM Assembly.step a = .ok b) : b.Rooted := by
  induction events generalizing a with
  | nil =>
      cases hrun
      exact h
  | cons e events ih =>
      obtain ⟨c, hstep, hrest⟩ := foldlM_cons.1 hrun
      exact ih (h.step hstep) hrest

/-- An element at the outermost place hangs on the document. -/
theorem rooted_openElement {enter : Bool} {tag : Tag} (hopened : a.opened = [])
    (h : a.openElement enter tag = .ok b) : b.Rooted := by
  obtain ⟨c, name, attributes, hflush, _, _, _, rfl⟩ := openElement_eq_ok h
  have hcurrent : c.current = rootId := by
    rw [current, (flush_eq_ok hflush).2.2, hopened]
    rfl
  have hroot : rootId < c.document.size := c.size_pos
  have hput : (c.put (.opening (String.ofList name) attributes)).Rooted := by
    rw [Rooted, document_put_opening, Document.node_appendAttributes_of_ne (by simp [rootId]) (Nat.ne_of_lt hroot),
      Document.node_append_of_lt hroot, if_pos hcurrent]
    simp [Document.Link.attach]
  exact hput

/-! ## The text at hand outside -/

/-- Outside all elements, the text at hand can be dropped if it is blank, and not be put in otherwise. -/
theorem flush_outside (hopened : a.opened = []) :
    a.flush = .ok c ↔ a.pending.all Text.isBlank = true ∧ c = a.settled := by
  constructor
  · intro h
    obtain ⟨hc, hinside, _⟩ := flush_eq_ok h
    have hflushed := hinside.resolve_right fun hne => hne hopened
    rw [hflushed] at hc
    unfold flushed at hflushed
    split at hflushed
    · rename_i hblank
      exact ⟨hblank, hc⟩
    · cases hflushed
  · rintro ⟨hblank, rfl⟩
    rw [flush, if_pos hblank]
    rfl

theorem blank_of_openElement {enter : Bool} {tag : Tag} (hopened : a.opened = [])
    (h : a.openElement enter tag = .ok b) : a.pending.all Text.isBlank = true := by
  obtain ⟨_, _, _, hflush, _⟩ := openElement_eq_ok h
  exact ((flush_outside hopened).1 hflush).1

theorem blank_addCharacters (h : (a.addCharacters cs).pending.all Text.isBlank = true) :
    a.pending.all Text.isBlank = true ∧ cs.all Text.isBlank = true := by
  rw [addCharacters, List.all_append, Bool.and_eq_true, List.all_reverse] at h
  exact h.symm

end Assembly

/-! ## From documents to their grammar -/

/-- What the names that stand open ask of the events to come: the innermost is closed behind balanced events,
then the next; behind the last, nothing but blank characters follows. -/
def Closes : List Octets → List Event → Prop
  | [], events => IsBlank events
  | name :: outer, events =>
    ∃ inner rest, events = inner ++ .closing name :: rest ∧ Balanced inner ∧ Closes outer rest

namespace Closes

variable {names outer : List Octets} {events rest : List Event} {e : Event} {cs : List Char}

theorem characters (he : e.chars? = some cs) (hblank : names = [] → cs.all Text.isBlank = true)
    (h : Closes names events) : Closes names (e :: events) := by
  cases names with
  | nil => exact IsBlank.cons he (hblank rfl) h
  | cons name outer =>
      obtain ⟨inner, rest, rfl, hinner, hrest⟩ := h
      exact ⟨e :: inner, rest, rfl, .other (Event.isTag_of_chars? he) hinner, hrest⟩

theorem emptyElement (tag : Tag) (hne : names ≠ []) (h : Closes names events) :
    Closes names (.emptyElement tag :: events) := by
  cases names with
  | nil => exact absurd rfl hne
  | cons name outer =>
      obtain ⟨inner, rest, rfl, hinner, hrest⟩ := h
      exact ⟨.emptyElement tag :: inner, rest, rfl, .emptyElement tag hinner, hrest⟩

theorem opening (tag : Tag) (hne : names ≠ []) (h : Closes (tag.name :: names) events) :
    Closes names (.opening tag :: events) := by
  cases names with
  | nil => exact absurd rfl hne
  | cons name outer =>
      obtain ⟨inner, _, rfl, hinner, after, rest, rfl, hafter, hrest⟩ := h
      exact ⟨.opening tag :: (inner ++ .closing tag.name :: after), rest, by simp, .element tag hinner hafter,
        hrest⟩

theorem closing {name : Octets} (h : Closes outer events) : Closes (name :: outer) (.closing name :: events) :=
  ⟨[], events, rfl, .nil, h⟩

end Closes

theorem nesting_closing {names outer : List Octets} {name : Octets}
    (h : nesting names (.closing name) = .ok outer) : names = name :: outer := by
  cases names with
  | nil => cases h
  | cons expected names =>
      rw [nesting] at h
      split at h
      · rename_i heq
        cases h
        rw [heq]
      · cases h

section Grammar

open Assembly (Rooted)

variable {a b : Assembly} {events : List Event} {d : Document} {tag : Tag} {enter : Bool}

/-- There is no second outermost element. -/
theorem opened_of_openElement (hroot : a.Rooted) (h : a.openElement enter tag = .ok b) : a.opened ≠ [] := by
  obtain ⟨c, _, _, hflush, honly, _⟩ := Assembly.openElement_eq_ok h
  rw [← (Assembly.flush_eq_ok hflush).2.2]
  exact fun hopened => hroot.flush hflush (honly hopened)

/-- Once the outermost element stands, what is read up to the end closes what is open. -/
theorem closes_of_run (hroot : a.Rooted) (hrun : events.foldlM Assembly.step a = .ok b)
    (hfinish : b.finish = .ok d) :
    Closes a.names events ∧ (a.opened = [] → a.pending.all Text.isBlank = true) := by
  -- characters outside all elements are looked at only when they are put in, together with those behind them
  induction events generalizing a with
  | nil =>
      cases hrun
      obtain ⟨c, hflush, hopened, _, _⟩ := Assembly.finish_iff.1 hfinish
      have hnil : b.opened = [] := by rw [← (Assembly.flush_eq_ok hflush).2.2, hopened]
      rw [Assembly.names_eq_nil.2 hnil]
      exact ⟨.nil, fun hopened => ((Assembly.flush_outside hopened).1 hflush).1⟩
  | cons e events ih =>
      obtain ⟨c, hstep, hrest⟩ := Assembly.foldlM_cons.1 hrun
      obtain ⟨hcloses, hblank⟩ := ih (hroot.step hstep) hrest
      have hnames := Assembly.nesting_of_step hstep
      cases e with
      | opening tag =>
          have hopened := opened_of_openElement hroot hstep
          rw [← Except.ok.inj hnames] at hcloses
          exact ⟨hcloses.opening tag fun hnil => hopened (Assembly.names_eq_nil.1 hnil),
            fun hnil => absurd hnil hopened⟩
      | emptyElement tag =>
          have hopened := opened_of_openElement hroot hstep
          rw [← Except.ok.inj hnames] at hcloses
          exact ⟨hcloses.emptyElement tag fun hnil => hopened (Assembly.names_eq_nil.1 hnil),
            fun hnil => absurd hnil hopened⟩
      | closing name =>
          have hopen : a.names = name :: c.names := nesting_closing hnames
          rw [hopen]
          refine ⟨hcloses.closing, fun hnil => ?_⟩
          rw [Assembly.names_eq_nil.2 hnil] at hopen
          cases hopen
      | characters _ | literal _ | reference _ | comment _ | instruction _ | doctype _ =>
          obtain ⟨cs, hcs, rfl⟩ := (Assembly.step_eq_ok rfl).1 hstep
          have hboth := fun hopened : a.opened = [] => Assembly.blank_addCharacters (hblank hopened)
          exact ⟨hcloses.characters hcs fun hnil => (hboth (Assembly.names_eq_nil.1 hnil)).2,
            fun hopened => (hboth hopened).1⟩

/-- Before the outermost element stands, what is read up to the end is one element. -/
theorem single_of_run (hroot : (a.document.node rootId).children = []) (hopened : a.opened = [])
    (hrun : events.foldlM Assembly.step a = .ok b) (hfinish : b.finish = .ok d) :
    IsSingle events ∧ a.pending.all Text.isBlank = true := by
  induction events generalizing a with
  | nil =>
      cases hrun
      obtain ⟨c, hflush, _, hchildren, _⟩ := Assembly.finish_iff.1 hfinish
      obtain ⟨_, rfl⟩ := (Assembly.flush_outside hopened).1 hflush
      exact absurd hroot hchildren
  | cons e events ih =>
      obtain ⟨c, hstep, hrest⟩ := Assembly.foldlM_cons.1 hrun
      have hnames := Assembly.nesting_of_step hstep
      rw [Assembly.names_eq_nil.2 hopened] at hnames
      cases e with
      | opening tag =>
          obtain ⟨hcloses, -⟩ := closes_of_run (Assembly.rooted_openElement hopened hstep) hrest hfinish
          rw [← Except.ok.inj hnames] at hcloses
          obtain ⟨inner, after, rfl, hinner, hafter⟩ := hcloses
          exact ⟨⟨[], _, after, by simp, .nil, .element tag hinner, hafter⟩,
            Assembly.blank_of_openElement hopened hstep⟩
      | emptyElement tag =>
          obtain ⟨hcloses, -⟩ := closes_of_run (Assembly.rooted_openElement hopened hstep) hrest hfinish
          rw [← Except.ok.inj hnames] at hcloses
          exact ⟨⟨[], _, events, rfl, .nil, .emptyElement tag, hcloses⟩,
            Assembly.blank_of_openElement hopened hstep⟩
      | closing name => cases hnames
      | characters _ | literal _ | reference _ | comment _ | instruction _ | doctype _ =>
          obtain ⟨cs, hcs, rfl⟩ := (Assembly.step_eq_ok rfl).1 hstep
          obtain ⟨⟨before, element, after, rfl, hbefore, helement, hafter⟩, hblank⟩ :=
            ih (a := a.addCharacters cs) hroot hopened hrest
          obtain ⟨hpending, hchars⟩ := Assembly.blank_addCharacters hblank
          exact ⟨⟨_ :: before, element, after, rfl, hbefore.cons hcs hchars, helement, hafter⟩, hpending⟩

/-! ## From the grammar to documents -/

theorem opened_of_names {names : List Octets} (h : a.names = names) (hne : names ≠ []) : a.opened ≠ [] := by
  rwa [Ne, ← Assembly.names_eq_nil, h]

/-- Inside an element, the text at hand can be put in. -/
theorem exists_flush (hopened : a.opened ≠ []) : ∃ c, a.flush = .ok c ∧ c.opened ≠ [] := by
  have hflush := Assembly.flush_of_flushed (Or.inr hopened)
  exact ⟨_, hflush, (Assembly.flush_eq_ok hflush).2.2 ▸ hopened⟩

section Element

variable {c : Assembly} {inner : List Event}

theorem exists_openElement (htag : tag.Readable) (hflush : a.flush = .ok c)
    (hroot : c.opened = [] → (c.document.node rootId).children = []) :
    ∃ b, a.openElement enter tag = .ok b := by
  obtain ⟨⟨name, hname⟩, pairs, hpairs⟩ := Tag.readable_iff.1 htag
  exact ⟨_, Assembly.openElement_iff.2 ⟨c, name, pairs, hflush, hroot, hname, hpairs, rfl⟩⟩

theorem exists_emptyElement (htag : tag.Readable) (hflush : a.flush = .ok c)
    (hroot : c.opened = [] → (c.document.node rootId).children = []) :
    ∃ b, a.step (.emptyElement tag) = .ok b ∧ b.names = a.names := by
  obtain ⟨b, hb⟩ : ∃ b, a.step (.emptyElement tag) = .ok b := exists_openElement htag hflush hroot
  exact ⟨b, hb, (Except.ok.inj (Assembly.nesting_of_step hb)).symm⟩

theorem exists_opening (htag : tag.Readable) (hflush : a.flush = .ok c)
    (hroot : c.opened = [] → (c.document.node rootId).children = []) :
    ∃ b, a.step (.opening tag) = .ok b ∧ b.names = tag.name :: a.names := by
  obtain ⟨b, hb⟩ : ∃ b, a.step (.opening tag) = .ok b := exists_openElement htag hflush hroot
  exact ⟨b, hb, (Except.ok.inj (Assembly.nesting_of_step hb)).symm⟩

theorem exists_closing {name : Octets} {outer : List Octets} (hname : IsText name)
    (hnames : a.names = name :: outer) : ∃ b, a.step (.closing name) = .ok b ∧ b.names = outer := by
  obtain ⟨c, hflush, hopened⟩ := exists_flush (opened_of_names hnames (List.cons_ne_nil _ _))
  obtain ⟨i, rest, hcons⟩ := List.exists_cons_of_ne_nil hopened
  obtain ⟨cs, rfl⟩ := hname
  have htop := Assembly.names_flush hflush
  rw [hnames, Assembly.names, hcons, List.map_cons, List.cons.injEq] at htop
  have hnode : (c.document.node i).name = String.ofList cs := by
    refine Text.Utf8.encodeText_inj.1 (htop.1.trans ?_)
    rw [encodeText, String.toList_ofList]
  have hstep : a.step (.closing (encode cs)) = .ok c.leave :=
    Assembly.closeElement_iff.2 ⟨c, i, rest, cs, hflush, hcons, rfl, hnode, rfl⟩
  have hnesting := Assembly.nesting_of_step hstep
  rw [hnames] at hnesting
  exact ⟨_, hstep, (List.cons.inj (nesting_closing hnesting)).2.symm⟩

/-- An element is read if what it holds is, and leaves open what was open. -/
theorem exists_element (htag : tag.Readable) (hflush : a.flush = .ok c)
    (hroot : c.opened = [] → (c.document.node rootId).children = [])
    (hinner : ∀ {b : Assembly}, b.opened ≠ [] → ∃ c, inner.foldlM Assembly.step b = .ok c ∧ c.names = b.names) :
    ∃ b, (.opening tag :: (inner ++ [.closing tag.name])).foldlM Assembly.step a = .ok b ∧ b.names = a.names := by
  obtain ⟨b₁, hopening, hnames₁⟩ := exists_opening htag hflush hroot
  obtain ⟨b₂, hrun, hnames₂⟩ := hinner (opened_of_names hnames₁ (List.cons_ne_nil _ _))
  obtain ⟨b, hclosing, hnames⟩ := exists_closing htag.name (hnames₂.trans hnames₁)
  refine ⟨b, Assembly.foldlM_cons.2 ⟨b₁, hopening, Assembly.foldlM_append.2 ⟨b₂, hrun, ?_⟩⟩, hnames⟩
  exact Assembly.foldlM_cons.2 ⟨b, hclosing, rfl⟩

end Element

/-- Inside an element, balanced events that can be read are read, and leave open what was open. -/
theorem Balanced.exists_run (h : Balanced events) (hread : ∀ e ∈ events, e.Readable) (hopened : a.opened ≠ []) :
    ∃ b, events.foldlM Assembly.step a = .ok b ∧ b.names = a.names := by
  induction h generalizing a with
  | nil => exact ⟨a, rfl, rfl⟩
  | @other e rest htag hrest ih =>
      obtain ⟨he, hread⟩ := List.forall_mem_cons.1 hread
      obtain ⟨cs, hcs⟩ := (Event.readable_iff htag).1 he
      obtain ⟨b, hb, hnames⟩ := ih (a := a.addCharacters cs) hread hopened
      exact ⟨b, Assembly.foldlM_cons.2 ⟨_, (Assembly.step_eq_ok htag).2 ⟨cs, hcs, rfl⟩, hb⟩, hnames⟩
  | @emptyElement tag rest hrest ih =>
      obtain ⟨htag, hread⟩ := List.forall_mem_cons.1 hread
      obtain ⟨c, hflush, hc⟩ := exists_flush hopened
      obtain ⟨b, hstep, hnames⟩ := exists_emptyElement htag hflush fun hnil => absurd hnil hc
      have hinside := opened_of_names hnames (mt Assembly.names_eq_nil.1 hopened)
      obtain ⟨b', hrun, hend⟩ := ih hread hinside
      exact ⟨b', Assembly.foldlM_cons.2 ⟨b, hstep, hrun⟩, hend.trans hnames⟩
  | @element tag inner rest hinner hrest ihInner ihRest =>
      obtain ⟨htag, hread⟩ := List.forall_mem_cons.1 hread
      obtain ⟨hreadInner, hread⟩ := List.forall_mem_append.1 hread
      obtain ⟨c, hflush, hc⟩ := exists_flush hopened
      obtain ⟨b, helement, hnames⟩ :=
        exists_element htag hflush (fun hnil => absurd hnil hc) (ihInner hreadInner)
      have hinside := opened_of_names hnames (mt Assembly.names_eq_nil.1 hopened)
      obtain ⟨b', hrun, hend⟩ := ihRest (List.forall_mem_cons.1 hread).2 hinside
      -- the element comes first as a whole, then what follows it
      have hlist : Event.opening tag :: (inner ++ .closing tag.name :: rest) =
          .opening tag :: (inner ++ [.closing tag.name]) ++ rest := by simp
      rw [hlist]
      exact ⟨b', Assembly.foldlM_append.2 ⟨b, helement, hrun⟩, hend.trans hnames⟩

/-- Where nothing stands yet, an element that can be read is read as the outermost one. -/
theorem IsElement.exists_run (h : IsElement events) (hread : ∀ e ∈ events, e.Readable) (hopened : a.opened = [])
    (hroot : (a.document.node rootId).children = []) (hblank : a.pending.all Text.isBlank = true) :
    ∃ b, events.foldlM Assembly.step a = .ok b ∧ b.names = [] ∧ b.pending = [] ∧ b.Rooted := by
  have hflush : a.flush = .ok a.settled := (Assembly.flush_outside hopened).2 ⟨hblank, rfl⟩
  have hnil := Assembly.names_eq_nil.2 hopened
  cases h with
  | emptyElement tag =>
      obtain ⟨b, hstep, hnames⟩ := exists_emptyElement (hread _ List.mem_cons_self) hflush fun _ => hroot
      exact ⟨b, Assembly.foldlM_cons.2 ⟨b, hstep, rfl⟩, hnames.trans hnil, Assembly.pending_of_isTag rfl hstep,
        Assembly.rooted_openElement hopened hstep⟩
  | @element tag inner hinner =>
      obtain ⟨htag, hread⟩ := List.forall_mem_cons.1 hread
      have hreadInner := (List.forall_mem_append.1 hread).1
      obtain ⟨b, hrun, hnames⟩ := exists_element htag hflush (fun _ => hroot) (hinner.exists_run hreadInner)
      obtain ⟨b₁, hopening, hrest⟩ := Assembly.foldlM_cons.1 hrun
      obtain ⟨b₂, _, hlast⟩ := Assembly.foldlM_append.1 hrest
      obtain ⟨b₃, hclosing, hb⟩ := Assembly.foldlM_cons.1 hlast
      cases hb
      exact ⟨b, hrun, hnames.trans hnil, Assembly.pending_of_isTag rfl hclosing,
        (Assembly.rooted_openElement hopened hopening).foldlM hrest⟩

/-- Once the outermost element stands, events that can be read and close what is open are read up to the end. -/
theorem Closes.exists_run {names : List Octets} (h : Closes names events) (hnames : a.names = names)
    (hread : ∀ e ∈ events, e.Readable) (hroot : a.Rooted) (hpending : a.pending = []) :
    ∃ b d, events.foldlM Assembly.step a = .ok b ∧ b.finish = .ok d := by
  induction names generalizing a events with
  | nil =>
      obtain ⟨cs, hcs, hblank⟩ := h
      have hflush : (a.addCharacters cs).flush = .ok a.settled :=
        Assembly.flush_addCharacters_of_blank (by rw [hpending]; rfl) hblank
      exact ⟨_, _, (Assembly.run_eq_ok (Assembly.isTag_of_runChars? hcs)).2 ⟨cs, hcs, rfl⟩,
        Assembly.finish_iff.2 ⟨a.settled, hflush, Assembly.names_eq_nil.1 hnames, hroot, rfl⟩⟩
  | cons name outer ih =>
      obtain ⟨inner, rest, rfl, hinner, hrest⟩ := h
      obtain ⟨hreadInner, hreadRest⟩ := List.forall_mem_append.1 hread
      obtain ⟨hname, hreadRest⟩ := List.forall_mem_cons.1 hreadRest
      obtain ⟨b, hb, hbNames⟩ := hinner.exists_run hreadInner (opened_of_names hnames (List.cons_ne_nil _ _))
      obtain ⟨c, hclosing, hcNames⟩ := exists_closing hname (hbNames.trans hnames)
      obtain ⟨e, d, he, hfinish⟩ := ih hrest hcNames hreadRest ((hroot.foldlM hb).step hclosing)
        (Assembly.pending_of_isTag rfl hclosing)
      exact ⟨e, d, Assembly.foldlM_append.2 ⟨b, hb, Assembly.foldlM_cons.2 ⟨c, hclosing, he⟩⟩, hfinish⟩

/-- Acceptable events are those of a document. -/
theorem Acceptable.exists_document (h : Acceptable events) :
    ∃ d, Document.ofReading ⟨events, none⟩ = .ok d := by
  obtain ⟨before, element, after, rfl, ⟨cs, hcs, hbefore⟩, helement, hafter⟩ := h.single
  have hread : ∀ e ∈ element, e.Readable := fun e he => h.readable e (by simp [he])
  have hreadAfter : ∀ e ∈ after, e.Readable := fun e he => h.readable e (by simp [he])
  have hblank : (Assembly.start.addCharacters cs).pending.all Text.isBlank = true := by
    simpa [Assembly.addCharacters, Assembly.start] using hbefore
  obtain ⟨b, hrun, hnames, hpending, hroot⟩ :=
    helement.exists_run (a := Assembly.start.addCharacters cs) hread rfl rfl hblank
  have hcloses : Closes [] after := hafter
  obtain ⟨c, d, hrest, hfinish⟩ := hcloses.exists_run hnames hreadAfter hroot hpending
  refine ⟨d, Document.ofReading_eq_ok.2 ⟨rfl, c, ?_, hfinish⟩⟩
  refine Assembly.foldlM_append.2 ⟨_, (Assembly.run_eq_ok (Assembly.isTag_of_runChars? hcs)).2 ⟨cs, hcs, rfl⟩, ?_⟩
  exact Assembly.foldlM_append.2 ⟨b, hrun, hrest⟩

/-- The events of a document are acceptable. -/
theorem Acceptable.of_document {reading : Reading} (h : Document.ofReading reading = .ok d) :
    Acceptable reading.events := by
  obtain ⟨_, a, hrun, hfinish⟩ := Document.ofReading_eq_ok.1 h
  exact ⟨readable_of_foldlM hrun, (single_of_run rfl rfl hrun hfinish).1⟩

end Grammar

/-- What a reader met is a document exactly if it was read to its end and is acceptable, and an error otherwise;
octets are parsed as what a reader meets in them behind the marks in front. -/
theorem Document.ofReading_accepts (reading : Reading) :
    ((∃ d, Document.ofReading reading = .ok d) ↔ reading.flaw = none ∧ Acceptable reading.events) ∧
    ((∃ m, Document.ofReading reading = .error m) ↔ ¬(reading.flaw = none ∧ Acceptable reading.events)) ∧
    ∀ octets, Document.parse octets = Document.ofReading (read (dropMark (dropMark octets))) := by
  have haccepts : (∃ d, Document.ofReading reading = .ok d) ↔ reading.flaw = none ∧ Acceptable reading.events := by
    constructor
    · rintro ⟨d, h⟩
      exact ⟨(Document.ofReading_eq_ok.1 h).1, .of_document h⟩
    · rintro ⟨hflaw, h⟩
      obtain ⟨d, hd⟩ := h.exists_document
      exact ⟨d, by rw [← hd, ← hflaw]⟩
  refine ⟨haccepts, ?_, fun _ => rfl⟩
  rw [← haccepts]
  cases Document.ofReading reading <;> simp

end Interchange.Xml
