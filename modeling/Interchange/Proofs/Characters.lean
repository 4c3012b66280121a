import Interchange.Proofs.Octets
import Interchange.Proofs.Pieces

/-!
# Character data between tags

An event either is a tag or adds characters to the text at hand, perhaps none; what a run of events without
tags adds is the characters of all of them, in order (`Assembly.run_eq_ok`). A tag looks at the text at hand
only through what becomes of it when it is put in, and leaves none behind.
-/

namespace Interchange.Xml

open Text.Utf8 (Octets decode encode decode_eq_ok)

variable {octets : Octets} {cs : List Char}

/-- Octets are the text of some characters. -/
def IsText (octets : Octets) : Prop := ∃ cs, octets = encode cs

theorem readText_eq_ok : readText octets = .ok cs ↔ octets = encode cs := by
  rw [readText, mapError_eq_ok, decode_eq_ok]

theorem toOption_eq_some {ε α : Type} {x : Except ε α} {a : α} : x.toOption = some a ↔ x = .ok a := by
  cases x <;> simp [Except.toOption]

theorem toOption_decode : (decode octets).toOption = some cs ↔ octets = encode cs := by
  rw [toOption_eq_some, decode_eq_ok]

/-! ## Events -/

def Event.isTag : Event → Bool
  | .opening _ | .emptyElement _ | .closing _ => true
  | _ => false

/-- The characters that an event adds to the text at hand; tags add none, and neither do octets that are no
text and references that stand for no character. -/
def Event.chars? : Event → Option (List Char)
  | .characters data | .literal data => (decode data).toOption
  | .reference name => ((decode name).toOption.bind resolveReference).map ([·])
  | .comment _ | .instruction _ | .doctype _ => some []
  | .opening _ | .emptyElement _ | .closing _ => none

/-- The characters of a run of events without tags. -/
def runChars? : List Event → Option (List Char)
  | [] => some []
  | e :: run => e.chars?.bind fun cs => (runChars? run).map (cs ++ ·)

variable {e : Event} {run more : List Event}

theorem Event.isTag_of_chars? (h : e.chars? = some cs) : e.isTag = false := by
  cases e <;> first | rfl | cases h

theorem runChars?_cons : runChars? (e :: run) = some cs ↔
    ∃ front back, e.chars? = some front ∧ runChars? run = some back ∧ cs = front ++ back := by
  simp only [runChars?, Option.bind_eq_some_iff, Option.map_eq_some_iff]
  constructor
  · rintro ⟨front, hfront, back, hback, rfl⟩
    exact ⟨front, back, hfront, hback, rfl⟩
  · rintro ⟨front, back, hfront, hback, rfl⟩
    exact ⟨front, hfront, back, hback, rfl⟩

/-- Events add blank characters alone, or none. -/
def IsBlank (run : List Event) : Prop := ∃ cs, runChars? run = some cs ∧ cs.all Text.isBlank = true

theorem IsBlank.nil : IsBlank [] := ⟨[], rfl, rfl⟩

theorem IsBlank.cons {front : List Char} (he : e.chars? = some front) (hblank : front.all Text.isBlank = true)
    (h : IsBlank run) : IsBlank (e :: run) := by
  obtain ⟨back, hback, hbackBlank⟩ := h
  refine ⟨front ++ back, runChars?_cons.2 ⟨front, back, he, hback, rfl⟩, ?_⟩
  rw [List.all_append, hblank, hbackBlank]
  rfl

/-! ## Assemblies -/

namespace Assembly

variable {a b c : Assembly} {events : List Event} {tag : Tag} {name : Octets}

theorem foldlM_cons : (e :: events).foldlM step a = .ok b ↔
    ∃ c, a.step e = .ok c ∧ events.foldlM step c = .ok b := by
  rw [List.foldlM_cons, bind_eq_ok]

theorem foldlM_append {front back : List Event} : (front ++ back).foldlM step a = .ok b ↔
    ∃ c, front.foldlM step a = .ok c ∧ back.foldlM step c = .ok b := by
  rw [List.foldlM_append, bind_eq_ok]

/-! ### Without tags -/

@[simp] theorem addCharacters_nil : a.addCharacters [] = a := rfl

theorem addCharacters_addCharacters {s t : List Char} :
    (a.addCharacters s).addCharacters t = a.addCharacters (s ++ t) := by
  simp only [addCharacters, List.reverse_append, List.append_assoc]

theorem step_characters_eq_ok {data : Octets} :
    (do return a.addCharacters (← readText data) : Except Malformed Assembly) = .ok b ↔
      ∃ cs, data = encode cs ∧ b = a.addCharacters cs := by
  simp only [bind_eq_ok, readText_eq_ok, pure, Except.pure, Except.ok.injEq, eq_comm (a := b)]

/-- An event without tags is read exactly if its characters are there, and adds them. -/
theorem step_eq_ok (htag : e.isTag = false) :
    a.step e = .ok b ↔ ∃ cs, e.chars? = some cs ∧ b = a.addCharacters cs := by
  cases e with
  | opening tag | emptyElement tag | closing name => cases htag
  | characters data | literal data =>
      simp only [Event.chars?, toOption_decode]
      exact step_characters_eq_ok
  | reference name =>
      simp only [step, Event.chars?, Option.map_eq_some_iff, Option.bind_eq_some_iff, toOption_decode, bind_eq_ok,
        readText_eq_ok]
      constructor
      · rintro ⟨cs, hname, h⟩
        split at h
        · rename_i c hc
          cases h
          exact ⟨[c], ⟨c, ⟨cs, hname, hc⟩, rfl⟩, rfl⟩
        · cases h
      · rintro ⟨_, ⟨c, ⟨cs, hname, hc⟩, rfl⟩, rfl⟩
        refine ⟨cs, hname, ?_⟩
        rw [hc]
        rfl
  | comment _ | instruction _ | doctype _ =>
      simp [step, Event.chars?, eq_comm]

/-- A run of events without tags is read exactly if its characters are there, and adds them. -/
theorem run_eq_ok (htags : ∀ e ∈ run, e.isTag = false) :
    run.foldlM step a = .ok b ↔ ∃ cs, runChars? run = some cs ∧ b = a.addCharacters cs := by
  induction run generalizing a with
  | nil => simp [runChars?, pure, Except.pure, eq_comm]
  | cons e run ih =>
      have hrun : ∀ e ∈ run, e.isTag = false := fun e he => htags e (List.mem_cons_of_mem _ he)
      simp only [foldlM_cons, step_eq_ok (htags e List.mem_cons_self), ih hrun, runChars?_cons]
      constructor
      · rintro ⟨c, ⟨front, hfront, rfl⟩, back, hback, rfl⟩
        exact ⟨front ++ back, ⟨front, back, hfront, hback, rfl⟩, addCharacters_addCharacters⟩
      · rintro ⟨_, ⟨front, back, hfront, hback, rfl⟩, rfl⟩
        exact ⟨_, ⟨front, hfront, rfl⟩, back, hback, addCharacters_addCharacters.symm⟩

theorem isTag_of_runChars? (h : runChars? run = some cs) : ∀ e ∈ run, e.isTag = false := by
  induction run generalizing cs with
  | nil => simp
  | cons e run ih =>
      obtain ⟨front, back, hfront, hback, _⟩ := runChars?_cons.1 h
      exact List.forall_mem_cons.2 ⟨Event.isTag_of_chars? hfront, ih hback⟩

/-- Blank characters behind blank ones do not show when the text at hand is put in. -/
theorem flush_addCharacters_of_blank (ha : a.pending.all Text.isBlank = true) (h : cs.all Text.isBlank = true) :
    (a.addCharacters cs).flush = .ok a.settled := by
  have hblank : (a.addCharacters cs).pending.all Text.isBlank = true := by
    rw [addCharacters, List.all_append, List.all_reverse, h, ha]
    rfl
  rw [flush, if_pos hblank]
  rfl

/-! ### Tags -/

theorem pending_flush (h : a.flush = .ok b) : b.pending = [] := by
  obtain ⟨rfl, _, _⟩ := flush_eq_ok h
  unfold flushed
  split <;> rfl

theorem flush_of_pending (h : a.pending = []) : a.flush = .ok a := by
  rw [flush, if_pos (by rw [h]; rfl)]
  exact congrArg Except.ok (Assembly.ext rfl rfl h.symm)

theorem openElement_iff {enter : Bool} : a.openElement enter tag = .ok b ↔
    ∃ c name attributes, a.flush = .ok c ∧
      (c.opened = [] → (c.document.node Document.rootId).children = []) ∧
      readText tag.name = .ok name ∧ readPairs tag.attributes = .ok attributes ∧
      b = c.addElement enter (String.ofList name) attributes := by
  refine ⟨openElement_eq_ok, ?_⟩
  rintro ⟨c, name, attributes, hflush, hroot, hname, hpairs, rfl⟩
  have hfirst : ¬(c.opened.isEmpty && !(c.document.node Document.rootId).children.isEmpty) = true := by
    simpa using hroot
  unfold openElement
  simp only [hflush, hname, hpairs, bind, Except.bind, if_neg hfirst]
  rfl

theorem closeElement_iff : a.closeElement name = .ok b ↔
    ∃ c i outer cs, a.flush = .ok c ∧ c.opened = i :: outer ∧ name = encode cs ∧
      (c.document.node i).name = String.ofList cs ∧ b = c.leave := by
  unfold closeElement
  constructor
  · intro h
    obtain ⟨c, hflush, h⟩ := bind_eq_ok.1 h
    obtain ⟨cs, hname, h⟩ := bind_eq_ok.1 h
    dsimp only at h
    split at h
    · cases h
    · rename_i i outer hopened
      split at h
      · rename_i heq
        cases h
        exact ⟨c, i, outer, cs, hflush, hopened, readText_eq_ok.1 hname, heq, rfl⟩
      · cases h
  · rintro ⟨c, i, outer, cs, hflush, hopened, rfl, hname, rfl⟩
    have hread : readText (encode cs) = .ok cs := readText_eq_ok.2 rfl
    simp only [hflush, hread, bind, Except.bind, hopened, hname, if_true]
    rfl

theorem finish_iff {d : Document} : a.finish = .ok d ↔
    ∃ c, a.flush = .ok c ∧ c.opened = [] ∧ (c.document.node Document.rootId).children ≠ [] ∧ d = c.document := by
  refine ⟨finish_eq_ok, ?_⟩
  rintro ⟨c, hflush, hopened, hchildren, rfl⟩
  unfold finish
  simp only [hflush, bind, Except.bind, hopened]
  rw [if_neg (by simpa using hchildren)]
  rfl

/-- Behind a tag, there is no text at hand. -/
theorem pending_of_isTag (htag : e.isTag = true) (h : a.step e = .ok b) : b.pending = [] := by
  cases e with
  | opening tag | emptyElement tag =>
      obtain ⟨c, _, _, hflush, _, _, _, rfl⟩ := openElement_eq_ok h
      have hpending : c.pending = [] := pending_flush hflush
      exact hpending
  | closing name =>
      obtain ⟨c, hflush, _, rfl⟩ := closeElement_eq_ok h
      have hpending : c.pending = [] := pending_flush hflush
      exact hpending
  | characters _ | literal _ | reference _ | comment _ | instruction _ | doctype _ => cases htag

/-- A tag looks at the text at hand through what becomes of it. -/
theorem step_eq_of_flush (htag : e.isTag = true) (h : a.flush = b.flush) : a.step e = b.step e := by
  cases e with
  | opening tag | emptyElement tag => simp only [step, openElement, h]
  | closing name => simp only [step, closeElement, h]
  | characters _ | literal _ | reference _ | comment _ | instruction _ | doctype _ => cases htag

theorem finish_eq_of_flush (h : a.flush = b.flush) : a.finish = b.finish := by
  simp only [finish, h]

end Assembly

/-! ## Documents -/

theorem Document.ofReading_eq_ok {reading : Reading} {d : Document} : Document.ofReading reading = .ok d ↔
    reading.flaw = none ∧
      ∃ a, reading.events.foldlM Assembly.step Assembly.start = .ok a ∧ a.finish = .ok d := by
  unfold Document.ofReading
  rw [bind_eq_ok]
  cases hflaw : reading.flaw with
  | none => simp
  | some flaw => simp [throw, throwThe, MonadExceptOf.throw]

end Interchange.Xml
