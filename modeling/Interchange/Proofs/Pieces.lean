import Mathlib.Data.List.Induction
import Interchange.Proofs.Traversal
import Interchange.Xml.Assembly

/-!
# What a document is built of

However a document is written, building it comes down to three moves: an element is opened, a text is put
in, and the innermost element is closed. `Assembly.step_advance` says which of them an event stands for, so
that what every advance keeps holds behind all events (`Assembly.events_induction`).
-/

namespace Interchange.Xml

open Text.Utf8 (Octets)

inductive Piece where
  | opening (name : String) (attributes : List (String × String))
  | text (cs : List Char)
  | closing
  deriving DecidableEq, Repr

namespace Assembly

variable {a b : Assembly} {e : Event}

@[ext] theorem ext (hdocument : a.document = b.document) (hopened : a.opened = b.opened)
    (hpending : a.pending = b.pending) : a = b := by
  cases a; cases b; cases hdocument; cases hopened; cases hpending; rfl

/-- The assembly without the text at hand. -/
def settled (a : Assembly) : Assembly := { a with pending := [] }

/-- Puts in a piece; a text is put in whole. -/
def put (a : Assembly) : Piece → Assembly
  | .opening name attributes => a.addElement true name attributes
  | .text cs => addText { a with pending := cs.reverse }
  | .closing => a.leave

def build (a : Assembly) (pieces : List Piece) : Assembly := pieces.foldl put a

@[simp] theorem build_nil : a.build [] = a := rfl

@[simp] theorem build_cons {p : Piece} {pieces : List Piece} :
    a.build (p :: pieces) = (a.put p).build pieces := rfl

theorem build_append {pieces more : List Piece} :
    a.build (pieces ++ more) = (a.build pieces).build more := List.foldl_append

theorem document_put_opening {name : String} {attributes : List (String × String)} :
    (a.put (.opening name attributes)).document =
      (a.document.append a.current a.current_lt .child (.element name)).appendAttributes
        a.document.size (Nat.lt_of_lt_of_eq (Nat.lt_succ_self _) Document.size_append.symm) attributes := rfl

theorem document_put_text {cs : List Char} : (a.put (.text cs)).document =
    a.document.append a.current a.current_lt .child (.text (String.ofList cs)) := by
  simp only [put, addText, List.reverse_reverse]
  rfl

/-! ## The text at hand -/

/-- The text at hand as a piece, unless it is blank. -/
def flushed (a : Assembly) : List Piece :=
  if a.pending.all Text.isBlank then [] else [.text a.pending.reverse]

theorem flush_eq_ok (h : a.flush = .ok b) : b = a.settled.build a.flushed ∧
    (a.flushed = [] ∨ a.opened ≠ []) ∧ b.opened = a.opened := by
  unfold flush at h
  unfold flushed
  split at h
  · rename_i hblank
    cases h
    rw [if_pos hblank]
    exact ⟨rfl, Or.inl rfl, rfl⟩
  · rename_i hblank
    rw [if_neg hblank]
    split at h
    · cases h
    · rename_i hopened
      cases h
      refine ⟨?_, Or.inr (by simpa using hopened), rfl⟩
      simp only [build_cons, build_nil, put, settled, List.reverse_reverse]

/-- What is at hand is put in where it is not blank and stands inside an element. -/
theorem flush_of_flushed (h : a.flushed = [] ∨ a.opened ≠ []) :
    a.flush = .ok (a.settled.build a.flushed) := by
  unfold flush
  unfold flushed at h ⊢
  split
  · rfl
  · rename_i hblank
    rw [if_neg hblank] at h
    have hopened : a.opened ≠ [] := h.resolve_left (by simp)
    rw [if_neg (by simpa using hopened)]
    simp only [build_cons, build_nil, put, settled, List.reverse_reverse]

/-! ## Steps -/

theorem readPairs_eq_ok {reading : AttributeReading} {pairs : List (String × String)} :
    readPairs reading = .ok pairs ↔ reading.flaw = none ∧ reading.attributes.mapM readPair = .ok pairs := by
  unfold readPairs
  rw [bind_eq_ok]
  cases reading.flaw with
  | none => simp [pure, Except.pure]
  | some flaw => simp [throw, throwThe, MonadExceptOf.throw]

theorem openElement_eq_ok {enter : Bool} {tag : Tag} (h : a.openElement enter tag = .ok b) :
    ∃ c name attributes, a.flush = .ok c ∧
      (c.opened = [] → (c.document.node Document.rootId).children = []) ∧
      readText tag.name = .ok name ∧ readPairs tag.attributes = .ok attributes ∧
      b = c.addElement enter (String.ofList name) attributes := by
  unfold openElement at h
  obtain ⟨c, hflush, h⟩ := bind_eq_ok.1 h
  split at h
  · cases h
  · rename_i hroot
    obtain ⟨name, hname, h⟩ := bind_eq_ok.1 h
    obtain ⟨attributes, hpairs, h⟩ := bind_eq_ok.1 h
    cases h
    exact ⟨c, name, attributes, hflush, fun hopened => by simpa [hopened] using hroot, hname, hpairs, rfl⟩

theorem closeElement_eq_ok {name : Octets} (h : a.closeElement name = .ok b) :
    ∃ c, a.flush = .ok c ∧ c.opened ≠ [] ∧ b = c.leave := by
  unfold closeElement at h
  obtain ⟨c, hflush, h⟩ := bind_eq_ok.1 h
  obtain ⟨_, _, h⟩ := bind_eq_ok.1 h
  dsimp only at h
  split at h
  · cases h
  · rename_i hopened
    split at h
    · cases h
      exact ⟨c, hflush, by simp [hopened], rfl⟩
    · cases h

/-- What an event comes to: characters for the text at hand, perhaps none, or a tag behind that text. An
element without content is one that is closed at once. -/
inductive Advance (a : Assembly) : Assembly → Prop
  | characters (cs : List Char) : Advance a (a.addCharacters cs)
  | opening {c : Assembly} {tag : Tag} {name : String} {attributes : List (String × String)}
      (hflush : a.flush = .ok c) (hroot : c.opened = [] → (c.document.node Document.rootId).children = [])
      (hpairs : readPairs tag.attributes = .ok attributes) :
      Advance a (c.build [.opening name attributes])
  | emptyElement {c : Assembly} {tag : Tag} {name : String} {attributes : List (String × String)}
      (hflush : a.flush = .ok c) (hroot : c.opened = [] → (c.document.node Document.rootId).children = [])
      (hpairs : readPairs tag.attributes = .ok attributes) :
      Advance a (c.build [.opening name attributes, .closing])
  | closing {c : Assembly} (hflush : a.flush = .ok c) (hopened : c.opened ≠ []) :
      Advance a (c.build [.closing])

theorem step_advance (h : a.step e = .ok b) : a.Advance b := by
  have hnothing : a.addCharacters [] = a := rfl
  cases e with
  | opening tag =>
      obtain ⟨c, name, attributes, hflush, hroot, _, hpairs, rfl⟩ := openElement_eq_ok h
      exact .opening hflush hroot hpairs
  | emptyElement tag =>
      obtain ⟨c, name, attributes, hflush, hroot, _, hpairs, rfl⟩ := openElement_eq_ok h
      exact .emptyElement hflush hroot hpairs
  | closing name =>
      obtain ⟨c, hflush, hopened, rfl⟩ := closeElement_eq_ok h
      exact .closing hflush hopened
  | characters data | literal data =>
      obtain ⟨cs, _, h⟩ := bind_eq_ok.1 h
      cases h
      exact .characters cs
  | reference name =>
      obtain ⟨cs, _, h⟩ := bind_eq_ok.1 h
      split at h
      · cases h
        exact .characters _
      · cases h
  | comment _ | instruction _ | doctype _ =>
      cases h
      exact hnothing ▸ .characters []

theorem finish_eq_ok {d : Document} (h : a.finish = .ok d) :
    ∃ c, a.flush = .ok c ∧ c.opened = [] ∧ (c.document.node Document.rootId).children ≠ [] ∧
      d = c.document := by
  unfold finish at h
  obtain ⟨c, hflush, h⟩ := bind_eq_ok.1 h
  split at h
  · cases h
  · rename_i hopened
    split at h
    · cases h
    · rename_i hchildren
      cases h
      exact ⟨c, hflush, hopened, by simpa using hchildren, rfl⟩

/-- What holds at the start and is kept by every advance holds behind all events. -/
theorem events_induction {P : Assembly → Prop} (hstart : P start)
    (hstep : ∀ a b, P a → a.Advance b → P b) {events : List Event}
    (h : events.foldlM step start = .ok b) : P b := by
  induction events using List.reverseRecOn generalizing b with
  | nil =>
      cases h
      exact hstart
  | append_singleton events e ih =>
      rw [List.foldlM_append] at h
      obtain ⟨a, hfront, h⟩ := bind_eq_ok.1 h
      obtain ⟨c, hlast, h⟩ := bind_eq_ok.1 h
      cases h
      exact hstep a _ (ih hfront) (step_advance hlast)

end Assembly

theorem Document.parse_eq_ok {octets : Octets} {d : Document} (h : Document.parse octets = .ok d) :
    ∃ a, (read (dropMark (dropMark octets))).events.foldlM Assembly.step Assembly.start = .ok a ∧
      a.finish = .ok d := by
  unfold Document.parse Document.ofReading at h
  obtain ⟨a, hevents, h⟩ := bind_eq_ok.1 h
  split at h
  · cases h
  · exact ⟨a, hevents, h⟩

end Interchange.Xml
