import Mathlib.Logic.Relation
import Interchange.Proofs.Arena
import Interchange.Proofs.Characters
import Interchange.Xml.Canonical

/-!
# Formatting that does not matter

A document can be written in many ways: with remarks, with its character data in more or fewer parts, with
references for characters, with white space between tags, with one tag or two for an empty element. Building
it comes to the same result for all of them (`Document.ofReading_reformatted`). Character data is read part by
part, so that a cut inside the octets of one character is not among them
(`Document.parse_split_inside_character`).
-/

namespace Interchange.Xml

open Text.Utf8 (Octets append_eq_encode encode encodeChar encodeText)

/-! ## Ways to write the same -/

/-- Markup that carries no data: a comment, an instruction or declaration, a document type. -/
def Event.isSilent : Event → Bool
  | .comment _ | .instruction _ | .doctype _ => true
  | _ => false

/-- The octets of character data, in a section of its own or not. -/
def Event.data? : Event → Option Octets
  | .characters data | .literal data => some data
  | _ => none

/-- Two ways to write the same wherever it stands. Character data that is text is cut between two characters,
and anywhere if it is none. -/
inductive Respells : List Event → List Event → Prop
  | silent {e : Event} (h : e.isSilent = true) : Respells [] [e]
  | split {e front back : Event} {x y : Octets} (he : e.data? = some (x ++ y)) (hfront : front.data? = some x)
      (hback : back.data? = some y) (hcut : IsText (x ++ y) → IsText x) : Respells [e] [front, back]
  | reference {e : Event} {name : List Char} {c : Char} (hname : resolveReference name = some c)
      (he : e.data? = some (encodeChar c)) : Respells [.reference (encode name)] [e]
  | emptyElement (tag : Tag) : Respells [.emptyElement tag] [.opening tag, .closing tag.name]

/-- One place is written in another way. White space stands for other white space where it is all that stands
between two tags, or between a tag and an end of the document. -/
inductive Reformats : List Event → List Event → Prop
  | respell {l r : List Event} (front back : List Event) (h : Respells l r) :
      Reformats (front ++ l ++ back) (front ++ r ++ back)
  | blank {l r : List Event} (front back : List Event) (hfront : ∀ e ∈ front.getLast?, e.isTag = true)
      (hback : ∀ e ∈ back.head?, e.isTag = true) (hl : IsBlank l) (hr : IsBlank r) :
      Reformats (front ++ l ++ back) (front ++ r ++ back)

/-- Any number of places are written in another way, in either direction. -/
def Reformatted : List Event → List Event → Prop := Relation.EqvGen Reformats

/-! ## The same characters -/

variable {l r front back : List Event} {e : Event} {x y : Octets} {cs : List Char}

theorem Event.chars?_of_data? (h : e.data? = some x) : e.chars? = some cs ↔ x = encode cs := by
  cases e with
  | characters data | literal data =>
      cases h
      exact toOption_decode
  | opening _ | emptyElement _ | closing _ | reference _ | comment _ | instruction _ | doctype _ => cases h

theorem runChars?_singleton : runChars? [e] = e.chars? := by
  rw [runChars?, runChars?]
  cases e.chars? <;> simp

/-- Character data that is cut between two characters keeps its characters. -/
theorem runChars?_split {e₁ e₂ : Event} (he : e.data? = some (x ++ y)) (h₁ : e₁.data? = some x)
    (h₂ : e₂.data? = some y) (hcut : IsText (x ++ y) → IsText x) : runChars? [e] = runChars? [e₁, e₂] := by
  refine Option.ext fun cs => ?_
  simp only [runChars?_singleton, runChars?_cons, Event.chars?_of_data? he, Event.chars?_of_data? h₁,
    Event.chars?_of_data? h₂]
  constructor
  · intro h
    obtain ⟨ds, rfl⟩ := hcut ⟨cs, h⟩
    obtain ⟨more, rfl, rfl⟩ := append_eq_encode.1 h
    exact ⟨ds, more, rfl, rfl, rfl⟩
  · rintro ⟨ds, more, rfl, rfl, rfl⟩
    exact (Text.Utf8.encode_append ds more).symm

theorem runChars?_reference {name : List Char} {c : Char} (hname : resolveReference name = some c)
    (he : e.data? = some (encodeChar c)) : runChars? [.reference (encode name)] = runChars? [e] := by
  have hdata : e.chars? = some [c] := (Event.chars?_of_data? he).2 (List.append_nil _).symm
  have hdecode : (Text.Utf8.decode (encode name)).toOption = some name := toOption_decode.2 rfl
  rw [runChars?_singleton, runChars?_singleton, hdata, Event.chars?, hdecode, Option.bind_some, hname]
  rfl

/-! ## The same steps -/

namespace Assembly

variable {a b : Assembly} {tag : Tag} {d : Document}

/-- Runs without tags that have the same characters come to the same. -/
theorem run_congr (hl : ∀ e ∈ l, e.isTag = false) (hr : ∀ e ∈ r, e.isTag = false)
    (h : runChars? l = runChars? r) : l.foldlM step a = .ok b ↔ r.foldlM step a = .ok b := by
  rw [run_eq_ok hl, run_eq_ok hr, h]

/-- An element that is closed at once comes to the same as an empty one. -/
theorem run_emptyElement : [Event.emptyElement tag].foldlM step a = .ok b ↔
    [Event.opening tag, .closing tag.name].foldlM step a = .ok b := by
  simp only [foldlM_cons, List.foldlM_nil, pure, Except.pure, Except.ok.injEq, exists_eq_right, step,
    openElement_iff, closeElement_iff]
  constructor
  · rintro ⟨c, name, attributes, hflush, hroot, hname, hpairs, rfl⟩
    have hpending : c.pending = [] := pending_flush hflush
    have hopened : ((c.put (.opening (String.ofList name) attributes)).document.node c.document.size).name =
        String.ofList name := by
      rw [Node.name, content_put_opening]
    exact ⟨_, ⟨c, name, attributes, hflush, hroot, hname, hpairs, rfl⟩, _, c.document.size, c.opened, name,
      flush_of_pending hpending, rfl, readText_eq_ok.1 hname, hopened, rfl⟩
  · rintro ⟨_, ⟨c, name, attributes, hflush, hroot, hname, hpairs, rfl⟩, f, i, outer, cs, hagain, _, _, _, rfl⟩
    have hpending : c.pending = [] := pending_flush hflush
    have hput : (c.addElement true (String.ofList name) attributes).flush = .ok _ := flush_of_pending hpending
    rw [hput] at hagain
    cases hagain
    exact ⟨c, name, attributes, hflush, hroot, hname, hpairs, rfl⟩

end Assembly

theorem Respells.run_iff {a b : Assembly} (h : Respells l r) :
    l.foldlM Assembly.step a = .ok b ↔ r.foldlM Assembly.step a = .ok b := by
  have hdata : ∀ {e : Event} {x : Octets}, e.data? = some x → e.isTag = false := fun {e} _ h => by
    cases e <;> first | rfl | cases h
  cases h with
  | @silent e he =>
      have hsilent : e.isTag = false ∧ e.chars? = some [] := by
        cases e <;> first | exact ⟨rfl, rfl⟩ | cases he
      refine Assembly.run_congr (by simp) (by simp [hsilent.1]) ?_
      rw [runChars?_singleton, hsilent.2]
      rfl
  | split he hfront hback hcut =>
      refine Assembly.run_congr (by simp [hdata he]) (by simp [hdata hfront, hdata hback]) ?_
      exact runChars?_split he hfront hback hcut
  | reference hname he =>
      exact Assembly.run_congr (by simp [Event.isTag]) (by simp [hdata he]) (runChars?_reference hname he)
  | emptyElement tag => exact Assembly.run_emptyElement

/-! ## The same documents -/

/-- Events are those of a document. -/
def Builds (events : List Event) (d : Document) : Prop :=
  ∃ a, events.foldlM Assembly.step Assembly.start = .ok a ∧ a.finish = .ok d

theorem builds_append {d : Document} : Builds (front ++ back) d ↔
    ∃ a, front.foldlM Assembly.step Assembly.start = .ok a ∧
      ∃ b, back.foldlM Assembly.step a = .ok b ∧ b.finish = .ok d := by
  simp only [Builds, Assembly.foldlM_append]
  constructor
  · rintro ⟨b, ⟨a, hfront, hback⟩, hfinish⟩
    exact ⟨a, hfront, b, hback, hfinish⟩
  · rintro ⟨a, hfront, b, hback, hfinish⟩
    exact ⟨b, ⟨a, hfront, hback⟩, hfinish⟩

/-- Behind tags, there is no text at hand. -/
theorem Assembly.pending_of_getLast? {a : Assembly} (hfront : ∀ e ∈ front.getLast?, e.isTag = true)
    (h : front.foldlM step start = .ok a) : a.pending = [] := by
  rcases List.eq_nil_or_concat front with rfl | ⟨init, last, rfl⟩
  · cases h
    rfl
  · rw [List.concat_eq_append] at h hfront
    obtain ⟨b, _, hlast⟩ := foldlM_append.1 h
    obtain ⟨c, hstep, hnil⟩ := foldlM_cons.1 hlast
    cases hnil
    exact pending_of_isTag (hfront last (by simp)) hstep

/-- Blank characters in front of a tag, or at the end, come to the same as none. -/
theorem IsBlank.finish_iff {a : Assembly} {d : Document} (hpending : a.pending = [])
    (hback : ∀ e ∈ back.head?, e.isTag = true) (h : IsBlank l) :
    (∃ b, (l ++ back).foldlM Assembly.step a = .ok b ∧ b.finish = .ok d) ↔
      ∃ b, back.foldlM Assembly.step a = .ok b ∧ b.finish = .ok d := by
  obtain ⟨cs, hcs, hblank⟩ := h
  have hflush : (a.addCharacters cs).flush = a.flush := by
    rw [Assembly.flush_addCharacters_of_blank (by rw [hpending]; rfl) hblank, Assembly.flush_of_pending hpending]
    exact congrArg Except.ok (Assembly.ext rfl rfl hpending.symm)
  have hrun : ∀ b, l.foldlM Assembly.step a = .ok b ↔ b = a.addCharacters cs := fun b => by
    rw [Assembly.run_eq_ok (Assembly.isTag_of_runChars? hcs), hcs]
    simp
  simp only [Assembly.foldlM_append, hrun, exists_eq_left]
  cases back with
  | nil => simp [pure, Except.pure, Assembly.finish_eq_of_flush hflush]
  | cons e back => simp only [Assembly.foldlM_cons, Assembly.step_eq_of_flush (hback e rfl) hflush]

theorem Reformats.builds_iff {d : Document} (h : Reformats l r) : Builds l d ↔ Builds r d := by
  cases h with
  | respell front back h => simp only [Builds, Assembly.foldlM_append, h.run_iff]
  | blank front back hfront hback hl hr =>
      rw [List.append_assoc, List.append_assoc, builds_append, builds_append]
      refine exists_congr fun a => and_congr_right fun ha => ?_
      have hpending := Assembly.pending_of_getLast? hfront ha
      rw [hl.finish_iff hpending hback, hr.finish_iff hpending hback]

theorem Reformatted.builds_iff {d : Document} (h : Reformatted l r) : Builds l d ↔ Builds r d := by
  induction h with
  | rel l r h => exact h.builds_iff
  | refl l => exact Iff.rfl
  | symm l r _ ih => exact ih.symm
  | trans l m r _ _ ih₁ ih₂ => exact ih₁.trans ih₂

/-- Two ways to write the same that are both read to their ends, or both not, are both no document, or they
are the same nodes and have the same canonical form. -/
theorem Document.ofReading_reformatted {r q : Reading} (h : Reformatted r.events q.events)
    (hflaw : r.flaw.isSome = q.flaw.isSome) :
    ((∃ m, Document.ofReading r = .error m) ∧ ∃ m, Document.ofReading q = .error m) ∨
      ∃ d e, Document.ofReading r = .ok d ∧ Document.ofReading q = .ok e ∧
        d.nodes = e.nodes ∧ d.canonical = e.canonical := by
  have hnone : r.flaw = none ↔ q.flaw = none := by
    rw [← Option.isNone_iff_eq_none, ← Option.isNone_iff_eq_none, ← Option.not_isSome, ← Option.not_isSome, hflaw]
  have hsame : ∀ d, Document.ofReading r = .ok d ↔ Document.ofReading q = .ok d := fun d => by
    rw [ofReading_eq_ok, ofReading_eq_ok]
    exact and_congr hnone h.builds_iff
  cases hr : Document.ofReading r with
  | ok d => exact Or.inr ⟨d, d, rfl, (hsame d).1 hr, rfl, rfl⟩
  | error m =>
      cases hq : Document.ofReading q with
      | ok d => exact absurd ((hsame d).2 hq) (by simp [hr])
      | error m' => exact Or.inl ⟨⟨m, rfl⟩, m', rfl⟩

/-- `<a> <b/>&amp;</a>` and `<!-- --><a><b></b><![CDATA[&]]></a>`. -/
theorem Document.ofReading_reformatted_mixed :
    Reformatted
      [.opening ⟨[0x61]⟩, .characters [0x20], .emptyElement ⟨[0x62]⟩, .reference (encode ['a', 'm', 'p']),
        .closing [0x61]]
      [.comment [0x20], .opening ⟨[0x61]⟩, .opening ⟨[0x62]⟩, .closing [0x62], .literal [0x26], .closing [0x61]] ∧
    ∃ d e,
      Document.ofReading ⟨[.opening ⟨[0x61]⟩, .characters [0x20], .emptyElement ⟨[0x62]⟩,
        .reference (encode ['a', 'm', 'p']), .closing [0x61]], none⟩ = .ok d ∧
      Document.ofReading ⟨[.comment [0x20], .opening ⟨[0x61]⟩, .opening ⟨[0x62]⟩, .closing [0x62],
        .literal [0x26], .closing [0x61]], none⟩ = .ok e ∧
      d.nodes = e.nodes ∧ d.canonical = e.canonical := by
  have hspace : IsBlank [.characters [0x20]] := ⟨[' '], by decide, by decide⟩
  have hamp : Respells [.reference (encode ['a', 'm', 'p'])] [.literal [0x26]] :=
    .reference (c := '&') (by decide) (by decide)
  have htag : Respells [.emptyElement ⟨[0x62]⟩] [.opening ⟨[0x62]⟩, .closing [0x62]] := .emptyElement ⟨[0x62]⟩
  have hcomment : Respells [] [.comment [0x20]] := .silent rfl
  have hwritten : Reformatted
      [.opening ⟨[0x61]⟩, .characters [0x20], .emptyElement ⟨[0x62]⟩, .reference (encode ['a', 'm', 'p']),
        .closing [0x61]]
      [.comment [0x20], .opening ⟨[0x61]⟩, .opening ⟨[0x62]⟩, .closing [0x62], .literal [0x26], .closing [0x61]] :=
    .trans _ _ _ (.rel _ _ (.blank [.opening ⟨[0x61]⟩]
      [.emptyElement ⟨[0x62]⟩, .reference (encode ['a', 'm', 'p']), .closing [0x61]] (by simp [Event.isTag])
      (by simp [Event.isTag]) hspace .nil)) <|
    .trans _ _ _ (.rel _ _ (.respell [.opening ⟨[0x61]⟩, .emptyElement ⟨[0x62]⟩] [.closing [0x61]] hamp)) <|
    .trans _ _ _ (.rel _ _ (.respell [.opening ⟨[0x61]⟩] [.literal [0x26], .closing [0x61]] htag)) <|
    .rel _ _ (.respell [] [.opening ⟨[0x61]⟩, .opening ⟨[0x62]⟩, .closing [0x62], .literal [0x26],
      .closing [0x61]] hcomment)
  refine ⟨hwritten,
    (Document.ofReading_reformatted (r := ⟨_, none⟩) (q := ⟨_, none⟩) hwritten rfl).resolve_left ?_⟩
  rintro ⟨⟨m, hm⟩, _⟩
  have hread : (Document.ofReading ⟨[.opening ⟨[0x61]⟩, .characters [0x20], .emptyElement ⟨[0x62]⟩,
      .reference (encode ['a', 'm', 'p']), .closing [0x61]], none⟩).toOption.isSome = true := by
    decide +kernel
  rw [hm] at hread
  cases hread

/-- A letter of two octets is read where they stand together, and is no text where a section begins between
them. -/
theorem Document.parse_split_inside_character :
    read (encodeText "<a>" ++ [0xC3, 0xA9] ++ encodeText "</a>") =
      ⟨[.opening ⟨[0x61]⟩, .characters ([0xC3] ++ [0xA9]), .closing [0x61]], none⟩ ∧
    read (encodeText "<a>" ++ [0xC3] ++ encodeText "<![CDATA[" ++ [0xA9] ++ encodeText "]]></a>") =
      ⟨[.opening ⟨[0x61]⟩, .characters [0xC3], .literal [0xA9], .closing [0x61]], none⟩ ∧
    (Document.parse (encodeText "<a>" ++ [0xC3, 0xA9] ++ encodeText "</a>")).toOption.isSome = true ∧
    (Document.parse (encodeText "<a>" ++ [0xC3] ++ encodeText "<![CDATA[" ++ [0xA9] ++
      encodeText "]]></a>")).toOption.isSome = false := by
  decide +kernel

end Interchange.Xml
