import Mathlib.Data.List.Nodup
import Interchange.Proofs.Octets
import Interchange.Proofs.Rows
import Interchange.Proofs.Traversal

/-!
# The tree of a document

While a document is read, each element that stands open holds a row of what is complete. The tags close in
the order in which they opened, so that behind the last tag one element holds all
(`Document.exists_row`).
-/

namespace Interchange.Xml

open Text.Utf8 (Octets)

/-! ## The names of attributes -/

theorem key_notMem_seen {total : Nat} {seen : List (Octets × Nat)} {b : UInt8} {rest after : Octets}
    {item : RawAttribute} (h : readAttribute total seen b rest = .ok (item, after)) :
    item.key ∉ seen.map (·.1) := by
  unfold readAttribute at h
  obtain ⟨behind, _, h⟩ := bind_eq_ok.1 h
  dsimp only at h
  split at h
  · cases h
  · rename_i hnone
    obtain ⟨⟨value, more⟩, _, h⟩ := bind_eq_ok.1 h
    cases h
    intro hmem
    obtain ⟨entry, hentry, hkey⟩ := List.mem_map.1 hmem
    exact absurd hkey (by simpa using List.find?_eq_none.1 hnone entry hentry)

/-- No attribute has the key of one in front of it. -/
theorem nodup_readAttributes (total : Nat) (seen : List (Octets × Nat)) (s : Octets) :
    ((readAttributes total seen s).attributes.map (·.key)).Nodup ∧
      ∀ key ∈ (readAttributes total seen s).attributes.map (·.key), key ∉ seen.map (·.1) := by
  fun_induction readAttributes total seen s with
  | case1 seen s hs => simp
  | case2 seen s b rest hs flaw h => simp
  | case3 seen s b rest hs item after h hlt position reading ih =>
      have hitem := key_notMem_seen h
      obtain ⟨hnodup, hnew⟩ := ih
      simp only [List.map_append, List.map_cons, List.map_nil, List.mem_append, List.mem_singleton,
        not_or] at hnew
      refine ⟨List.nodup_cons.2 ⟨fun hmem => (hnew _ hmem).2 rfl, hnodup⟩, fun key hkey => ?_⟩
      rcases List.mem_cons.1 hkey with rfl | hkey
      · exact hitem
      · exact (hnew key hkey).1

open Assembly (readPair readPairs)

theorem readPair_key {raw : RawAttribute} {pair : String × String} (h : readPair raw = .ok pair) :
    raw.key = Text.Utf8.encodeText pair.1 := by
  unfold readPair readText at h
  obtain ⟨key, hkey, h⟩ := bind_eq_ok.1 h
  obtain ⟨value, _, h⟩ := bind_eq_ok.1 h
  obtain ⟨text, _, h⟩ := bind_eq_ok.1 h
  cases h
  rw [Text.Utf8.encodeText, String.toList_ofList]
  exact Text.Utf8.decode_eq_ok.1 (mapError_eq_ok.1 hkey)

/-- The attributes of an element have different names. -/
theorem nodup_readPairs {tag : Tag} {attributes : List (String × String)}
    (h : readPairs tag.attributes = .ok attributes) : (attributes.map (·.1)).Nodup := by
  have hkeys : (tag.attributes.attributes.map (·.key)).Nodup := (nodup_readAttributes _ _ _).1
  obtain ⟨_, hpairs⟩ := Assembly.readPairs_eq_ok.1 h
  have hencode : tag.attributes.attributes.map (·.key) = (attributes.map (·.1)).map Text.Utf8.encodeText := by
    rw [map_of_mapM hpairs fun _ _ => readPair_key, List.map_map]
    rfl
  rw [hencode] at hkeys
  exact List.Nodup.of_map _ hkeys

/-! ## Rows of what was read -/

/-- A text that is kept: none, or one that is not blank. -/
def Kept (t : List Char) : Prop := t = [] ∨ t.all Text.isBlank = false

namespace Row

/-- Texts are kept, and the attributes of an element have different names. -/
def Sound : Row → Prop
  | nil => True
  | element before _ attributes inner tail rest =>
    Kept before ∧ (attributes.map (·.1)).Nodup ∧ inner.Sound ∧ Kept tail ∧ rest.Sound

def append : Row → Row → Row
  | nil, other => other
  | element before name attributes inner tail rest, other =>
    element before name attributes inner tail (rest.append other)

variable {row other : Row}

theorem pieces_append : (row.append other).pieces = row.pieces ++ other.pieces := by
  induction row with
  | nil => rfl
  | element before name attributes inner tail rest _ ih =>
      simp only [append, pieces, ih, List.append_assoc, List.cons_append]

theorem Sound.append (h : row.Sound) (hother : other.Sound) : (row.append other).Sound := by
  induction row with
  | nil => exact hother
  | element before name attributes inner tail rest _ ih =>
      obtain ⟨hbefore, hattributes, hinner, htail, hrest⟩ := h
      exact ⟨hbefore, hattributes, hinner, htail, ih hrest⟩

end Row

/-- An element that stands open: the text in front of it, and what it holds so far. -/
structure Frame where
  before : List Char
  name : String
  attributes : List (String × String)
  inner : Row

def Frame.Sound (f : Frame) : Prop :=
  Kept f.before ∧ (f.attributes.map (·.1)).Nodup ∧ f.inner.Sound

/-- The element of a frame, once it is closed behind a text. -/
def Frame.closed (f : Frame) (tail : List Char) : Row :=
  .element f.before f.name f.attributes f.inner tail .nil

/-- The pieces of open elements, innermost first. -/
def unwind : List Frame → List Piece
  | [] => []
  | f :: outer => unwind outer ++ (textPieces f.before ++ .opening f.name f.attributes :: f.inner.pieces)

/-- Open elements that can stand in a document: the outermost has no text in front of it. -/
structure Nested (frames : List Frame) : Prop where
  sound : ∀ f ∈ frames, f.Sound
  outermost : ∀ f ∈ frames.getLast?, f.before = []

variable {frames outer : List Frame} {f : Frame} {pieces : List Piece} {t : List Char} {name : String}
  {attributes : List (String × String)}

/-- How far an assembly has come, by the pieces that it is built of. -/
inductive Stage (pieces : List Piece) : Prop
  | within {frames : List Frame} (hnested : Nested frames) (hpieces : pieces = unwind frames)
  | behind {f : Frame} {tail : List Char} (hbefore : f.before = []) (hsound : (f.closed tail).Sound)
      (hpieces : pieces = (f.closed tail).pieces)

theorem Nested.open (h : Nested frames) (ht : Kept t) (houtermost : frames = [] → t = [])
    (hattributes : (attributes.map (·.1)).Nodup) : Nested (⟨t, name, attributes, .nil⟩ :: frames) where
  sound := by
    intro f hf
    rcases List.mem_cons.1 hf with rfl | hf
    · exact ⟨ht, hattributes, trivial⟩
    · exact h.sound f hf
  outermost := by
    cases frames with
    | nil =>
        intro f hf
        rw [List.getLast?_singleton, Option.mem_some_iff] at hf
        rw [← hf]
        exact houtermost rfl
    | cons g frames =>
        rw [List.getLast?_cons_cons]
        exact h.outermost

theorem Stage.close (h : Nested (f :: outer)) (ht : Kept t) :
    Stage (unwind (f :: outer) ++ (textPieces t ++ [.closing])) := by
  obtain ⟨hbefore, hattributes, hinner⟩ := h.sound f List.mem_cons_self
  have hclosed : (f.closed t).Sound := ⟨hbefore, hattributes, hinner, ht, trivial⟩
  have hpieces : textPieces f.before ++ .opening f.name f.attributes :: f.inner.pieces ++
      (textPieces t ++ [.closing]) = (f.closed t).pieces := by
    simp only [Frame.closed, Row.pieces, List.append_assoc, List.cons_append]
  cases outer with
  | nil => exact .behind (h.outermost f rfl) hclosed hpieces
  | cons g outer =>
      -- the element goes behind what the one around it holds
      have hunwind : unwind (g :: outer) ++ (f.closed t).pieces =
          unwind ({ g with inner := g.inner.append (f.closed t) } :: outer) := by
        simp only [unwind, Row.pieces_append, List.append_assoc, List.cons_append]
      rw [unwind, List.append_assoc, hpieces, hunwind]
      refine .within ⟨?_, ?_⟩ rfl
      · intro e he
        rcases List.mem_cons.1 he with rfl | he
        · obtain ⟨hgBefore, hgAttributes, hgInner⟩ := h.sound g (by simp)
          exact ⟨hgBefore, hgAttributes, hgInner.append hclosed⟩
        · exact h.sound e (by simp [he])
      · have houtermost := h.outermost
        rw [List.getLast?_cons_cons] at houtermost
        cases outer with
        | nil =>
            intro e he
            rw [List.getLast?_singleton, Option.mem_some_iff] at he
            rw [← he]
            exact houtermost g rfl
        | cons e outer =>
            rw [List.getLast?_cons_cons] at houtermost ⊢
            exact houtermost

/-! ## Assemblies on their way -/

namespace Assembly

variable {a b c : Assembly}

theorem length_opened_unwind : (start.build (unwind frames)).opened.length = frames.length := by
  induction frames with
  | nil => rfl
  | cons f outer ih =>
      rw [unwind, build_append, build_append, build_cons, opened_build_row]
      change ((start.build (unwind outer)).build (textPieces f.before)).opened.length + 1 = _
      rw [opened_build_text, ih, List.length_cons]

theorem opened_unwind : (start.build (unwind frames)).opened = [] ↔ frames = [] := by
  rw [← List.length_eq_zero_iff, length_opened_unwind, List.length_eq_zero_iff]

theorem pending_build (h : a.pending = []) (pieces : List Piece) : (a.build pieces).pending = [] := by
  induction pieces generalizing a with
  | nil => exact h
  | cons piece rest ih =>
      refine ih ?_
      cases piece with
      | opening name attributes => exact h
      | text cs => rfl
      | closing => exact h

theorem settled_of_pending (h : a.pending = []) : a.settled = a := Assembly.ext rfl rfl h.symm

/-- A text at hand that is not blank is kept. -/
theorem exists_flushed (a : Assembly) : ∃ t, Kept t ∧ a.flushed = textPieces t := by
  unfold flushed
  by_cases hblank : a.pending.all Text.isBlank
  · exact ⟨[], Or.inl rfl, if_pos hblank⟩
  · rw [if_neg hblank]
    refine ⟨a.pending.reverse, Or.inr (by simpa using hblank), ?_⟩
    have hne : a.pending.reverse.isEmpty = false := by
      cases hpending : a.pending with
      | nil => simp [hpending] at hblank
      | cons c cs => simp
    rw [textPieces, hne]
    rfl

theorem textPieces_eq_nil : textPieces t = [] ↔ t = [] := by
  cases t <;> simp [textPieces]

/-- An element at the outermost place hangs on the document. -/
theorem children_root_build {row : Row} (h : row ≠ .nil) :
    ((start.build row.pieces).document.node Document.rootId).children ≠ [] := by
  have hlist : (start.build row.pieces).document.list = _ := list_build_row
  have hstart : start.document.list = [⟨.document, none, [], []⟩] := rfl
  rw [hstart] at hlist
  rw [Document.node_eq_list, hlist]
  cases row with
  | nil => exact absurd rfl h
  | element before name attributes inner tail rest =>
      simp [grown, Row.ids, Node.adopt, Document.rootId, current, start]

/-- What an assembly is built of besides the text at hand is a stage. -/
def Reached (a : Assembly) : Prop := ∃ pieces, Stage pieces ∧ a.settled = start.build pieces

/-- Behind the text at hand, an assembly stands inside elements, or behind the outermost one. -/
theorem Reached.flush (h : a.Reached) (hflush : a.flush = .ok c) :
    (∃ frames t, Nested frames ∧ Kept t ∧ (frames = [] → t = []) ∧ (c.opened = [] ↔ frames = []) ∧
      c = start.build (unwind frames ++ textPieces t)) ∨
    ∃ f tail, f.before = [] ∧ (Frame.closed f tail).Sound ∧ c.opened = [] ∧
      c = start.build (f.closed tail).pieces := by
  obtain ⟨pieces, hstage, hsettled⟩ := h
  obtain ⟨hc, hinside, hopened⟩ := flush_eq_ok hflush
  obtain ⟨t, ht, hflushed⟩ := exists_flushed a
  have hbuild : a.opened = (start.build pieces).opened := by rw [← hsettled]; rfl
  rw [hflushed, textPieces_eq_nil] at hinside
  rw [hflushed, hsettled] at hc
  cases hstage with
  | @within frames hnested hpieces =>
      have hframes : a.opened = [] ↔ frames = [] := by rw [hbuild, hpieces, opened_unwind]
      refine Or.inl ⟨frames, t, hnested, ht, fun hnil => ?_, by rw [hopened, hframes], ?_⟩
      · exact hinside.resolve_right fun hne => hne (hframes.2 hnil)
      · rw [hc, hpieces, build_append]
  | @behind f tail hbefore hsound hpieces =>
      -- no element is open, so that the text at hand is blank
      have hnil : a.opened = [] := by rw [hbuild, hpieces, opened_build_row]; rfl
      refine Or.inr ⟨f, tail, hbefore, hsound, by rw [hopened, hnil], ?_⟩
      rw [hc, hinside.resolve_right fun hne => hne hnil, hpieces]
      rfl

theorem Reached.of_build (h : Stage pieces) : (start.build pieces).Reached :=
  ⟨pieces, h, settled_of_pending (pending_build rfl pieces)⟩

/-- Where an element may be opened, no element stands at the outermost place. -/
theorem Reached.opening (h : a.Reached) (hflush : a.flush = .ok c)
    (hroot : c.opened = [] → (c.document.node Document.rootId).children = [])
    (hattributes : (attributes.map (·.1)).Nodup) :
    ∃ f outer, Nested (f :: outer) ∧ c.build [.opening name attributes] = start.build (unwind (f :: outer)) := by
  rcases h.flush hflush with ⟨frames, t, hnested, ht, houtermost, _, hc⟩ | ⟨f, tail, _, _, hopened, hc⟩
  · refine ⟨⟨t, name, attributes, .nil⟩, frames, hnested.open ht houtermost hattributes, ?_⟩
    rw [hc, ← build_append, unwind, Row.pieces, List.append_assoc]
  · have hchildren := hroot hopened
    rw [hc] at hchildren
    exact absurd hchildren (children_root_build (by simp [Frame.closed]))

theorem Reached.advance (h : a.Reached) (hadvance : a.Advance b) : b.Reached := by
  cases hadvance with
  | characters cs =>
      obtain ⟨pieces, hstage, hsettled⟩ := h
      exact ⟨pieces, hstage, hsettled⟩
  | opening hflush hroot hpairs =>
      obtain ⟨f, outer, hnested, hbuild⟩ := h.opening hflush hroot (nodup_readPairs hpairs)
      exact hbuild ▸ .of_build (.within hnested rfl)
  | @emptyElement c tag name attributes hflush hroot hpairs =>
      obtain ⟨f, outer, hnested, hbuild⟩ := h.opening hflush hroot (nodup_readPairs hpairs)
      have hclose : c.build [.opening name attributes, .closing] =
          start.build (unwind (f :: outer) ++ (textPieces [] ++ [.closing])) := by
        rw [build_append, ← hbuild]
        rfl
      exact hclose ▸ .of_build (Stage.close hnested (Or.inl rfl))
  | @closing c hflush hopened =>
      rcases h.flush hflush with ⟨frames, t, hnested, ht, _, hframes, hc⟩ | ⟨_, _, _, _, hnil, _⟩
      · cases frames with
        | nil => exact absurd (hframes.2 rfl) hopened
        | cons f outer =>
            rw [hc, ← build_append, List.append_assoc]
            exact .of_build (Stage.close hnested ht)
      · exact absurd hnil hopened

end Assembly

/-- A document that can be read is one element, built of the pieces of its row. -/
theorem Document.exists_row {octets : Octets} {d : Document} (h : Document.parse octets = .ok d) :
    ∃ name attributes inner tail, (Row.element [] name attributes inner tail .nil).Sound ∧
      d = (Assembly.start.build (Row.element [] name attributes inner tail .nil).pieces).document := by
  obtain ⟨a, hevents, hfinish⟩ := Document.parse_eq_ok h
  obtain ⟨c, hflush, hopened, hchildren, rfl⟩ := Assembly.finish_eq_ok hfinish
  have hnested : Nested [] := ⟨by simp, by simp⟩
  have hstart : Assembly.start.Reached := .of_build (.within hnested rfl)
  have hreached : a.Reached := Assembly.events_induction hstart (fun _ _ h => h.advance) hevents
  rcases hreached.flush hflush with ⟨frames, t, _, _, houtermost, hframes, hc⟩ | ⟨f, tail, hbefore, hsound, _, hc⟩
  · have hnil := hframes.1 hopened
    rw [hc, houtermost hnil, hnil] at hchildren
    exact absurd rfl hchildren
  · rw [Frame.closed, hbefore] at hsound hc
    exact ⟨f.name, f.attributes, f.inner, tail, hsound, by rw [hc]⟩

end Interchange.Xml
