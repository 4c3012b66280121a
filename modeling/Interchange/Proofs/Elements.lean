import Interchange.Proofs.Acceptance
import Interchange.Proofs.Formatting
import Interchange.Proofs.Rereading

/-!
# An element among others

Whether an element with a text can stand between some events depends on these events, on its tag and on its text,
each by itself (`exists_builds_element`), and its nodes are in the document as they were put in
(`holds_of_builds_element`): what follows an element is not read otherwise for what it holds, and does not
change it.
-/

namespace Interchange.Xml

open Text.Utf8 (Octets)
open Document (rootId)

/-! ## The nodes of an element -/

namespace Document.Holds

variable {d e : Document} {nodes : List Node} {next p i : Nat} {name : String} {pairs : List (String × String)}
  {cs : List Char}

theorem congr (h : e.Holds next nodes)
    (hsame : ∀ i, next ≤ i → i < next + nodes.length → d.node i = e.node i) : d.Holds next nodes := by
  induction nodes generalizing next with
  | nil => trivial
  | cons n nodes ih =>
      obtain ⟨hnode, hrest⟩ := h
      rw [List.length_cons] at hsame
      refine ⟨(hsame next (Nat.le_refl _) (by omega)).trans hnode, ih hrest fun i hle hlt => ?_⟩
      exact hsame i (Nat.le_of_succ_le hle) (by omega)

theorem exists_attribute {pair : String × String} (h : d.Holds next (attributeNodes p pairs)) (hpair : pair ∈ pairs) :
    ∃ n ∈ List.range' next pairs.length, (d.node n).content = .attr pair.1 pair.2 := by
  induction pairs generalizing next with
  | nil => cases hpair
  | cons first pairs ih =>
      obtain ⟨hnode, hrest⟩ := h
      rw [List.length_cons, List.range'_succ]
      rcases List.mem_cons.1 hpair with rfl | hpair
      · exact ⟨next, List.mem_cons_self, by rw [hnode]⟩
      · obtain ⟨n, hn, hcontent⟩ := ih hrest hpair
        exact ⟨n, List.mem_cons_of_mem _ hn, hcontent⟩

/-- An element with a text and no other content has its name, its text and its attributes. -/
theorem element (h : d.Holds i ((Row.element [] name pairs .nil cs .nil).nodes p i)) :
    (d.node i).content = .element name ∧ d.textContent i = String.ofList cs ∧
      ∀ pair ∈ pairs, ∃ n ∈ (d.node i).attributes, (d.node n).content = .attr pair.1 pair.2 := by
  obtain ⟨hnode, hrest⟩ := h
  obtain ⟨hattributes, htext⟩ := holds_append.1 hrest
  refine ⟨by rw [hnode], ?_, fun pair hpair => ?_⟩
  · have hvalue : (d.node i).value = none := by rw [hnode]; rfl
    rw [textContent, hvalue, descendants_eq, hnode]
    cases cs with
    | nil => rfl
    | cons c cs =>
        rw [length_attributeNodes] at htext
        have hleaf : d.node (i + 1 + pairs.length) = ⟨.text (String.ofList (c :: cs)), some i, [], []⟩ := htext.1
        have hbelow : d.descendants (i + 1 + pairs.length) = [] := by rw [descendants_eq, hleaf]; rfl
        have hchildren : (Row.nil.ids (i + textSize [] + 1 + pairs.length)) ++
            textIds (i + textSize [] + 1 + pairs.length + Row.nil.size) (c :: cs) = [i + 1 + pairs.length] := rfl
        dsimp only
        rw [hchildren, List.flatMap_singleton, hbelow, List.filterMap_cons, hleaf]
        simp [Node.isText, Node.value]
  · rw [hnode]
    exact hattributes.exists_attribute hpair

end Document.Holds

namespace Assembly

variable {a b c : Assembly} {i : Nat} {piece : Piece} {pieces : List Piece} {events : List Event} {e : Event}

/-! ## Nodes that are complete -/

/-- A node on which nothing more will hang: it is there, and is neither the document nor an open element. -/
structure Complete (a : Assembly) (i : Nat) : Prop where
  lt : i < a.document.size
  inner : i ≠ rootId
  closed : i ∉ a.opened

theorem Complete.ne_current (h : a.Complete i) : i ≠ a.current := by
  unfold current
  cases hopened : a.opened with
  | nil => exact h.inner
  | cons j rest =>
      rintro rfl
      exact h.closed (by simp [hopened])

theorem Complete.put (h : a.Complete i) (piece : Piece) :
    (a.put piece).Complete i ∧ (a.put piece).document.node i = a.document.node i := by
  have hlt := Nat.lt_of_lt_of_le h.lt (size_le_put piece)
  cases piece with
  | opening name attributes =>
      have hne : i ≠ a.document.size := Nat.ne_of_lt h.lt
      refine ⟨⟨hlt, h.inner, fun hmem => ?_⟩, ?_⟩
      · rcases List.mem_cons.1 hmem with heq | hmem
        · exact hne heq
        · exact h.closed hmem
      · rw [document_put_opening, Document.node_appendAttributes_of_ne (by simp [Nat.lt_succ_of_lt h.lt]) hne,
          Document.node_append_of_ne h.lt h.ne_current]
  | text cs =>
      refine ⟨⟨hlt, h.inner, h.closed⟩, ?_⟩
      rw [document_put_text, Document.node_append_of_ne h.lt h.ne_current]
  | closing => exact ⟨⟨hlt, h.inner, fun hmem => h.closed (List.mem_of_mem_tail hmem)⟩, rfl⟩

theorem Complete.build (h : a.Complete i) :
    (a.build pieces).Complete i ∧ (a.build pieces).document.node i = a.document.node i := by
  induction pieces generalizing a with
  | nil => exact ⟨h, rfl⟩
  | cons piece pieces ih =>
      obtain ⟨hput, hnode⟩ := h.put piece
      obtain ⟨hbuild, hrest⟩ := ih hput
      exact ⟨hbuild, hrest.trans hnode⟩

theorem Complete.flush (h : a.Complete i) (hflush : a.flush = .ok c) :
    c.Complete i ∧ c.document.node i = a.document.node i := by
  obtain ⟨rfl, _, _⟩ := flush_eq_ok hflush
  exact Complete.build (a := a.settled) ⟨h.lt, h.inner, h.closed⟩

theorem Complete.advance (h : a.Complete i) (hadvance : a.Advance b) :
    b.Complete i ∧ b.document.node i = a.document.node i := by
  cases hadvance with
  | characters cs => exact ⟨⟨h.lt, h.inner, h.closed⟩, rfl⟩
  | opening hflush _ _ | emptyElement hflush _ _ | closing hflush _ =>
      obtain ⟨hcomplete, hnode⟩ := h.flush hflush
      obtain ⟨hbuild, hrest⟩ := hcomplete.build
      exact ⟨hbuild, hrest.trans hnode⟩

/-- What is complete stays as it is up to the end. -/
theorem Complete.node_eq {d : Document} (h : a.Complete i) (hrun : events.foldlM step a = .ok b)
    (hfinish : b.finish = .ok d) : d.node i = a.document.node i := by
  induction events generalizing a with
  | nil =>
      cases hrun
      obtain ⟨c, hflush, _, _, rfl⟩ := finish_eq_ok hfinish
      exact (h.flush hflush).2
  | cons e events ih =>
      obtain ⟨c, hstep, hrest⟩ := foldlM_cons.1 hrun
      obtain ⟨hc, hnode⟩ := h.advance (step_advance hstep)
      exact (ih hc hrest).trans hnode

/-! ## The outermost element -/

theorem Rooted.of_openElement {enter : Bool} {tag : Tag} (h : a.opened ≠ [] → a.Rooted)
    (hstep : a.openElement enter tag = .ok b) : b.Rooted := by
  by_cases hopened : a.opened = []
  · exact rooted_openElement hopened hstep
  · cases enter with
    | true => exact (h hopened).step (e := .opening tag) hstep
    | false => exact (h hopened).step (e := .emptyElement tag) hstep

/-- Inside an element, there is an outermost one. -/
theorem rooted_of_opened (h : events.foldlM step start = .ok a) (hopened : a.opened ≠ []) : a.Rooted := by
  have hkept : ∀ {a b : Assembly} {e : Event}, (a.opened ≠ [] → a.Rooted) → a.step e = .ok b →
      b.opened ≠ [] → b.Rooted := by
    intro a b e ha hstep hb
    cases e with
    | opening tag | emptyElement tag => exact .of_openElement ha hstep
    | closing name =>
        obtain ⟨c, hflush, hne, _⟩ := closeElement_eq_ok hstep
        exact (ha ((flush_eq_ok hflush).2.2 ▸ hne)).step hstep
    | characters _ | literal _ | reference _ | comment _ | instruction _ | doctype _ =>
        obtain ⟨cs, _, rfl⟩ := (step_eq_ok rfl).1 hstep
        exact ha hb
  induction events using List.reverseRecOn generalizing a with
  | nil =>
      cases h
      exact absurd rfl hopened
  | append_singleton events e ih =>
      obtain ⟨c, hfront, hlast⟩ := foldlM_append.1 h
      obtain ⟨b, hstep, hb⟩ := foldlM_cons.1 hlast
      cases hb
      exact hkept (ih hfront) hstep hopened

end Assembly

/-! ## An element and what stands around it -/

section Element

variable {front back run : List Event} {tag : Tag} {a b c : Assembly} {d : Document} {cs name : List Char}
  {pairs : List (String × String)}

/-- An element that holds what a run of events stands for. -/
def elementEvents (tag : Tag) (run : List Event) : List Event := .opening tag :: (run ++ [.closing tag.name])

/-- Between some events an element may stand, and what is in front of it is put in. -/
structure IsPlace (front back : List Event) (c : Assembly) : Prop where
  front : ∃ a, front.foldlM Assembly.step .start = .ok a ∧ a.flush = .ok c
  single : c.opened = [] → (c.document.node rootId).children = []
  readable : ∀ e ∈ back, e.Readable
  closes : Closes c.names back

/-- An element is opened, gets its text, and is closed. -/
theorem exists_run_elementEvents (hflush : a.flush = .ok c)
    (hsingle : c.opened = [] → (c.document.node rootId).children = []) (htag : tag.Readable)
    (hrun : runChars? run = some cs) :
    ∃ b, (elementEvents tag run).foldlM Assembly.step a = .ok b ∧ b.names = a.names :=
  exists_element htag hflush hsingle fun {b} _ =>
    ⟨b.addCharacters cs, (Assembly.run_eq_ok (Assembly.isTag_of_runChars? hrun)).2 ⟨cs, hrun, rfl⟩, rfl⟩

/-- Behind an element there is no text at hand, and the outermost element stands. -/
theorem rooted_of_elementEvents (hfront : front.foldlM Assembly.step .start = .ok a)
    (hb : (elementEvents tag run).foldlM Assembly.step a = .ok b) : b.Rooted ∧ b.pending = [] := by
  obtain ⟨inside, hopening, hrest⟩ := Assembly.foldlM_cons.1 hb
  obtain ⟨_, _, hlast⟩ := Assembly.foldlM_append.1 hrest
  obtain ⟨_, hclosing, hend⟩ := Assembly.foldlM_cons.1 hlast
  cases hend
  have hroot : inside.Rooted := .of_openElement (Assembly.rooted_of_opened hfront) hopening
  exact ⟨hroot.foldlM hrest, Assembly.pending_of_isTag rfl hclosing⟩

/-- An element may stand between events exactly if they have a place for one, and its tag and its text can be
read. -/
theorem exists_builds_element (hrun : ∀ e ∈ run, e.isTag = false) :
    (∃ d, Builds (front ++ (elementEvents tag run ++ back)) d) ↔
      tag.Readable ∧ (∃ cs, runChars? run = some cs) ∧ ∃ c, IsPlace front back c := by
  constructor
  · rintro ⟨d, e, hevents, hfinish⟩
    obtain ⟨a, hfront, hrest⟩ := Assembly.foldlM_append.1 hevents
    obtain ⟨b, hb, hback⟩ := Assembly.foldlM_append.1 hrest
    obtain ⟨hroot, hpending⟩ := rooted_of_elementEvents hfront hb
    have htag : tag.Readable := readable_of_foldlM hb (.opening tag) List.mem_cons_self
    obtain ⟨inside, hopening, hinside⟩ := Assembly.foldlM_cons.1 hb
    obtain ⟨c, _, _, hflush, hsingle, _⟩ := Assembly.openElement_eq_ok hopening
    obtain ⟨_, hchars, _⟩ := Assembly.foldlM_append.1 hinside
    obtain ⟨cs, hcs, _⟩ := (Assembly.run_eq_ok hrun).1 hchars
    obtain ⟨b', hb', hnames⟩ := exists_run_elementEvents hflush hsingle htag hcs
    have hcloses := (closes_of_run hroot hback hfinish).1
    rw [Except.ok.inj (hb.symm.trans hb'), hnames, ← Assembly.names_flush hflush] at hcloses
    exact ⟨htag, ⟨cs, hcs⟩, c, ⟨a, hfront, hflush⟩, hsingle, readable_of_foldlM hback, hcloses⟩
  · rintro ⟨htag, ⟨cs, hcs⟩, c, hplace⟩
    obtain ⟨a, hfront, hflush⟩ := hplace.front
    obtain ⟨b, hb, hnames⟩ := exists_run_elementEvents hflush hplace.single htag hcs
    obtain ⟨hroot, hpending⟩ := rooted_of_elementEvents hfront hb
    have hsame : b.names = c.names := hnames.trans (Assembly.names_flush hflush).symm
    obtain ⟨e, d, hback, hfinish⟩ := hplace.closes.exists_run hsame hplace.readable hroot hpending
    exact ⟨d, e, Assembly.foldlM_append.2 ⟨a, hfront, Assembly.foldlM_append.2 ⟨b, hb, hback⟩⟩, hfinish⟩

/-- An element with a text that is kept puts in its pieces. -/
theorem run_elementEvents (hflush : a.flush = .ok c)
    (hsingle : c.opened = [] → (c.document.node rootId).children = []) (hname : readText tag.name = .ok name)
    (hpairs : Assembly.readPairs tag.attributes = .ok pairs) (hrun : runChars? run = some cs) (hkept : Kept cs) :
    (elementEvents tag run).foldlM Assembly.step a =
      .ok (c.build (Row.element [] (String.ofList name) pairs .nil cs .nil).pieces) := by
  have hopening : a.step (.opening tag) = .ok (c.put (.opening (String.ofList name) pairs)) :=
    Assembly.openElement_iff.2 ⟨c, name, pairs, hflush, hsingle, hname, hpairs, rfl⟩
  have hcontent : ((c.put (.opening (String.ofList name) pairs)).document.node c.document.size).content =
      .element (String.ofList name) := Assembly.content_put_opening
  have hlt : c.document.size < (c.put (.opening (String.ofList name) pairs)).document.size := by
    rw [Assembly.size_put_opening]
    omega
  have hopened : (c.put (.opening (String.ofList name) pairs)).opened = c.document.size :: c.opened := rfl
  have hsettled : c.pending = [] := Assembly.pending_flush hflush
  have hpending : (c.put (.opening (String.ofList name) pairs)).pending = [] := hsettled
  have hpieces : c.build (Row.element [] (String.ofList name) pairs .nil cs .nil).pieces =
      ((c.put (.opening (String.ofList name) pairs)).build (textPieces cs)).leave := by
    have hnone : textPieces [] = [] := rfl
    rw [Row.pieces, hnone, List.nil_append, Assembly.build_cons, Row.pieces, List.nil_append, Assembly.build_append]
    rfl
  rw [hpieces]
  generalize c.put (.opening (String.ofList name) pairs) = b at hopening hcontent hlt hopened hpending ⊢
  have hclosing : (b.addCharacters cs).step (.closing tag.name) = .ok (b.build (textPieces cs)).leave := by
    refine Assembly.closeElement_iff.2 ⟨_, c.document.size, c.opened, name,
      Assembly.flush_addCharacters hpending hkept (Or.inr (by simp [hopened])), ?_, readText_eq_ok.1 hname, ?_, rfl⟩
    · rw [Assembly.opened_build_text, hopened]
    · rw [Node.name, Assembly.content_build _ hlt, hcontent]
  exact Assembly.foldlM_cons.2 ⟨b, hopening, Assembly.foldlM_append.2 ⟨_,
    (Assembly.run_eq_ok (Assembly.isTag_of_runChars? hrun)).2 ⟨cs, hrun, rfl⟩,
    Assembly.foldlM_cons.2 ⟨_, hclosing, rfl⟩⟩⟩

/-- In the document, the nodes of an element are those that were put in. -/
theorem holds_of_builds_element (hplace : IsPlace front back c) (hname : readText tag.name = .ok name)
    (hpairs : Assembly.readPairs tag.attributes = .ok pairs) (hrun : runChars? run = some cs) (hkept : Kept cs)
    (h : Builds (front ++ (elementEvents tag run ++ back)) d) :
    d.Holds c.document.size
      ((Row.element [] (String.ofList name) pairs .nil cs .nil).nodes c.current c.document.size) := by
  obtain ⟨e, hevents, hfinish⟩ := h
  obtain ⟨a, hfront, hrest⟩ := Assembly.foldlM_append.1 hevents
  obtain ⟨b, hb, hback⟩ := Assembly.foldlM_append.1 hrest
  obtain ⟨a', ha', hflush⟩ := hplace.front
  cases hfront.symm.trans ha'
  rw [run_elementEvents hflush hplace.single hname hpairs hrun hkept] at hb
  cases hb
  have hlist : (c.build (Row.element [] (String.ofList name) pairs .nil cs .nil).pieces).document.list =
      c.document.list.modify c.current (Node.adopt _) ++ (_ ++ []) :=
    Assembly.list_build_row.trans (by rw [grown, List.append_nil])
  have hholds := Document.holds_of_list hlist
  rw [List.length_modify, Document.length_list] at hholds
  have hsize : (c.build (Row.element [] (String.ofList name) pairs .nil cs .nil).pieces).document.size =
      c.document.size +
        ((Row.element [] (String.ofList name) pairs .nil cs .nil).nodes c.current c.document.size).length := by
    rw [← Document.length_list, Assembly.list_build_row, length_grown, Document.length_list]
  refine hholds.congr fun i hle hlt => ?_
  refine Assembly.Complete.node_eq ⟨hsize ▸ hlt, ?_, ?_⟩ hback hfinish
  · exact Nat.ne_of_gt (Nat.lt_of_lt_of_le c.size_pos hle)
  · rw [Assembly.opened_build_row]
    exact fun hmem => Nat.not_lt.2 hle (c.opened_lt i hmem)

end Element

end Interchange.Xml
