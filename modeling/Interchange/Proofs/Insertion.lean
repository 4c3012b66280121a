import Interchange.Proofs.Declared
import Interchange.Proofs.Elements

/-!
# One more attribute

A document with one more attribute in a tag is the document without it, but for the numbers: the attribute gets one,
and all nodes behind it get the next (`exists_builds_insertion`). Each step of the construction keeps this.
-/

namespace Interchange.Xml

open Document (rootId)

/-- An attribute that is put in: on which element, of what name, with which number, and behind which attributes of the
element. -/
structure Insertion where
  element : Nat
  tagName : String
  number : Nat
  before : List (String × String)
  name : String
  value : String

namespace Insertion

variable {x : Insertion} {d d' : Document} {i j p p' : Nat} {n : Node}

/-- The number of a node behind the insertion. -/
def shift (x : Insertion) (i : Nat) : Nat := if i < x.number then i else i + 1

/-- The attributes of a node behind the insertion. -/
def attributes (x : Insertion) (i : Nat) (ids : List Nat) : List Nat :=
  if i = x.element then
    (ids.take x.before.length).map x.shift ++ x.number :: (ids.drop x.before.length).map x.shift
  else ids.map x.shift

/-- A node behind the insertion. -/
def place (x : Insertion) (i : Nat) (n : Node) : Node :=
  ⟨n.content, n.parent.map x.shift, n.children.map x.shift, x.attributes i n.attributes⟩

/-- In a document that has an element in front, an attribute is put in. -/
structure Takes (x : Insertion) (d d' : Document) : Prop where
  size : d'.size = d.size + 1
  element_lt : x.element < x.number
  number_le : x.number ≤ d.size
  outer : ∃ c < x.element, (d.node rootId).children.head? = some c
  content : (d.node x.element).content = .element x.tagName
  before : x.before <+: d.attributePairs x.element
  new : d'.node x.number = ⟨.attr x.name x.value, some x.element, [], []⟩
  node : ∀ i, d'.node (x.shift i) = x.place i (d.node i)

/-! ## Numbers -/

theorem shift_of_lt (h : i < x.number) : x.shift i = i := if_pos h

theorem shift_of_le (h : x.number ≤ i) : x.shift i = i + 1 := if_neg (Nat.not_lt_of_le h)

theorem shift_injective (x : Insertion) : Function.Injective x.shift := by
  intro i j h
  unfold shift at h
  split at h <;> split at h <;> omega

theorem shift_ne_number : x.shift i ≠ x.number := by
  unfold shift
  split <;> omega

theorem attributes_concat (hid : i = x.element → x.before.length ≤ n.attributes.length) :
    x.attributes i (n.attributes ++ [j]) = x.attributes i n.attributes ++ [x.shift j] := by
  unfold attributes
  split
  · rename_i hi
    rw [List.take_append_of_le_length (hid hi), List.drop_append_of_le_length (hid hi)]
    simp
  · exact List.map_append

theorem place_attach {link : Document.Link} (hid : i = x.element → x.before.length ≤ n.attributes.length) :
    x.place i (link.attach j n) = link.attach (x.shift j) (x.place i n) := by
  cases link with
  | child => simp [place, Document.Link.attach]
  | attr => simp [place, Document.Link.attach, attributes_concat hid]

theorem place_new {content : Content} (hi : i ≠ x.element) :
    x.place i ⟨content, some p, [], []⟩ = ⟨content, some (x.shift p), [], []⟩ := by
  simp [place, attributes, hi]

theorem place_none (hi : i ≠ x.element) : x.place i ⟨.text "", none, [], []⟩ = ⟨.text "", none, [], []⟩ := by
  simp [place, attributes, hi]

namespace Takes

theorem shift_root (h : x.Takes d d') : x.shift rootId = rootId :=
  shift_of_lt (Nat.lt_of_le_of_lt (Nat.zero_le _) h.element_lt)

theorem shift_size (h : x.Takes d d') : x.shift d.size = d'.size := by
  rw [shift_of_le h.number_le, h.size]

theorem element_lt_size (h : x.Takes d d') : x.element < d.size := Nat.lt_of_lt_of_le h.element_lt h.number_le

theorem before_length_le (h : x.Takes d d') : x.before.length ≤ (d.node x.element).attributes.length := by
  have hle := h.before.length_le
  rwa [Document.attributePairs, List.length_map] at hle

theorem place_of_le (h : x.Takes d d') (hi : d.size ≤ i) : i ≠ x.element :=
  Nat.ne_of_gt (Nat.lt_of_lt_of_le h.element_lt (Nat.le_trans h.number_le hi))

/-! ## More nodes -/

/-- A node that is put in behind hangs on the same node in both documents. -/
theorem append (h : x.Takes d d') {link : Document.Link} {content : Content} (hp : p < d.size)
    (hp' : p' < d'.size) (heq : p' = x.shift p) :
    x.Takes (d.append p hp link content) (d'.append p' hp' link content) where
  size := by rw [Document.size_append, Document.size_append, h.size]
  element_lt := h.element_lt
  number_le := by
    rw [Document.size_append]
    exact Nat.le_succ_of_le h.number_le
  outer := by
    obtain ⟨c, hc, hhead⟩ := h.outer
    have hroot : rootId < d.size := Nat.lt_of_le_of_lt (Nat.zero_le _) hp
    refine ⟨c, hc, ?_⟩
    rw [Document.node_append_of_lt hroot]
    split
    · cases link with
      | child => rw [Document.Link.attach, List.head?_append, hhead, Option.some_or]
      | attr => exact hhead
    · exact hhead
  content := by rw [Document.content_append h.element_lt_size, h.content]
  before := by
    rw [Document.attributePairs_append h.element_lt_size]
    exact h.before.trans (List.prefix_append ..)
  new := by
    have hlt : x.number < d'.size := h.size ▸ Nat.lt_succ_of_le h.number_le
    rw [Document.node_append_of_ne hlt (heq ▸ shift_ne_number.symm), h.new]
  node i := by
    subst heq
    rcases Nat.lt_trichotomy i d.size with hi | rfl | hi
    · have hi' : x.shift i < d'.size := by
        rw [h.size]
        unfold shift
        split <;> omega
      rw [Document.node_append_of_lt hi', Document.node_append_of_lt hi, h.node]
      by_cases hpi : p = i
      · have hid : i = x.element → x.before.length ≤ (d.node i).attributes.length :=
          fun hi => hi ▸ h.before_length_le
        rw [if_pos (congrArg x.shift hpi), if_pos hpi, place_attach hid, h.shift_size]
      · rw [if_neg fun hsame => hpi (x.shift_injective hsame), if_neg hpi]
    · rw [h.shift_size, Document.node_append_self, Document.node_append_self,
        place_new (h.place_of_le (Nat.le_refl _))]
    · have hgt : d.size + 1 ≤ i := hi
      have hle' : (d'.append (x.shift p) hp' link content).size ≤ x.shift i := by
        rw [Document.size_append, h.size, shift_of_le (Nat.le_trans h.number_le (Nat.le_of_lt hi))]
        omega
      rw [Document.node_of_le hle', Document.node_of_le (by rw [Document.size_append]; exact hgt),
        place_none (h.place_of_le (Nat.le_of_lt hi))]

theorem appendAttributes (h : x.Takes d d') {pairs : List (String × String)} (hp : p < d.size)
    (hp' : p' < d'.size) (heq : p' = x.shift p) :
    x.Takes (d.appendAttributes p hp pairs) (d'.appendAttributes p' hp' pairs) := by
  induction pairs generalizing d d' with
  | nil => exact h
  | cons pair pairs ih => exact ih (h.append hp hp' heq) _ _

end Takes

/-! ## The attribute itself -/

theorem map_shift_of_lt {ids : List Nat} (h : ∀ j ∈ ids, j < x.number) : ids.map x.shift = ids := by
  rw [List.map_congr_left fun j hj => shift_of_lt (h j hj), List.map_id']

/-- In front of the insertion, only the attributes of the element change. -/
theorem place_node (hx : x.number = d.size) (hi : i < d.size) (hall : (d.node x.element).attributes.length =
    x.before.length) : x.place i (d.node i) =
      if x.element = i then Document.Link.attr.attach d.size (d.node i) else d.node i := by
  have hparent : (d.node i).parent.map x.shift = (d.node i).parent := by
    cases h : (d.node i).parent with
    | none => rfl
    | some p => exact congrArg some (shift_of_lt (hx ▸ Nat.lt_trans (Document.parent_lt h) hi))
  have hchildren : (d.node i).children.map x.shift = (d.node i).children :=
    map_shift_of_lt fun j hj => hx ▸ (Document.lt_of_mem_children hj).2
  have hattributes : (d.node i).attributes.map x.shift = (d.node i).attributes :=
    map_shift_of_lt fun j hj => hx ▸ (Document.lt_of_mem_attributes hj).2
  unfold place attributes
  rw [hparent, hchildren]
  by_cases he : x.element = i
  · subst he
    rw [if_pos rfl, if_pos rfl, List.take_of_length_le (Nat.le_of_eq hall), List.drop_of_length_le (Nat.le_of_eq hall),
      hattributes, hx]
    rfl
  · rw [if_neg (Ne.symm he), if_neg he, hattributes]

/-- Behind the attributes that an element has so far, an attribute can be put in. -/
theorem takes_append_attr {e : Nat} (he : e < d.size) {tagName : String} (name value : String)
    (hcontent : (d.node e).content = .element tagName)
    (houter : ∃ c < e, (d.node rootId).children.head? = some c) :
    Takes ⟨e, tagName, d.size, d.attributePairs e, name, value⟩ d (d.append e he .attr (.attr name value)) where
  size := Document.size_append
  element_lt := he
  number_le := Nat.le_refl _
  outer := houter
  content := hcontent
  before := List.prefix_refl _
  new := Document.node_append_self
  node i := by
    by_cases hi : i < d.size
    · rw [shift_of_lt hi, Document.node_append_of_lt hi, place_node rfl hi (List.length_map _).symm]
    · have hle := Nat.le_of_not_lt hi
      have hle' : (d.append e he .attr (.attr name value)).size ≤ i + 1 := by
        rw [Document.size_append]
        omega
      rw [shift_of_le hle, Document.node_of_le hle', Document.node_of_le hle]
      exact (place_none (Nat.ne_of_gt (Nat.lt_of_lt_of_le he hle))).symm

/-! ## Assemblies -/

/-- Two documents under construction, the second with the attribute put in. -/
structure Alongside (x : Insertion) (a a' : Assembly) : Prop where
  document : x.Takes a.document a'.document
  opened : a'.opened = a.opened.map x.shift
  pending : a'.pending = a.pending

namespace Alongside

variable {a a' b b' c : Assembly} {e : Event} {events : List Event}

theorem current (h : x.Alongside a a') : a'.current = x.shift a.current := by
  unfold Assembly.current
  rw [h.opened]
  cases a.opened with
  | nil => exact h.document.shift_root.symm
  | cons i rest => rfl

theorem addText (h : x.Alongside a a') : x.Alongside a.addText a'.addText where
  document := by
    have htext : Content.text (String.ofList a'.pending.reverse) = .text (String.ofList a.pending.reverse) := by
      rw [h.pending]
    change x.Takes _ (a'.document.append a'.current a'.current_lt .child (.text (String.ofList a'.pending.reverse)))
    rw [htext]
    exact h.document.append a.current_lt a'.current_lt h.current
  opened := h.opened
  pending := rfl

theorem addElement (h : x.Alongside a a') (enter : Bool) (name : String) (pairs : List (String × String)) :
    x.Alongside (a.addElement enter name pairs) (a'.addElement enter name pairs) where
  document := (h.document.append a.current_lt a'.current_lt h.current).appendAttributes _ _ h.document.shift_size.symm
  opened := by
    unfold Assembly.addElement
    cases enter with
    | false => exact h.opened
    | true => simp [h.opened, h.document.shift_size]
  pending := h.pending

theorem leave (h : x.Alongside a a') : x.Alongside a.leave a'.leave where
  document := h.document
  opened := (congrArg List.tail h.opened).trans List.map_tail.symm
  pending := h.pending

theorem addCharacters (h : x.Alongside a a') (cs : List Char) :
    x.Alongside (a.addCharacters cs) (a'.addCharacters cs) where
  document := h.document
  opened := h.opened
  pending := by rw [Assembly.addCharacters, Assembly.addCharacters, h.pending]

theorem flush (h : x.Alongside a a') (hflush : a.flush = .ok b) : ∃ b', a'.flush = .ok b' ∧ x.Alongside b b' := by
  have hempty : a'.opened.isEmpty = a.opened.isEmpty := by rw [h.opened, List.isEmpty_map]
  unfold Assembly.flush at hflush ⊢
  simp only [h.pending, hempty]
  split at hflush
  · rename_i hblank
    cases hflush
    exact ⟨_, if_pos hblank, h.document, h.opened, rfl⟩
  · rename_i hblank
    split at hflush
    · cases hflush
    · rename_i hopened
      cases hflush
      exact ⟨a'.addText, by rw [if_neg hblank, if_neg hopened], h.addText⟩

theorem openElement (h : x.Alongside a a') {enter : Bool} {tag : Tag} (hstep : a.openElement enter tag = .ok b) :
    ∃ b', a'.openElement enter tag = .ok b' ∧ x.Alongside b b' := by
  obtain ⟨c, name, pairs, hflush, hroot, hname, hpairs, rfl⟩ := Assembly.openElement_iff.1 hstep
  obtain ⟨c', hflush', hc⟩ := h.flush hflush
  refine ⟨_, Assembly.openElement_iff.2 ⟨c', name, pairs, hflush', fun hopened => ?_, hname, hpairs, rfl⟩,
    hc.addElement enter _ pairs⟩
  have hnode := hc.document.node rootId
  rw [hc.document.shift_root] at hnode
  have hchildren := hroot (List.map_eq_nil_iff.1 (hc.opened.symm.trans hopened))
  rw [hnode, place, hchildren]
  rfl

theorem step (h : x.Alongside a a') (hstep : a.step e = .ok b) : ∃ b', a'.step e = .ok b' ∧ x.Alongside b b' := by
  cases e with
  | opening tag | emptyElement tag => exact h.openElement hstep
  | closing name =>
      obtain ⟨c, i, outer, cs, hflush, hopened, hname, hnode, rfl⟩ := Assembly.closeElement_iff.1 hstep
      obtain ⟨c', hflush', hc⟩ := h.flush hflush
      refine ⟨_, Assembly.closeElement_iff.2 ⟨c', x.shift i, outer.map x.shift, cs, hflush', ?_, hname, ?_, rfl⟩,
        hc.leave⟩
      · rw [hc.opened, hopened, List.map_cons]
      · rw [hc.document.node]
        exact hnode
  | characters _ | literal _ | reference _ | comment _ | instruction _ | doctype _ =>
      obtain ⟨cs, hcs, rfl⟩ := (Assembly.step_eq_ok rfl).1 hstep
      exact ⟨_, (Assembly.step_eq_ok rfl).2 ⟨cs, hcs, rfl⟩, h.addCharacters cs⟩

theorem foldlM (h : x.Alongside a a') (hrun : events.foldlM Assembly.step a = .ok b) :
    ∃ b', events.foldlM Assembly.step a' = .ok b' ∧ x.Alongside b b' := by
  induction events generalizing a a' with
  | nil =>
      cases hrun
      exact ⟨a', rfl, h⟩
  | cons e events ih =>
      obtain ⟨c, hstep, hrest⟩ := Assembly.foldlM_cons.1 hrun
      obtain ⟨c', hstep', hc⟩ := h.step hstep
      obtain ⟨b', hrest', hb⟩ := ih hc hrest
      exact ⟨b', Assembly.foldlM_cons.2 ⟨c', hstep', hrest'⟩, hb⟩

theorem finish (h : x.Alongside a a') (hfinish : a.finish = .ok d) : ∃ d', a'.finish = .ok d' ∧ x.Takes d d' := by
  obtain ⟨c, hflush, hopened, hroot, rfl⟩ := Assembly.finish_iff.1 hfinish
  obtain ⟨c', hflush', hc⟩ := h.flush hflush
  refine ⟨_, Assembly.finish_iff.2 ⟨c', hflush', by rw [hc.opened, hopened]; rfl, ?_, rfl⟩, hc.document⟩
  have hnode := hc.document.node rootId
  rw [hc.document.shift_root] at hnode
  rw [hnode]
  exact fun hnil => hroot (List.map_eq_nil_iff.1 hnil)

end Alongside

end Insertion

/-! ## One more attribute in a tag -/

open Text.Utf8 (Octets)
open Assembly (readPairs)

variable {front back : List Event} {begins : Tag → Event} {tag tag' : Tag} {before after : List (String × String)}
  {key name value : String} {a b c : Assembly} {d : Document}

theorem Document.appendAttributes_append {d : Document} {p : Nat} {hp : p < d.size} :
    d.appendAttributes p hp (before ++ after) =
      (d.appendAttributes p hp before).appendAttributes p
        (by rw [Document.size_appendAttributes]; exact Nat.lt_add_right _ hp) after := by
  induction before generalizing d with
  | nil => rfl
  | cons pair before ih => exact ih

/-- Behind a tag, something hangs on the document. -/
theorem Assembly.rooted_of_tag (h : front.foldlM Assembly.step .start = .ok a)
    (htag : ∃ e ∈ front, e.tag? ≠ none) : a.Rooted := by
  obtain ⟨e, he, htag⟩ := htag
  obtain ⟨first, rest, rfl⟩ := List.append_of_mem he
  obtain ⟨b, hfirst, hlast⟩ := Assembly.foldlM_append.1 h
  obtain ⟨c, hstep, hrest⟩ := Assembly.foldlM_cons.1 hlast
  cases e with
  | opening tag | emptyElement tag =>
      exact (Rooted.of_openElement (Assembly.rooted_of_opened hfirst) hstep).foldlM hrest
  | closing _ | characters _ | literal _ | reference _ | comment _ | instruction _ | doctype _ =>
      exact absurd rfl htag

/-- An attribute more among those that an element gets is an insertion. -/
theorem Insertion.exists_takes {e : Nat} (he : e < d.size) (hcontent : (d.node e).content = .element name)
    (hnone : d.attributePairs e = []) (houter : ∃ c < e, (d.node rootId).children.head? = some c) :
    ∃ x : Insertion, x.element = e ∧ x.tagName = name ∧ x.before = before ∧ x.name = key ∧ x.value = value ∧
      x.Takes (d.appendAttributes e he (before ++ after))
        (d.appendAttributes e he (before ++ (key, value) :: after)) := by
  rw [Document.appendAttributes_append, Document.appendAttributes_append]
  have hlt : e < (d.appendAttributes e he before).size := by
    rw [Document.size_appendAttributes]
    exact Nat.lt_add_right _ he
  have hpairs : (d.appendAttributes e he before).attributePairs e = before := by
    rw [Document.attributePairs_appendAttributes, hnone, List.nil_append]
  have hcontent' : ((d.appendAttributes e he before).node e).content = .element name := by
    rw [Document.content_appendAttributes he, hcontent]
  have houter' : ∃ c < e, ((d.appendAttributes e he before).node rootId).children.head? = some c := by
    obtain ⟨c, hc, hhead⟩ := houter
    have hroot : rootId < e := Nat.lt_of_le_of_lt (Nat.zero_le c) hc
    refine ⟨c, hc, ?_⟩
    rw [Document.node_appendAttributes_of_ne (Nat.lt_trans hroot he) (Nat.ne_of_lt hroot), hhead]
  have htakes := takes_append_attr hlt key value hcontent' houter'
  exact ⟨_, rfl, rfl, hpairs, rfl, rfl, htakes.appendAttributes hlt _ (shift_of_lt htakes.element_lt).symm⟩

theorem Insertion.exists_alongside (hroot : c.Rooted) (enter : Bool) (name : String)
    (before after : List (String × String)) (key value : String) : ∃ x : Insertion,
      x.tagName = name ∧ x.before = before ∧ x.name = key ∧ x.value = value ∧
      x.Alongside (c.addElement enter name (before ++ after))
        (c.addElement enter name (before ++ (key, value) :: after)) := by
  have hlt : c.document.size < (c.document.append c.current c.current_lt .child (.element name)).size := by simp
  have hcontent : ((c.document.append c.current c.current_lt .child (.element name)).node c.document.size).content =
      .element name := by rw [Document.node_append_self]
  have hnone : (c.document.append c.current c.current_lt .child (.element name)).attributePairs c.document.size =
      [] := by
    rw [Document.attributePairs, Document.node_append_self]
    rfl
  have houter : ∃ first < c.document.size,
      ((c.document.append c.current c.current_lt .child (.element name)).node rootId).children.head? =
        some first := by
    obtain ⟨first, rest, hchildren⟩ := List.exists_cons_of_ne_nil hroot
    have hlt : rootId < c.document.size := c.size_pos
    refine ⟨first, (Document.lt_of_mem_children (by rw [hchildren]; simp)).2, ?_⟩
    rw [Document.node_append_of_lt hlt]
    split <;> simp [Document.Link.attach, hchildren]
  obtain ⟨x, helement, htag, hbefore, hname, hvalue, htakes⟩ := exists_takes hlt hcontent hnone houter
  refine ⟨x, htag, hbefore, hname, hvalue, htakes, (map_shift_of_lt fun i hi => ?_).symm, rfl⟩
  -- what stands open is the element or stands in front of it
  have hle : i ≤ c.document.size := by
    cases enter with
    | true => exact (List.mem_cons.1 hi).elim Nat.le_of_eq fun hi => Nat.le_of_lt (c.opened_lt i hi)
    | false => exact Nat.le_of_lt (c.opened_lt i hi)
  exact Nat.lt_of_le_of_lt hle (helement ▸ htakes.element_lt)

/-- One more attribute in a tag below the outermost is one more attribute in the document. -/
theorem exists_builds_insertion (hbegins : begins = .opening ∨ begins = .emptyElement)
    (hfront : ∃ e ∈ front, e.tag? ≠ none) (hname : tag'.name = tag.name)
    (hpairs : readPairs tag.attributes = .ok (before ++ after))
    (hpairs' : readPairs tag'.attributes = .ok (before ++ (key, value) :: after))
    (h : Builds (front ++ begins tag :: back) d) :
    ∃ (x : Insertion) (d' : Document), readText tag.name = .ok x.tagName.toList ∧ x.before = before ∧
      x.name = key ∧ x.value = value ∧ Builds (front ++ begins tag' :: back) d' ∧ x.Takes d d' := by
  obtain ⟨b, hevents, hfinish⟩ := h
  obtain ⟨a, hrun, hlast⟩ := Assembly.foldlM_append.1 hevents
  obtain ⟨c, hstep, hback⟩ := Assembly.foldlM_cons.1 hlast
  have hroot : a.Rooted := Assembly.rooted_of_tag hrun hfront
  obtain ⟨enter, hopen⟩ : ∃ enter, ∀ tag, a.step (begins tag) = a.openElement enter tag := by
    rcases hbegins with rfl | rfl
    · exact ⟨true, fun _ => rfl⟩
    · exact ⟨false, fun _ => rfl⟩
  rw [hopen] at hstep
  obtain ⟨c₀, name, pairs, hflush, hsingle, hkey, hread, rfl⟩ := Assembly.openElement_iff.1 hstep
  cases hread.symm.trans hpairs
  obtain ⟨x, htag, hbefore, hxname, hvalue, hc⟩ :=
    Insertion.exists_alongside (hroot.flush hflush) enter (String.ofList name) before after key value
  obtain ⟨b', hback', hb⟩ := hc.foldlM hback
  obtain ⟨d', hfinish', htakes⟩ := hb.finish hfinish
  have hstep' : a.step (begins tag') = .ok _ := (hopen tag').trans
    (Assembly.openElement_iff.2 ⟨c₀, name, _, hflush, hsingle, hname ▸ hkey, hpairs', rfl⟩)
  exact ⟨x, d', by rw [hkey, htag, String.toList_ofList], hbefore, hxname, hvalue,
    ⟨b', Assembly.foldlM_append.2 ⟨a, hrun, Assembly.foldlM_cons.2 ⟨_, hstep', hback'⟩⟩, hfinish'⟩, htakes⟩

end Interchange.Xml
