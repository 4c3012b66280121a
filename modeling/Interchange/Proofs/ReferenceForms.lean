import Interchange.Proofs.Elements
import Interchange.Proofs.References

/-!
# References in texts and in values

A text with a reference may stand in an element, or as the value of one more attribute of that element. Both
documents are read to the same text, or neither is read, but for the references that character data take alone
(`Site.parse_reference`).
-/

namespace Interchange.Xml

open Text.Utf8 (Octets encode encodeText encode_append decode_encode mem_of_mem_encode)

/-! ## Reading from place to place -/

/-- From octets on, inside the elements of some names, reading comes by way of events to other octets. -/
def Reads (names : List Octets) (s : Octets) (events : List Event) (inside : List Octets) (left : Octets) : Prop :=
  ∀ total, readFrom total names s =
    ⟨events ++ (readFrom total inside left).events, (readFrom total inside left).flaw⟩

section Reads

variable {names inside outer : List Octets} {s rest after left : Octets} {b : UInt8} {e : Event}
  {events more : List Event}

theorem Reads.nil : Reads names s [] names s := fun _ => rfl

theorem Reads.single (hevent : readEvent b rest = .ok (e, after)) (hnames : nesting names e = .ok inside) :
    Reads names (b :: rest) [e] inside after := fun _ => readFrom_cons hevent hnames

theorem Reads.trans (h : Reads names s events inside rest) (hrest : Reads inside rest more outer left) :
    Reads names s (events ++ more) outer left := fun total => by
  rw [h total, hrest total, List.append_assoc]

/-- Events are read, or not, whatever the length of the input in which they stand. -/
theorem readFrom_total (total other : Nat) (names : List Octets) (s : Octets) :
    (readFrom total names s).events = (readFrom other names s).events ∧
      ((readFrom total names s).flaw = none ↔ (readFrom other names s).flaw = none) := by
  fun_induction readFrom total names s with
  | case1 names => rw [readFrom.eq_def]; simp
  | case2 names b rest flaw left h | case3 names b rest event after h flaw hnesting =>
      rw [readFrom.eq_def]
      dsimp only
      split <;> simp_all
  | case4 names b rest event after h inside hnesting hlt reading ih =>
      rw [readFrom_cons h hnesting]
      obtain ⟨hevents, hflaw⟩ := ih
      exact ⟨congrArg (event :: ·) hevents, hflaw⟩

end Reads

/-! ## Tags -/

namespace Tag

/-- A tag that can be written between brackets, and whose name can be written again in a closing tag: the brackets
end where they should, and the tag is an opening one. -/
structure Written (tag : Tag) : Prop where
  first : ∀ b ∈ tag.content.head?, b ≠ exclamation ∧ b ≠ slash ∧ b ≠ questionMark
  last : tag.content.getLast? ≠ some slash
  content : tag.content.foldlM tagStep none = some none
  name : tag.name.foldlM tagStep none = some none

/-- A tag, a text and the closing tag. -/
def element (tag : Tag) (text : List Char) : Octets :=
  lessThan :: (tag.content ++ greaterThan :: (encode text ++ lessThan :: slash :: (tag.name ++ [greaterThan])))

/-- A tag with one more attribute. -/
def extend (tag : Tag) (key : String) (quote : UInt8) (value : List Char) : Tag :=
  ⟨tag.content ++ 0x20 :: (encodeText key ++ equalsSign :: quote :: (encode value ++ [quote]))⟩

variable {tag : Tag} {key : String} {quote : UInt8} {value text : List Char} {names : List Octets}
  {left : Octets} {run : List Event}

theorem Written.readMarkup_opening (h : tag.Written) :
    readMarkup (tag.content ++ greaterThan :: left) = .ok (.opening tag, left) := by
  have hcut : cut tagStep none (tag.content ++ greaterThan :: left) = some (tag.content, left) :=
    cut_of_foldlM h.content rfl
  have htag : tagOf tag.content = .ok (.opening tag) := if_neg h.last
  cases hcontent : tag.content with
  | nil =>
      rw [hcontent] at hcut htag
      exact readMarkup_tag (by decide) hcut htag
  | cons b more =>
      have hfirst := h.first b (by rw [hcontent]; rfl)
      rw [hcontent] at hcut htag
      exact readMarkup_tag hfirst hcut htag

theorem closingName_name : closingName tag.name = tag.name := by
  unfold closingName
  split
  · rfl
  · rw [Text.dropTail, List.dropWhile_eq_self_iff.2, List.reverse_reverse]
    intro hlength
    rw [isSpace_of_mem_name (List.mem_reverse.1 (List.getElem_mem hlength))]
    exact Bool.false_ne_true

theorem Written.readMarkup_closing (h : tag.Written) :
    readMarkup (slash :: (tag.name ++ greaterThan :: left)) = .ok (.closing tag.name, left) := by
  have hclosing : closingOf tag.name = .ok (.closing tag.name) := by rw [closingOf, closingName_name]
  rw [readMarkup.eq_def]
  simp only [if_neg (show slash ≠ exclamation by decide), if_true]
  exact readUpTo_of_cut (cut_of_foldlM h.name rfl) hclosing

theorem Written.reads_opening (h : tag.Written) : Reads names (lessThan :: (tag.content ++ greaterThan :: left))
    [.opening tag] (tag.name :: names) left :=
  .single (by rw [readEvent, if_pos rfl, h.readMarkup_opening]) rfl

/-- An element is read by way of the events of its text. -/
theorem Written.reads (h : tag.Written)
    (hrun : ∀ left, Reads (tag.name :: names) (encode text ++ lessThan :: left) run (tag.name :: names)
      (lessThan :: left)) :
    Reads names (tag.element text ++ left) (elementEvents tag run) names left := by
  have hclosing : Reads (tag.name :: names) (lessThan :: slash :: (tag.name ++ greaterThan :: left))
      [.closing tag.name] names left :=
    .single (by rw [readEvent, if_pos rfl, h.readMarkup_closing]) (by rw [nesting, if_pos rfl])
  have hoctets : tag.element text ++ left = lessThan :: (tag.content ++ greaterThan :: (encode text ++
      lessThan :: slash :: (tag.name ++ greaterThan :: left))) := by
    simp [element]
  rw [hoctets]
  exact h.reads_opening.trans ((hrun _).trans hclosing)

/-! ### One more attribute -/

theorem takeWhile_stop {α : Type} {p : α → Bool} {s more : List α} {x : α} (hx : p x = false) :
    (s ++ x :: more).takeWhile p = s.takeWhile p := by
  induction s with
  | nil => exact List.takeWhile_cons_of_neg (by simp [hx])
  | cons y s ih =>
      rw [List.cons_append, List.takeWhile_cons, List.takeWhile_cons, ih]

theorem dropWhile_stop {α : Type} {p : α → Bool} {s more : List α} {x : α} (hx : p x = false) :
    (s ++ x :: more).dropWhile p = s.dropWhile p ++ x :: more := by
  induction s with
  | nil => exact List.dropWhile_cons_of_neg (by simp [hx])
  | cons y s ih =>
      rw [List.cons_append, List.dropWhile_cons, List.dropWhile_cons, ih]
      split <;> rfl

@[simp] theorem name_extend : (tag.extend key quote value).name = tag.name := takeWhile_stop (by decide)

theorem Written.extend (h : tag.Written) (hkey : isXmlName key) (hquote : quote = quoteMark ∨ quote = apostrophe)
    (hvalue : quote ∉ encode value) : (tag.extend key quote value).Written where
  first b hb := by
    cases hcontent : tag.content with
    | nil =>
        rw [Tag.extend, hcontent] at hb
        cases hb
        decide
    | cons c more =>
        rw [Tag.extend, hcontent] at hb
        exact h.first b (by rwa [hcontent])
  last := by
    have hend : (tag.extend key quote value).content =
        (tag.content ++ 0x20 :: (encodeText key ++ equalsSign :: quote :: encode value)) ++ [quote] := by
      simp [Tag.extend]
    rw [hend, List.getLast?_concat]
    rcases hquote with rfl | rfl <;> decide
  content := by
    have hinside : (encode value).foldlM tagStep (some quote) = some (some quote) := by
      refine foldlM_of_fixed fun b hb => ?_
      have hne : b ≠ quote := by
        rintro rfl
        exact hvalue hb
      rw [tagStep, if_neg hne]
    have hspace : tagStep none 0x20 = some none := rfl
    have hequals : tagStep none equalsSign = some none := rfl
    have hopen : tagStep none quote = some (some quote) := by rcases hquote with rfl | rfl <;> rfl
    have hclose : tagStep (some quote) quote = some none := by rw [tagStep, if_pos rfl]
    simp only [Tag.extend, List.foldlM_cons, List.foldlM_append, List.foldlM_nil, h.content, hspace, hequals, hopen,
      hclose, hinside, foldlM_tagStep_name hkey, Option.bind_eq_bind, Option.bind_some, Option.pure_def]
  name := by
    rw [name_extend]
    exact h.name

theorem spells_attribute (hkey : isXmlName key) (hquote : quote = quoteMark ∨ quote = apostrophe)
    (hvalue : quote ∉ encode value) : (RawAttribute.mk (encodeText key) (encode value)).Spells
      (encodeText key ++ equalsSign :: quote :: (encode value ++ [quote])) := by
  obtain ⟨b, more, hoctets, _⟩ := exists_cons_name hkey
  have hgap : IsGap [] := fun _ hb => absurd hb List.not_mem_nil
  have hb : isSpace b = false := isSpace_name hkey (by simp [hoctets])
  rw [hoctets]
  exact .mk hb (fun x hx => endsKey_name hkey (by simp [hoctets, hx])) hgap hgap hquote hvalue

/-- The attributes of a tag with one more are those of the tag, and it. -/
theorem attributes_extend (hflaw : tag.attributes.flaw = none) (hkey : isXmlName key)
    (hnew : encodeText key ∉ tag.attributes.attributes.map (·.key)) (hquote : quote = quoteMark ∨ quote = apostrophe)
    (hvalue : quote ∉ encode value) : (tag.extend key quote value).attributes =
      ⟨tag.attributes.attributes ++ [⟨encodeText key, encode value⟩], none⟩ := by
  have hread : readAttributes tag.content.length [] (tag.content.dropWhile (!isSpace ·)) =
      ⟨tag.attributes.attributes, none⟩ := by rw [← hflaw]; rfl
  obtain ⟨hlist, hnodup, _⟩ := readAttributes_eq_iff.1 hread
  have hcontent : (tag.extend key quote value).content.dropWhile (!isSpace ·) =
      tag.content.dropWhile (!isSpace ·) ++
        0x20 :: (encodeText key ++ equalsSign :: quote :: (encode value ++ [quote])) := dropWhile_stop (by decide)
  rw [Tag.attributes, hcontent]
  refine readAttributes_eq_iff.2 ⟨hlist.concat (spells_attribute hkey hquote hvalue), ?_, by simp⟩
  rw [List.map_append, List.map_singleton, ← List.concat_eq_append]
  exact hnodup.concat hnew

theorem readPair_encode {pair : String × String} :
    Assembly.readPair ⟨encodeText key, encode value⟩ = .ok pair ↔
      ∃ text, unescape value = .ok text ∧ pair = (key, String.ofList text) := by
  simp only [Assembly.readPair, readText, encodeText, decode_encode, Except.mapError, bind, Except.bind, pure,
    Except.pure, String.ofList_toList]
  cases unescape value <;> simp [eq_comm]

theorem readPairs_extend {pairs : List (String × String)} (hflaw : tag.attributes.flaw = none) (hkey : isXmlName key)
    (hnew : encodeText key ∉ tag.attributes.attributes.map (·.key)) (hquote : quote = quoteMark ∨ quote = apostrophe)
    (hvalue : quote ∉ encode value) : Assembly.readPairs (tag.extend key quote value).attributes = .ok pairs ↔
      ∃ front text, Assembly.readPairs tag.attributes = .ok front ∧ unescape value = .ok text ∧
        pairs = front ++ [(key, String.ofList text)] := by
  rw [attributes_extend hflaw hkey hnew hquote hvalue]
  simp only [Assembly.readPairs_eq_ok, hflaw, true_and, List.mapM_append, List.mapM_cons, List.mapM_nil, bind_eq_ok,
    readPair_encode, pure, Except.pure, Except.ok.injEq]
  constructor
  · rintro ⟨front, hfront, _, ⟨_, ⟨text, htext, rfl⟩, _, rfl, rfl⟩, rfl⟩
    exact ⟨front, text, hfront, htext, rfl⟩
  · rintro ⟨front, text, hfront, htext, rfl⟩
    exact ⟨front, hfront, _, ⟨_, ⟨text, htext, rfl⟩, _, rfl, rfl⟩, rfl⟩

end Tag

/-! ## Sites -/

/-- A place in a document for an element that holds a text, or that has the text as one more attribute. What
stands in front of the element is read by itself, whatever the element is; what follows is any octets. -/
structure Site where
  before : Octets
  events : List Event
  names : List Octets
  reads : ∀ left, Reads [] (dropMark (dropMark (before ++ lessThan :: left))) events names (lessThan :: left)
  tag : Tag
  written : tag.Written
  readable : tag.Readable
  key : String
  isXmlName_key : isXmlName key
  key_notMem : encodeText key ∉ tag.attributes.attributes.map (·.key)
  quote : UInt8
  isQuote : quote = quoteMark ∨ quote = apostrophe
  after : Octets

/-- A text with a reference at its end. -/
def referenceText (t name : List Char) : List Char := t ++ '&' :: (name ++ [';'])

namespace Site

variable {s : Site} {t name text cs : List Char} {c : Char} {tag : Tag} {run : List Event} {names : List Octets}
  {d : Document}

/-- The document with a text in the element. -/
def inText (s : Site) (text : List Char) : Octets := s.before ++ (s.tag.element text ++ s.after)

/-- The document with a text as the value of an attribute of the element, which holds nothing. -/
def inValue (s : Site) (text : List Char) : Octets :=
  s.before ++ ((s.tag.extend s.key s.quote text).element [] ++ s.after)

/-- The number of the element: as many nodes stand in front of it. -/
def element (s : Site) : Nat :=
  ((s.events.foldlM Assembly.step .start).bind Assembly.flush).toOption.elim 0 fun c => c.document.size

/-- What is read behind the element. -/
def back (s : Site) : Reading := readFrom 0 s.names s.after

theorem element_eq {a : Assembly} (h : IsPlace s.events s.back.events a) : s.element = a.document.size := by
  obtain ⟨b, hfront, hflush⟩ := h.front
  have hboth : (s.events.foldlM Assembly.step .start).bind Assembly.flush = .ok a := by
    rw [hfront]
    exact hflush
  rw [element, hboth]
  rfl

theorem parse_eq_ok (hw : tag.Written) (hrun : ∀ left, Reads (tag.name :: s.names)
    (encode text ++ lessThan :: left) run (tag.name :: s.names) (lessThan :: left)) :
    Document.parse (s.before ++ (tag.element text ++ s.after)) = .ok d ↔
      s.back.flaw = none ∧ Builds (s.events ++ (elementEvents tag run ++ s.back.events)) d := by
  have hall : Reads [] (dropMark (dropMark (s.before ++ (tag.element text ++ s.after))))
      (s.events ++ elementEvents tag run) s.names s.after := (s.reads _).trans (hw.reads hrun)
  obtain ⟨hevents, hflaw⟩ := readFrom_total (dropMark (dropMark (s.before ++ (tag.element text ++ s.after)))).length 0
    s.names s.after
  rw [Document.parse, read, hall, Document.ofReading_eq_ok, List.append_assoc, hevents, hflaw]
  rfl

/-- The document is accepted if an element may stand there, and its tag and its text can be read. -/
theorem exists_parse (hw : tag.Written) (hrun : ∀ left, Reads (tag.name :: s.names)
    (encode text ++ lessThan :: left) run (tag.name :: s.names) (lessThan :: left))
    (htags : ∀ e ∈ run, e.isTag = false) :
    (∃ d, Document.parse (s.before ++ (tag.element text ++ s.after)) = .ok d) ↔
      tag.Readable ∧ (∃ cs, runChars? run = some cs) ∧
        s.back.flaw = none ∧ ∃ c, IsPlace s.events s.back.events c := by
  simp only [parse_eq_ok hw hrun, exists_and_left, exists_builds_element htags]
  tauto

/-! ### Texts -/

/-- A plain text: no character of it is a delimiter, and not all are white space. -/
structure IsPlain (t : List Char) : Prop where
  plain : ∀ c ∈ t, isSpecial c = false
  blank : t.all Text.isBlank = false

/-- What may stand between the ampersand and the semicolon of a reference. -/
def IsBody (name : List Char) : Prop := ∀ c ∈ name, isSpecial c = false ∧ c ≠ ';'

theorem reads_plain {x : UInt8} {after : Octets} (ht : IsPlain t) (hx : endsCharacters x = true) :
    Reads names (encode t ++ x :: after) [.characters (encode t)] names (x :: after) := by
  cases hoctets : encode t with
  | nil =>
      have hdecode : Text.Utf8.decode (encode t) = .ok t := decode_encode
      rw [hoctets] at hdecode
      have hnil : [] = t := Except.ok.inj hdecode
      have hblank := ht.blank
      rw [← hnil] at hblank
      cases hblank
  | cons b more =>
      rw [← hoctets, hoctets, List.cons_append, ← hoctets]
      exact .single (readEvent_characters ht.plain hx hoctets) rfl

theorem reads_reference {after : Octets} (ht : IsPlain t) (hname : IsBody name) :
    Reads names (encode (referenceText t name) ++ after) [.characters (encode t), .reference (encode name)]
      names after := by
  have hends : ∀ y ∈ encode name, endsReference y = false := by
    intro y hy
    rw [Bool.eq_false_iff]
    intro hends
    simp only [endsReference, Bool.or_eq_true, beq_iff_eq] at hends
    obtain ⟨hspecial, hsemicolon⟩ := hname (Char.ofNat y.toNat)
      (mem_of_mem_encode (by rcases hends with (rfl | rfl) | rfl <;> decide) hy)
    rcases hends with (rfl | rfl) | rfl
    · exact absurd hsemicolon (by decide)
    · exact absurd hspecial (by decide)
    · exact absurd hspecial (by decide)
  rw [referenceText, encode_append, List.append_assoc, encode_reference]
  exact (reads_plain ht rfl).trans (.single (readEvent_reference hends) rfl)

theorem reads_empty {after : Octets} : Reads names (encode [] ++ after) [] names after := .nil

theorem runChars?_plain : runChars? [.characters (encode t)] = some cs ↔ cs = t := by
  have hdecode : (Text.Utf8.decode (encode t)).toOption = some t := toOption_decode.2 rfl
  rw [runChars?_singleton, Event.chars?, hdecode, Option.some.injEq, eq_comm]

theorem runChars?_referenceText : runChars? [.characters (encode t), .reference (encode name)] = some cs ↔
    ∃ c, resolveReference name = some c ∧ cs = t ++ [c] := by
  have ht : (Text.Utf8.decode (encode t)).toOption = some t := toOption_decode.2 rfl
  have hname : (Text.Utf8.decode (encode name)).toOption = some name := toOption_decode.2 rfl
  rw [runChars?, runChars?_singleton, Event.chars?, Event.chars?, ht, hname]
  simp only [Option.bind_some, Option.map_map, Option.map_eq_some_iff, Function.comp_apply, eq_comm (a := cs)]

theorem quote_notMem (hquote : s.quote = quoteMark ∨ s.quote = apostrophe) (ht : IsPlain t) (hname : IsBody name) :
    s.quote ∉ encode (referenceText t name) := by
  intro hmem
  have hchar := mem_of_mem_encode (by rcases hquote with h | h <;> rw [h] <;> decide) hmem
  have hspecial : isSpecial (Char.ofNat s.quote.toNat) = true := by
    rcases hquote with h | h <;> rw [h] <;> decide
  simp only [referenceText, List.mem_append, List.mem_cons, List.not_mem_nil, or_false] at hchar
  rcases hchar with hchar | hchar | hchar | hchar
  · exact absurd hspecial (by rw [ht.plain _ hchar]; decide)
  · rcases hquote with h | h <;> rw [h] at hchar <;> exact absurd hchar (by decide)
  · exact absurd hspecial (by rw [(hname _ hchar).1]; decide)
  · rcases hquote with h | h <;> rw [h] at hchar <;> exact absurd hchar (by decide)

/-! ### Acceptance -/

/-- An element may stand at the site. -/
def Admits (s : Site) : Prop := s.back.flaw = none ∧ ∃ c, IsPlace s.events s.back.events c

theorem exists_parse_inText_plain (ht : IsPlain t) :
    (∃ d, Document.parse (s.inText t) = .ok d) ↔ s.Admits := by
  rw [inText, exists_parse s.written (fun _ => reads_plain ht rfl) (by simp [Event.isTag])]
  simp only [runChars?_plain, exists_eq, s.readable, true_and, Admits]

theorem exists_parse_inText (ht : IsPlain t) (hname : IsBody name) :
    (∃ d, Document.parse (s.inText (referenceText t name)) = .ok d) ↔
      (∃ c, Denotes name c ∨ DenotesInText name c) ∧ s.Admits := by
  rw [inText, exists_parse s.written (fun _ => reads_reference ht hname) (by simp [Event.isTag])]
  simp only [runChars?_referenceText, resolveReference_eq_some, s.readable, true_and, Admits]
  refine and_congr_left fun _ => ⟨?_, ?_⟩
  · rintro ⟨_, c, hc, _⟩
    exact ⟨c, hc⟩
  · rintro ⟨c, hc⟩
    exact ⟨_, c, hc, rfl⟩

theorem flaw_eq_none (s : Site) : s.tag.attributes.flaw = none := by
  obtain ⟨_, hpairs⟩ := (Tag.readable_iff.1 s.readable).2
  exact (Assembly.readPairs_eq_ok.1 hpairs).1

theorem unescape_referenceText (ht : IsPlain t) (hname : IsBody name) :
    unescape (referenceText t name) = .ok text ↔ ∃ c, Denotes name c ∧ text = t ++ [c] := by
  refine unescape_reference (fun c hc => ?_) fun c hc => ?_
  · rintro rfl
    exact absurd (ht.plain _ hc) (by decide)
  · obtain ⟨hspecial, hsemicolon⟩ := hname c hc
    rw [endsName, Bool.or_eq_false_iff, beq_eq_false_iff_ne, beq_eq_false_iff_ne]
    refine ⟨?_, hsemicolon⟩
    rintro rfl
    exact absurd hspecial (by decide)

/-- The tag with the value can be read if the value can. -/
theorem readable_extend (hvalue : s.quote ∉ encode text) :
    (s.tag.extend s.key s.quote text).Readable ↔ ∃ cs, unescape text = .ok cs := by
  obtain ⟨hname, pairs, hpairs⟩ := Tag.readable_iff.1 s.readable
  rw [Tag.readable_iff, Tag.name_extend]
  simp only [Tag.readPairs_extend s.flaw_eq_none s.isXmlName_key s.key_notMem s.isQuote hvalue, hname, true_and]
  constructor
  · rintro ⟨_, _, cs, _, hcs, _⟩
    exact ⟨cs, hcs⟩
  · rintro ⟨cs, hcs⟩
    exact ⟨_, pairs, cs, hpairs, hcs, rfl⟩

theorem exists_parse_inValue (ht : IsPlain t) (hname : IsBody name) :
    (∃ d, Document.parse (s.inValue (referenceText t name)) = .ok d) ↔ (∃ c, Denotes name c) ∧ s.Admits := by
  have hvalue := quote_notMem s.isQuote ht hname
  have hread : (∃ cs, unescape (referenceText t name) = .ok cs) ↔ ∃ c, Denotes name c := by
    simp only [unescape_referenceText ht hname]
    constructor
    · rintro ⟨_, c, hc, _⟩
      exact ⟨c, hc⟩
    · rintro ⟨c, hc⟩
      exact ⟨_, c, hc, rfl⟩
  rw [inValue, exists_parse (s.written.extend s.isXmlName_key s.isQuote hvalue) (fun _ => reads_empty) (by simp),
    readable_extend hvalue, hread]
  simp [runChars?, Admits]

/-! ### What is read -/

/-- What is read of the element: its name, its text and its attributes. -/
theorem element_of_parse {key : List Char} {pairs : List (String × String)} (hw : tag.Written)
    (hrun : ∀ left, Reads (tag.name :: s.names) (encode text ++ lessThan :: left) run (tag.name :: s.names)
      (lessThan :: left))
    (hkey : readText tag.name = .ok key) (hpairs : Assembly.readPairs tag.attributes = .ok pairs)
    (hcs : runChars? run = some cs) (hkept : Kept cs) (hadmits : s.Admits)
    (h : Document.parse (s.before ++ (tag.element text ++ s.after)) = .ok d) :
    (d.node s.element).content = .element (String.ofList key) ∧ d.textContent s.element = String.ofList cs ∧
      ∀ pair ∈ pairs, ∃ n ∈ (d.node s.element).attributes, (d.node n).content = .attr pair.1 pair.2 := by
  obtain ⟨_, a, hplace⟩ := hadmits
  have hbuilds := ((parse_eq_ok hw hrun).1 h).2
  rw [element_eq hplace]
  exact (holds_of_builds_element hplace hkey hpairs hcs hkept hbuilds).element

theorem kept_concat (ht : IsPlain t) : Kept (t ++ [c]) :=
  Or.inr (by rw [List.all_append, ht.blank, Bool.false_and])

/-- The element with a text that ends with a reference. -/
theorem element_inText {key : List Char} {pairs : List (String × String)} (ht : IsPlain t) (hname : IsBody name)
    (hc : Denotes name c) (hkey : readText s.tag.name = .ok key)
    (hpairs : Assembly.readPairs s.tag.attributes = .ok pairs) (hadmits : s.Admits)
    (h : Document.parse (s.inText (referenceText t name)) = .ok d) :
    (d.node s.element).content = .element (String.ofList key) ∧
      d.textContent s.element = String.ofList (t ++ [c]) := by
  have hrun : runChars? [.characters (encode t), .reference (encode name)] = some (t ++ [c]) :=
    runChars?_referenceText.2 ⟨c, hc.resolveReference, rfl⟩
  obtain ⟨hcontent, htext, _⟩ := element_of_parse s.written (fun _ => reads_reference ht hname) hkey hpairs hrun
    (kept_concat ht) hadmits h
  exact ⟨hcontent, htext⟩

/-- The element with a value that ends with a reference. -/
theorem element_inValue {key : List Char} {pairs : List (String × String)} (ht : IsPlain t) (hname : IsBody name)
    (hc : Denotes name c) (hkey : readText s.tag.name = .ok key)
    (hpairs : Assembly.readPairs s.tag.attributes = .ok pairs) (hadmits : s.Admits)
    (h : Document.parse (s.inValue (referenceText t name)) = .ok d) :
    (d.node s.element).content = .element (String.ofList key) ∧
      ∃ n ∈ (d.node s.element).attributes, (d.node n).content = .attr s.key (String.ofList (t ++ [c])) := by
  have hvalue := quote_notMem s.isQuote ht hname
  have hunescape := (unescape_referenceText ht hname).2 ⟨c, hc, rfl⟩
  have hextended := (Tag.readPairs_extend s.flaw_eq_none s.isXmlName_key s.key_notMem s.isQuote hvalue).2
    ⟨pairs, t ++ [c], hpairs, hunescape, rfl⟩
  have hwritten := s.written.extend s.isXmlName_key s.isQuote hvalue
  obtain ⟨hcontent, _, hattributes⟩ := element_of_parse hwritten (fun _ => reads_empty)
    (by rw [Tag.name_extend, hkey]) hextended rfl (Or.inl rfl) hadmits h
  exact ⟨hcontent, hattributes _ (List.mem_append_right _ (List.mem_singleton.2 rfl))⟩

/-- A text with a reference means the same in an element and as a value: the one document is accepted exactly if
the other is, and the text of the element is the value of the attribute. This holds for all references but those
that character data take alone: a number with a plus sign, or zero. With these the value is rejected, and the
text is read as if there were no reference to resolve. -/
theorem parse_reference (s : Site) (ht : IsPlain t) (hname : IsBody name) :
    ((∃ d, Document.parse (s.inValue (referenceText t name)) = .ok d) ↔
      (∃ d, Document.parse (s.inText (referenceText t name)) = .ok d) ∧ ¬∃ c, DenotesInText name c) ∧
    ((∃ c, DenotesInText name c) → ((∃ d, Document.parse (s.inText (referenceText t name)) = .ok d) ↔
      ∃ d, Document.parse (s.inText t) = .ok d)) ∧
    ∀ d e, Document.parse (s.inText (referenceText t name)) = .ok d →
      Document.parse (s.inValue (referenceText t name)) = .ok e →
        (d.node s.element).isElement = true ∧ (e.node s.element).content = (d.node s.element).content ∧
          ∃ n ∈ (e.node s.element).attributes, (e.node n).content = .attr s.key (d.textContent s.element) := by
  rw [exists_parse_inValue ht hname, exists_parse_inText ht hname, exists_parse_inText_plain ht]
  refine ⟨⟨?_, ?_⟩, ?_, fun d e hd he => ?_⟩
  · rintro ⟨⟨c, hc⟩, hadmits⟩
    exact ⟨⟨⟨c, Or.inl hc⟩, hadmits⟩, fun ⟨_, hb⟩ => hb.not_denotes hc⟩
  · rintro ⟨⟨⟨c, hc⟩, hadmits⟩, hnone⟩
    exact ⟨⟨c, hc.resolve_right fun hb => hnone ⟨c, hb⟩⟩, hadmits⟩
  · rintro ⟨c, hc⟩
    exact ⟨fun h => h.2, fun h => ⟨⟨c, Or.inr hc⟩, h⟩⟩
  · obtain ⟨⟨c, hc⟩, hadmits⟩ := (exists_parse_inValue ht hname).1 ⟨e, he⟩
    obtain ⟨⟨key, hkey⟩, pairs, hpairs⟩ := Tag.readable_iff.1 s.readable
    obtain ⟨hdContent, hdText⟩ := element_inText ht hname hc hkey hpairs hadmits hd
    obtain ⟨heContent, heAttributes⟩ := element_inValue ht hname hc hkey hpairs hadmits he
    refine ⟨by rw [Node.isElement, hdContent], heContent.trans hdContent.symm, ?_⟩
    rw [hdText]
    exact heAttributes

/-- A line of an order, with an attribute of its own. -/
def orderLine : Site where
  before := encodeText "<o>"
  events := [.opening ⟨encodeText "o"⟩]
  names := [encodeText "o"]
  reads left :=
    have hwritten : (Tag.mk (encodeText "o")).Written :=
      ⟨by decide +kernel, by decide +kernel, by decide +kernel, by decide +kernel⟩
    hwritten.reads_opening
  tag := ⟨encodeText "l n='1'"⟩
  written := ⟨by decide +kernel, by decide +kernel, by decide +kernel, by decide +kernel⟩
  readable := Tag.readable_iff.2 ⟨⟨['l'], by decide +kernel⟩, [("n", "1")], by decide +kernel⟩
  key := "k"
  isXmlName_key := by decide +kernel
  key_notMem := by decide +kernel
  quote := apostrophe
  isQuote := Or.inr rfl
  after := encodeText "</o>"

theorem parse_reference_orderLine : IsPlain ['z'] ∧ IsBody "#65".toList ∧
    orderLine.inText (referenceText ['z'] "#65".toList) = encodeText "<o><l n='1'>z&#65;</l></o>" ∧
    orderLine.inValue (referenceText ['z'] "#65".toList) = encodeText "<o><l n='1' k='z&#65;'></l></o>" ∧
    ((∃ d, Document.parse (orderLine.inValue (referenceText ['z'] "#65".toList)) = .ok d) ↔
      (∃ d, Document.parse (orderLine.inText (referenceText ['z'] "#65".toList)) = .ok d) ∧
        ¬∃ c, DenotesInText "#65".toList c) := by
  have hplain : IsPlain ['z'] := ⟨by simp [isSpecial], by decide⟩
  have hbody : IsBody "#65".toList := by
    have hall : "#65".toList.all (fun c => !isSpecial c && c != ';') = true := by decide
    simpa [IsBody] using List.all_eq_true.1 hall
  exact ⟨hplain, hbody, by decide, by decide, (parse_reference orderLine hplain hbody).1⟩

/-- The character NUL may be referred to in a text, but not in the same text as a value. -/
theorem parse_reference_null :
    (∃ d, Document.parse (encodeText "<a>z&#0;</a>") = .ok d) ∧
      ∀ d, Document.parse (encodeText "<a b=\"z&#0;\"></a>") ≠ .ok d := by
  have htext : (Document.parse (encodeText "<a>z&#0;</a>")).toOption.isSome = true := by decide +kernel
  have hvalue : (Document.parse (encodeText "<a b=\"z&#0;\"></a>")).toOption = none := by decide +kernel
  refine ⟨?_, fun d hd => ?_⟩
  · obtain ⟨d, hd⟩ := Option.isSome_iff_exists.1 htext
    exact ⟨d, toOption_eq_some.1 hd⟩
  · rw [hd] at hvalue
    cases hvalue

end Site

end Interchange.Xml
