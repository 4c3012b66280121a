import Mathlib.Data.List.Nodup
import Mathlib.Data.List.TakeWhile
import Interchange.Proofs.Canonical
import Interchange.Proofs.Characters
import Interchange.Proofs.Escaping

/-!
# Tags that are written are read back

A tag ends where its writing ends (`foldlM_tagStep`), and its attributes are the ones that were written
(`readAttributes_pairs`), so that it opens its element again (`openElement_openingChars`).
-/

namespace Interchange.Xml

open Text.Utf8 (Octets encode encodeText encode_append encodeText_inj decode_encode)

variable {name : String} {attributes : List (String × String)} {b : UInt8} {rest : Octets}

/-! ## Where tags end -/

theorem cut_append {σ : Type} {step : σ → UInt8 → Option σ} {state next : σ} {s more : Octets}
    (h : s.foldlM step state = some next) :
    cut step state (s ++ more) = (cut step next more).map fun (inside, after) => (s ++ inside, after) := by
  induction s generalizing state with
  | nil =>
      cases h
      rw [List.nil_append]
      cases cut step next more <;> rfl
  | cons b s ih =>
      rw [List.foldlM_cons] at h
      cases hb : step state b with
      | none => simp [hb] at h
      | some state' =>
          simp only [hb, Option.bind_eq_bind, Option.bind_some] at h
          simp only [List.cons_append, cut, hb, ih h]
          cases cut step next more <;> rfl

/-- What is read through without a stop ends in front of the octet that stops. -/
theorem cut_of_foldlM {σ : Type} {step : σ → UInt8 → Option σ} {state next : σ} {s after : Octets}
    (h : s.foldlM step state = some next) (hb : step next b = none) :
    cut step state (s ++ b :: after) = some (s, after) := by
  rw [cut_append h, cut, hb]
  simp

theorem foldlM_of_fixed {σ : Type} {step : σ → UInt8 → Option σ} {state : σ} {s : Octets}
    (h : ∀ b ∈ s, step state b = some state) : s.foldlM step state = some state := by
  induction s with
  | nil => rfl
  | cons b s ih =>
      rw [List.foldlM_cons, h b List.mem_cons_self]
      exact ih fun c hc => h c (List.mem_cons_of_mem b hc)

theorem foldlM_tagStep_name (h : isXmlName name) :
    (encodeText name).foldlM tagStep none = some none := by
  refine foldlM_of_fixed fun b hb => ?_
  have hne : ∀ x : UInt8, x.toNat < 0x80 → isNameChar (Char.ofNat x.toNat) = false → b ≠ x := by
    rintro x hx hchar rfl
    exact notMem_name h hx hchar hb
  simp only [tagStep]
  rw [if_neg (hne greaterThan (by decide) (by decide)), if_neg]
  simp only [Bool.or_eq_true, decide_eq_true_eq, not_or]
  exact ⟨hne quoteMark (by decide) (by decide), hne apostrophe (by decide) (by decide)⟩

theorem encode_pairChars {a : String × String} : encode (pairChars a) =
    0x20 :: (encodeText a.1 ++ equalsSign :: quoteMark :: (encode (escape a.2.toList) ++ [quoteMark])) := by
  have hspace : Text.Utf8.encodeChar ' ' = [0x20] := rfl
  have hequals : Text.Utf8.encodeChar '=' = [equalsSign] := rfl
  have hquote : Text.Utf8.encodeChar '"' = [quoteMark] := rfl
  simp [pairChars, encode_append, hspace, hequals, hquote, encodeText]

theorem encode_pairs : encode (attributes.flatMap pairChars) =
    attributes.flatMap fun a => encode (pairChars a) := by
  induction attributes with
  | nil => rfl
  | cons a attributes ih => rw [List.flatMap_cons, List.flatMap_cons, encode_append, ih]

theorem foldlM_tagStep_pair {a : String × String} (h : isXmlName a.1) :
    (encode (pairChars a)).foldlM tagStep none = some none := by
  have hvalue : (encode (escape a.2.toList)).foldlM tagStep (some quoteMark) = some (some quoteMark) := by
    refine foldlM_of_fixed fun b hb => ?_
    have hne : b ≠ quoteMark := by
      rintro rfl
      exact quoteMark_notMem hb
    rw [tagStep, if_neg hne]
  have hspace : tagStep none 0x20 = some none := rfl
  have hequals : tagStep none equalsSign = some none := rfl
  have hopen : tagStep none quoteMark = some (some quoteMark) := rfl
  have hclose : tagStep (some quoteMark) quoteMark = some none := rfl
  simp only [encode_pairChars, List.foldlM_cons, List.foldlM_append, List.foldlM_nil, hspace, hequals, hopen,
    hclose, hvalue, foldlM_tagStep_name h, Option.bind_eq_bind, Option.bind_some, Option.pure_def]

/-- No octet of a tag ends it. -/
theorem foldlM_tagStep (hname : isXmlName name) (hattributes : ∀ a ∈ attributes, isXmlName a.1) :
    (encode (openingChars name attributes)).foldlM tagStep none = some none := by
  have hpairs : (encode (attributes.flatMap pairChars)).foldlM tagStep none = some none := by
    rw [encode_pairs]
    induction attributes with
    | nil => rfl
    | cons a attributes ih =>
        rw [List.flatMap_cons, List.foldlM_append, foldlM_tagStep_pair (hattributes a List.mem_cons_self)]
        exact ih fun c hc => hattributes c (List.mem_cons_of_mem a hc)
  have hfront : (encode name.toList).foldlM tagStep none = some none := foldlM_tagStep_name hname
  rw [openingChars, encode_append, List.foldlM_append, hfront]
  exact hpairs

/-! ## The octets of an element -/

section Octets

variable {chars : List Char} {left : Octets}

theorem encode_elementChars_empty : encode (elementChars name attributes true chars) ++ left =
    lessThan :: (encode (openingChars name attributes) ++ slash :: greaterThan :: left) := by
  have hfirst : Text.Utf8.encodeChar '<' = [lessThan] := rfl
  have hend : encode ['/', '>'] = [slash, greaterThan] := rfl
  simp [elementChars, encode_append, hfirst, hend]

theorem encode_elementChars : encode (elementChars name attributes false chars) ++ left =
    lessThan :: (encode (openingChars name attributes) ++ greaterThan :: (encode chars ++
      lessThan :: slash :: (encodeText name ++ greaterThan :: left))) := by
  have hless : Text.Utf8.encodeChar '<' = [lessThan] := rfl
  have hgreater : Text.Utf8.encodeChar '>' = [greaterThan] := rfl
  have hslash : Text.Utf8.encodeChar '/' = [slash] := rfl
  simp [elementChars, encode_append, encodeText, hless, hgreater, hslash]

end Octets

/-! ## The attributes of a tag -/

/-- An attribute as it is written. -/
def rawPair (a : String × String) : RawAttribute := ⟨encodeText a.1, encode (escape a.2.toList)⟩

theorem readAttributes_cons {total : Nat} {seen : List (Octets × Nat)} {s after : Octets}
    {item : RawAttribute} (hs : s.dropWhile isSpace = b :: rest)
    (h : readAttribute total seen b rest = .ok (item, after)) :
    ∃ position, readAttributes total seen s =
      ⟨item :: (readAttributes total (seen ++ [(item.key, position)]) after).attributes,
        (readAttributes total (seen ++ [(item.key, position)]) after).flaw⟩ := by
  refine ⟨total - (rest.length + 1), ?_⟩
  rw [readAttributes.eq_def]
  split
  · rename_i hnil
    rw [hs] at hnil
    cases hnil
  · rename_i b' rest' hcons
    rw [hs, List.cons.injEq] at hcons
    obtain ⟨rfl, rfl⟩ := hcons
    split
    · rename_i flaw hflaw
      rw [h] at hflaw
      cases hflaw
    · rename_i item' after' hok
      rw [h, Except.ok.injEq, Prod.mk.injEq] at hok
      obtain ⟨rfl, rfl⟩ := hok
      rfl

theorem readAttribute_pair {total : Nat} {seen : List (Octets × Nat)} {a : String × String} {after : Octets}
    (hname : isXmlName a.1) (hnew : encodeText a.1 ∉ seen.map (·.1)) (hb : encodeText a.1 = b :: rest) :
    readAttribute total seen b (rest ++ equalsSign :: quoteMark ::
      (encode (escape a.2.toList) ++ quoteMark :: after)) = .ok (rawPair a, after) := by
  have hrun : ∀ x ∈ rest, endsKey x = false := fun x hx => endsKey_name hname (by simp [hb, hx])
  have htake : ∀ more, (rest ++ equalsSign :: more).takeWhile (!endsKey ·) = rest := fun _ =>
    takeWhile_run hrun rfl
  have hdrop : ∀ more, (rest ++ equalsSign :: more).dropWhile (!endsKey ·) = equalsSign :: more := fun _ =>
    dropWhile_run hrun rfl
  have hequals : ∀ more, readEquals total (equalsSign :: more) = .ok more := by
    intro more
    rw [readEquals, List.dropWhile_cons_of_neg (by decide)]
    exact if_pos rfl
  have hfind : seen.find? (·.1 == b :: rest) = none := by
    rw [List.find?_eq_none]
    intro entry hentry hkey
    exact hnew (List.mem_map.2 ⟨entry, hentry, by rw [hb]; exact eq_of_beq hkey⟩)
  have hvalue : readValue total (quoteMark :: (encode (escape a.2.toList) ++ quoteMark :: after)) =
      .ok (encode (escape a.2.toList), after) := by
    have hquote : ∀ x ∈ encode (escape a.2.toList), (x == quoteMark) = false := by
      intro x hx
      rw [beq_eq_false_iff_ne]
      rintro rfl
      exact quoteMark_notMem hx
    have htakeValue : (encode (escape a.2.toList) ++ quoteMark :: after).takeWhile (· != quoteMark) =
        encode (escape a.2.toList) := takeWhile_run hquote rfl
    have hdropValue : (encode (escape a.2.toList) ++ quoteMark :: after).dropWhile (· != quoteMark) =
        quoteMark :: after := dropWhile_run hquote rfl
    rw [readValue, List.dropWhile_cons_of_neg (by decide)]
    simp only [decide_true, Bool.true_or, if_true, hdropValue, htakeValue]
  simp only [readAttribute, htake, hdrop, hequals, hfind, hvalue, bind, Except.bind, pure, Except.pure, rawPair,
    hb]

/-- Attributes of different names are read back. -/
theorem readAttributes_pairs {total : Nat} {seen : List (Octets × Nat)}
    (hnames : ∀ a ∈ attributes, isXmlName a.1) (hnodup : (attributes.map (·.1)).Nodup)
    (hnew : ∀ a ∈ attributes, encodeText a.1 ∉ seen.map (·.1)) :
    readAttributes total seen (encode (attributes.flatMap pairChars)) = ⟨attributes.map rawPair, none⟩ := by
  -- what was read stands in `seen`, and has other names than what follows
  induction attributes generalizing seen with
  | nil =>
      rw [List.flatMap_nil, readAttributes.eq_def]
      rfl
  | cons a attributes ih =>
      obtain ⟨b, rest, hb, -⟩ := exists_cons_name (hnames a List.mem_cons_self)
      rw [List.map_cons, List.nodup_cons] at hnodup
      have hread : readAttribute total seen b (rest ++ equalsSign :: quoteMark ::
          (encode (escape a.2.toList) ++ quoteMark :: encode (attributes.flatMap pairChars))) = _ :=
        readAttribute_pair (hnames a List.mem_cons_self) (hnew a List.mem_cons_self) hb
      have hspace : (encode ((a :: attributes).flatMap pairChars)).dropWhile isSpace =
          b :: (rest ++ equalsSign :: quoteMark :: (encode (escape a.2.toList) ++ quoteMark ::
            encode (attributes.flatMap pairChars))) := by
        have hfirst : isSpace b = false := isSpace_name (hnames a List.mem_cons_self) (by simp [hb])
        rw [List.flatMap_cons, encode_append, encode_pairChars, hb, List.cons_append,
          List.dropWhile_cons_of_pos (by decide), List.cons_append, List.cons_append,
          List.dropWhile_cons_of_neg (by simp [hfirst])]
        simp only [List.append_assoc, List.cons_append, List.nil_append]
      obtain ⟨position, hcons⟩ := readAttributes_cons hspace hread
      rw [hcons, ih (fun c hc => hnames c (List.mem_cons_of_mem a hc)) hnodup.2, List.map_cons]
      intro c hc hmem
      rw [List.map_append, List.mem_append] at hmem
      rcases hmem with hmem | hmem
      · exact hnew c (List.mem_cons_of_mem a hc) hmem
      · -- the names differ, and so do their octets
        have hkey : encodeText c.1 = encodeText a.1 := by simpa [rawPair] using hmem
        exact hnodup.1 (List.mem_map.2 ⟨c, hc, encodeText_inj.1 hkey⟩)

/-! ## Whole tags -/

namespace Tag

theorem isSpace_of_mem_name {tag : Tag} {x : UInt8} (hx : x ∈ tag.name) : isSpace x = false := by
  simpa using List.mem_takeWhile_imp hx

/-- Behind a name come the attributes, after a space. -/
theorem encode_openingChars : encode (openingChars name attributes) =
    encodeText name ++ encode (attributes.flatMap pairChars) := encode_append _ _

theorem isSpace_head_pairs (h : encode (attributes.flatMap pairChars) = b :: rest) : isSpace b = true := by
  cases attributes with
  | nil => cases h
  | cons a attributes =>
      rw [List.flatMap_cons, encode_append, encode_pairChars, List.cons_append, List.cons.injEq] at h
      rw [← h.1]
      rfl

theorem name_openingChars (h : isXmlName name) :
    (Tag.mk (encode (openingChars name attributes))).name = encodeText name := by
  rw [Tag.name, encode_openingChars]
  have hrun : ∀ b ∈ encodeText name, isSpace b = false := fun b hb => isSpace_name h hb
  cases hoctets : encode (attributes.flatMap pairChars) with
  | nil =>
      rw [List.append_nil, List.takeWhile_eq_self_iff]
      simpa using hrun
  | cons b rest => exact takeWhile_run hrun (isSpace_head_pairs hoctets)

theorem attributes_openingChars (h : isXmlName name) (hnames : ∀ a ∈ attributes, isXmlName a.1)
    (hnodup : (attributes.map (·.1)).Nodup) :
    (Tag.mk (encode (openingChars name attributes))).attributes = ⟨attributes.map rawPair, none⟩ := by
  have hrun : ∀ b ∈ encodeText name, isSpace b = false := fun b hb => isSpace_name h hb
  have hdrop : (encodeText name ++ encode (attributes.flatMap pairChars)).dropWhile (!isSpace ·) =
      encode (attributes.flatMap pairChars) := by
    cases hoctets : encode (attributes.flatMap pairChars) with
    | nil =>
        rw [List.append_nil, List.dropWhile_eq_nil_iff]
        simpa using hrun
    | cons b rest => exact dropWhile_run hrun (isSpace_head_pairs hoctets)
  rw [Tag.attributes, encode_openingChars, hdrop]
  exact readAttributes_pairs hnames hnodup (by simp)

/-- The last octet in a tag is no slash. -/
theorem getLast?_openingChars (h : isXmlName name) :
    (encode (openingChars name attributes)).getLast? ≠ some slash := by
  rw [encode_openingChars]
  rcases List.eq_nil_or_concat attributes with rfl | ⟨front, a, rfl⟩
  · intro hlast
    rw [List.flatMap_nil, Text.Utf8.encode_nil, List.append_nil] at hlast
    exact notMem_name h (by decide) (by decide) (List.mem_of_getLast? hlast)
  · have hend : encodeText name ++ encode ((front.concat a).flatMap pairChars) =
        encodeText name ++ (encode (front.flatMap pairChars) ++ 0x20 :: (encodeText a.1 ++
          equalsSign :: quoteMark :: encode (escape a.2.toList))) ++ [quoteMark] := by
      rw [List.concat_eq_append, List.flatMap_append, encode_append, List.flatMap_singleton,
        encode_pairChars]
      simp only [List.append_assoc, List.cons_append]
    rw [hend, List.getLast?_concat]
    decide

end Tag

section Elements

open Assembly (readPair readPairs)

variable {a c : Assembly}

theorem readPairs_rawPair : readPairs ⟨attributes.map rawPair, none⟩ = .ok attributes := by
  have hpair : ∀ p, readPair (rawPair p) = .ok p := by
    intro p
    simp only [readPair, rawPair, readText, encodeText, decode_encode, Except.mapError, unescape_escape, bind,
      Except.bind, pure, Except.pure, String.ofList_toList]
  have hpairs : (attributes.map rawPair).mapM readPair = .ok attributes := by
    induction attributes with
    | nil => rfl
    | cons p attributes ih =>
        rw [List.map_cons, List.mapM_cons, hpair, ih]
        rfl
  exact Assembly.readPairs_eq_ok.2 ⟨rfl, hpairs⟩

/-- The element of a tag that was written is opened with its attributes. -/
theorem openElement_openingChars {enter : Bool} (hflush : a.flush = .ok c)
    (hroot : c.opened = [] → (c.document.node Document.rootId).children = []) (hname : isXmlName name)
    (hnames : ∀ p ∈ attributes, isXmlName p.1) (hnodup : (attributes.map (·.1)).Nodup) :
    a.openElement enter ⟨encode (openingChars name attributes)⟩ = .ok (c.addElement enter name attributes) := by
  have hread : readText (Tag.mk (encode (openingChars name attributes))).name = .ok name.toList := by
    rw [Tag.name_openingChars hname, readText_eq_ok, encodeText]
  have hpairs : readPairs (Tag.mk (encode (openingChars name attributes))).attributes = .ok attributes := by
    rw [Tag.attributes_openingChars hname hnames hnodup, readPairs_rawPair]
  refine Assembly.openElement_iff.2 ⟨c, name.toList, attributes, hflush, hroot, hread, hpairs, ?_⟩
  rw [String.ofList_toList]

theorem closeElement_of_opened {i : Nat} {outer : List Nat} (hflush : a.flush = .ok c)
    (hopened : c.opened = i :: outer) (hname : (c.document.node i).name = name) :
    a.closeElement (encodeText name) = .ok c.leave := by
  have hsame : (c.document.node i).name = String.ofList name.toList := by rw [hname, String.ofList_toList]
  exact Assembly.closeElement_iff.2 ⟨c, i, outer, name.toList, hflush, hopened, rfl, hsame, rfl⟩

theorem readUpTo_of_cut {σ : Type} {step : σ → UInt8 → Option σ} {state : σ} {unclosed : Flaw}
    {eventOf : Octets → Except Flaw Event} {s inside after : Octets} {e : Event}
    (hcut : cut step state s = some (inside, after)) (he : eventOf inside = .ok e) :
    readUpTo step state unclosed eventOf s = .ok (e, after) := by
  rw [readUpTo, hcut]
  simp only [he]

/-- Markup that begins like a name is a tag. -/
theorem readMarkup_tag {b : UInt8} {more inside after : Octets} {e : Event}
    (hfirst : b ≠ exclamation ∧ b ≠ slash ∧ b ≠ questionMark)
    (hcut : cut tagStep none (b :: more) = some (inside, after)) (he : tagOf inside = .ok e) :
    readMarkup (b :: more) = .ok (e, after) := by
  rw [readMarkup.eq_def]
  simp only [if_neg hfirst.1, if_neg hfirst.2.1, if_neg hfirst.2.2]
  exact readUpTo_of_cut hcut he

theorem readMarkup_opening (hname : isXmlName name) (hnames : ∀ p ∈ attributes, isXmlName p.1) :
    readMarkup (encode (openingChars name attributes) ++ greaterThan :: rest) =
      .ok (.opening ⟨encode (openingChars name attributes)⟩, rest) := by
  obtain ⟨b, more, hoctets, hfirst⟩ := exists_cons_name hname
  have hcut : cut tagStep none (encode (openingChars name attributes) ++ greaterThan :: rest) =
      some (encode (openingChars name attributes), rest) :=
    cut_of_foldlM (foldlM_tagStep hname hnames) rfl
  have htag : tagOf (encode (openingChars name attributes)) =
      .ok (.opening ⟨encode (openingChars name attributes)⟩) :=
    if_neg (Tag.getLast?_openingChars hname)
  have hcons : encode (openingChars name attributes) ++ greaterThan :: rest =
      b :: (more ++ (encode (attributes.flatMap pairChars) ++ greaterThan :: rest)) := by
    rw [Tag.encode_openingChars, hoctets, List.append_assoc, List.cons_append]
  rw [hcons] at hcut ⊢
  exact readMarkup_tag hfirst hcut htag

theorem readMarkup_empty (hname : isXmlName name) (hnames : ∀ p ∈ attributes, isXmlName p.1) :
    readMarkup (encode (openingChars name attributes) ++ slash :: greaterThan :: rest) =
      .ok (.emptyElement ⟨encode (openingChars name attributes)⟩, rest) := by
  obtain ⟨b, more, hoctets, hfirst⟩ := exists_cons_name hname
  have hslash : (encode (openingChars name attributes) ++ [slash]).foldlM tagStep none = some none := by
    rw [List.foldlM_append, foldlM_tagStep hname hnames]
    rfl
  have hcut : cut tagStep none (encode (openingChars name attributes) ++ [slash] ++ greaterThan :: rest) =
      some (encode (openingChars name attributes) ++ [slash], rest) :=
    cut_of_foldlM hslash rfl
  have htag : tagOf (encode (openingChars name attributes) ++ [slash]) =
      .ok (.emptyElement ⟨encode (openingChars name attributes)⟩) := by
    rw [tagOf, List.getLast?_concat, if_pos rfl, List.dropLast_concat]
  have hcons : encode (openingChars name attributes) ++ slash :: greaterThan :: rest =
      b :: (more ++ (encode (attributes.flatMap pairChars) ++ slash :: greaterThan :: rest)) := by
    rw [Tag.encode_openingChars, hoctets, List.append_assoc, List.cons_append]
  rw [List.append_assoc, List.singleton_append, hcons] at hcut
  rw [hcons]
  exact readMarkup_tag hfirst hcut htag

theorem readMarkup_closing (hname : isXmlName name) :
    readMarkup (slash :: (encodeText name ++ greaterThan :: rest)) =
      .ok (.closing (encodeText name), rest) := by
  have hclosing : closingOf (encodeText name) = .ok (.closing (encodeText name)) := by
    have hspace : ∀ b ∈ encodeText name, isSpace b = false := fun b hb => isSpace_name hname hb
    obtain ⟨b, more, hoctets, -⟩ := exists_cons_name hname
    have hall : (encodeText name).all isSpace = false := by
      rw [hoctets, List.all_cons, hspace b (by simp [hoctets]), Bool.false_and]
    have hdrop : Text.dropTail isSpace (encodeText name) = encodeText name := by
      rw [Text.dropTail, List.dropWhile_eq_self_iff.2, List.reverse_reverse]
      intro hlength
      rw [hspace _ (List.mem_reverse.1 (List.getElem_mem hlength))]
      exact Bool.false_ne_true
    rw [closingOf, closingName, hall, hdrop]
    rfl
  rw [readMarkup.eq_def]
  simp only [if_neg (show slash ≠ exclamation by decide), if_true]
  exact readUpTo_of_cut (cut_of_foldlM (foldlM_tagStep_name hname) rfl) hclosing

end Elements

end Interchange.Xml
