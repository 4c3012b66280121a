import Interchange.Proofs.Nesting
import Interchange.Proofs.Tags

/-!
# Lists of attributes

What stands behind the name of a tag is read without a flaw exactly if it is a list of attributes by the grammar
and no two of them have the same key (`readAttributes_eq_iff`).
-/

namespace Interchange.Xml

open Text.Utf8 (Octets)

/-! ## The grammar -/

/-- White space, or nothing. -/
def IsGap (s : Octets) : Prop := ∀ b ∈ s, isSpace b = true

/-- An attribute as it is written: a key, an equals sign and a value in quotes of one kind, with white space
around the equals sign or none. The first octet of a key may be any but white space. -/
inductive RawAttribute.Spells : RawAttribute → Octets → Prop
  | mk {b q : UInt8} {key before behind value : Octets} (hb : isSpace b = false)
      (hkey : ∀ x ∈ key, endsKey x = false) (hbefore : IsGap before) (hbehind : IsGap behind)
      (hq : q = quoteMark ∨ q = apostrophe) (hvalue : q ∉ value) :
      Spells ⟨b :: key, value⟩ (b :: (key ++ (before ++ equalsSign :: (behind ++ q :: (value ++ [q])))))

/-- Attributes one after the other, with white space between them or none. -/
inductive AttributeList : List RawAttribute → Octets → Prop
  | nil {gap : Octets} (hgap : IsGap gap) : AttributeList [] gap
  | cons {item : RawAttribute} {items : List RawAttribute} {gap text rest : Octets} (hgap : IsGap gap)
      (hitem : item.Spells text) (hrest : AttributeList items rest) :
      AttributeList (item :: items) (gap ++ (text ++ rest))

/-- One more attribute, behind a blank. -/
theorem AttributeList.concat {items : List RawAttribute} {item : RawAttribute} {s text : Octets}
    (h : AttributeList items s) (hitem : item.Spells text) : AttributeList (items ++ [item]) (s ++ 0x20 :: text) := by
  induction h with
  | @nil gap hgap =>
      have hspace : IsGap (gap ++ [0x20]) := fun b hb => by
        rcases List.mem_append.1 hb with hb | hb
        · exact hgap b hb
        · rw [List.mem_singleton.1 hb]
          decide
      have hlist := AttributeList.cons hspace hitem (.nil fun _ hb => absurd hb List.not_mem_nil)
      simpa using hlist
  | cons hgap hfirst _ ih =>
      have hlist := AttributeList.cons hgap hfirst ih
      simpa using hlist

variable {total : Nat} {seen : List (Octets × Nat)} {b q : UInt8} {s rest after value : Octets}
  {item : RawAttribute} {items : List RawAttribute}

/-! ## Parts of an attribute -/

/-- Where a scan stops. -/
theorem exists_run_of_dropWhile {p : UInt8 → Bool} (h : s.dropWhile p = b :: rest) :
    s = s.takeWhile p ++ b :: rest ∧ (∀ x ∈ s.takeWhile p, p x = true) ∧ p b = false := by
  refine ⟨by rw [← h, List.takeWhile_append_dropWhile], fun x hx => List.mem_takeWhile_imp hx, ?_⟩
  have hne : s.dropWhile p ≠ [] := by simp [h]
  simpa only [h, List.head_cons] using List.head_dropWhile_not p hne

theorem dropWhile_gap {gap : Octets} (hgap : IsGap gap) (hb : isSpace b = false) :
    (gap ++ b :: rest).dropWhile isSpace = b :: rest := by
  rw [List.dropWhile_append_of_pos hgap, List.dropWhile_cons_of_neg (by simp [hb])]

theorem readEquals_eq_ok :
    readEquals total s = .ok rest ↔ ∃ gap, IsGap gap ∧ s = gap ++ equalsSign :: rest := by
  constructor
  · intro h
    unfold readEquals at h
    split at h
    · cases h
    · rename_i b more hdrop
      obtain ⟨hs, hgap, _⟩ := exists_run_of_dropWhile hdrop
      split at h
      · rename_i heq
        cases h
        exact ⟨_, hgap, heq ▸ hs⟩
      · cases h
  · rintro ⟨gap, hgap, rfl⟩
    rw [readEquals, dropWhile_gap hgap rfl]
    exact if_pos rfl

theorem readValue_eq_ok : readValue total s = .ok (value, after) ↔
    ∃ gap q, IsGap gap ∧ (q = quoteMark ∨ q = apostrophe) ∧ q ∉ value ∧
      s = gap ++ q :: (value ++ q :: after) := by
  constructor
  · intro h
    unfold readValue at h
    split at h
    · cases h
    · rename_i q rest hdrop
      obtain ⟨hs, hgap, _⟩ := exists_run_of_dropWhile hdrop
      split at h
      · rename_i hq
        split at h
        · cases h
        · rename_i last more hclose
          obtain ⟨hrest, hrun, hlast⟩ := exists_run_of_dropWhile hclose
          cases h
          have hlast : last = q := by simpa using hlast
          refine ⟨_, q, hgap, by simpa using hq, fun hmem => ?_, ?_⟩
          · simpa using hrun q hmem
          · rw [hlast] at hrest
            rw [← hrest, ← hs]
      · cases h
  · rintro ⟨gap, q, hgap, hq, hvalue, rfl⟩
    have hspace : isSpace q = false := by rcases hq with rfl | rfl <;> decide
    have hrun : ∀ x ∈ value, (x == q) = false := by
      intro x hx
      rw [beq_eq_false_iff_ne]
      rintro rfl
      exact hvalue hx
    have htake : (value ++ q :: after).takeWhile (· != q) = value := takeWhile_run hrun (by simp)
    have hdrop : (value ++ q :: after).dropWhile (· != q) = q :: after := dropWhile_run hrun (by simp)
    have hquote : (q = quoteMark || q = apostrophe) = true := by simpa using hq
    rw [readValue, dropWhile_gap hgap hspace]
    simp only [hquote, if_true, hdrop, htake]

/-- The octet that ends a key is white space or the equals sign. -/
theorem endsKey_head (rest : Octets) {gap : Octets} (hgap : IsGap gap) :
    ∃ x more, gap ++ equalsSign :: rest = x :: more ∧ endsKey x = true := by
  cases gap with
  | nil => exact ⟨equalsSign, rest, rfl, rfl⟩
  | cons x gap => exact ⟨x, gap ++ equalsSign :: rest, rfl, by simp [endsKey, hgap x List.mem_cons_self]⟩

/-- An attribute is read exactly if it is written there and its key is new. -/
theorem readAttribute_eq_ok (hb : isSpace b = false) : readAttribute total seen b rest = .ok (item, after) ↔
    item.key ∉ seen.map (·.1) ∧ ∃ text, item.Spells text ∧ b :: rest = text ++ after := by
  constructor
  · intro h
    refine ⟨key_notMem_seen h, ?_⟩
    unfold readAttribute at h
    obtain ⟨behind, hequals, h⟩ := bind_eq_ok.1 h
    dsimp only at h
    split at h
    · cases h
    · obtain ⟨⟨value, more⟩, hvalue, h⟩ := bind_eq_ok.1 h
      cases h
      obtain ⟨gap, hgap, hdrop⟩ := readEquals_eq_ok.1 hequals
      obtain ⟨gap', q, hgap', hq, hnotMem, rfl⟩ := readValue_eq_ok.1 hvalue
      have hkey : ∀ x ∈ rest.takeWhile (!endsKey ·), endsKey x = false := fun x hx => by
        simpa using List.mem_takeWhile_imp hx
      refine ⟨_, .mk hb hkey hgap hgap' hq hnotMem, ?_⟩
      have hrest : rest = rest.takeWhile (!endsKey ·) ++ rest.dropWhile (!endsKey ·) :=
        List.takeWhile_append_dropWhile.symm
      rw [hdrop] at hrest
      simpa using hrest
  · rintro ⟨hnew, text, htext, heq⟩
    cases htext with
    | @mk b' q key gap gap' value _ hkey hgap hgap' hq hvalue =>
        simp only [List.cons_append, List.append_assoc, List.cons.injEq, List.nil_append] at heq
        obtain ⟨rfl, rfl⟩ := heq
        obtain ⟨x, more, hhead, hx⟩ := endsKey_head (gap' ++ q :: (value ++ q :: after)) hgap
        have htake : (key ++ (gap ++ equalsSign :: (gap' ++ q :: (value ++ q :: after)))).takeWhile (!endsKey ·) =
            key := by rw [hhead]; exact takeWhile_run hkey hx
        have hdrop : (key ++ (gap ++ equalsSign :: (gap' ++ q :: (value ++ q :: after)))).dropWhile (!endsKey ·) =
            gap ++ equalsSign :: (gap' ++ q :: (value ++ q :: after)) := by
          rw [hhead]; exact dropWhile_run hkey hx
        have hequals : readEquals total (gap ++ equalsSign :: (gap' ++ q :: (value ++ q :: after))) = .ok _ :=
          readEquals_eq_ok.2 ⟨gap, hgap, rfl⟩
        have hread : readValue total (gap' ++ q :: (value ++ q :: after)) = .ok (value, after) :=
          readValue_eq_ok.2 ⟨gap', q, hgap', hq, hvalue, rfl⟩
        have hfind : seen.find? (·.1 == b :: key) = none := by
          rw [List.find?_eq_none]
          intro entry hentry hkey
          exact hnew (List.mem_map.2 ⟨entry, hentry, eq_of_beq hkey⟩)
        simp only [readAttribute, htake, hdrop, hequals, hfind, hread, bind, Except.bind]
        rfl

/-! ## Lists -/

theorem readAttributes_gap (h : IsGap s) : readAttributes total seen s = ⟨[], none⟩ := by
  rw [readAttributes.eq_def]
  split
  · rfl
  · rename_i b rest hdrop
    have hnil : s.dropWhile isSpace = [] := List.dropWhile_eq_nil_iff.2 h
    rw [hnil] at hdrop
    cases hdrop

theorem attributeList_readAttributes (h : (readAttributes total seen s).flaw = none) :
    AttributeList (readAttributes total seen s).attributes s := by
  fun_induction readAttributes total seen s with
  | case1 seen s hs => exact .nil (List.dropWhile_eq_nil_iff.1 hs)
  | case2 seen s b rest hs flaw hread => cases h
  | case3 seen s b rest hs item after hread hlt position reading ih =>
      obtain ⟨heq, hgap, hb⟩ := exists_run_of_dropWhile hs
      obtain ⟨_, text, htext, hrest⟩ := (readAttribute_eq_ok hb).1 hread
      rw [heq, hrest]
      exact .cons hgap htext (ih h)

theorem RawAttribute.Spells.exists_cons {text : Octets} (h : item.Spells text) :
    ∃ b more, text = b :: more ∧ isSpace b = false := by
  cases h with
  | mk hb => exact ⟨_, _, rfl, hb⟩

/-- Behind the name of a tag, attributes are read without a flaw exactly if they are written there and their
keys are new and differ. -/
theorem readAttributes_eq_iff : readAttributes total seen s = ⟨items, none⟩ ↔
    AttributeList items s ∧ (items.map (·.key)).Nodup ∧ ∀ item ∈ items, item.key ∉ seen.map (·.1) := by
  constructor
  · intro h
    have hlist : (readAttributes total seen s).flaw = none →
        AttributeList (readAttributes total seen s).attributes s := attributeList_readAttributes
    obtain ⟨hnodup, hnew⟩ := nodup_readAttributes total seen s
    rw [h] at hlist hnodup hnew
    exact ⟨hlist rfl, hnodup, fun item hitem => hnew item.key (List.mem_map_of_mem hitem)⟩
  · rintro ⟨hlist, hnodup, hnew⟩
    induction hlist generalizing seen with
    | nil hgap => exact readAttributes_gap hgap
    | @cons item items gap text rest hgap hitem hrest ih =>
        obtain ⟨b, more, rfl, hb⟩ := hitem.exists_cons
        have hread : readAttribute total seen b (more ++ rest) = .ok (item, rest) :=
          (readAttribute_eq_ok hb).2 ⟨hnew item List.mem_cons_self, _, hitem, rfl⟩
        obtain ⟨position, hcons⟩ := readAttributes_cons (dropWhile_gap hgap hb) hread
        rw [List.map_cons, List.nodup_cons] at hnodup
        rw [List.cons_append, hcons, ih hnodup.2]
        -- the keys behind the first are new beside it, too
        intro other hother hmem
        rw [List.map_append, List.mem_append, List.map_singleton, List.mem_singleton] at hmem
        rcases hmem with hmem | hkey
        · exact hnew other (List.mem_cons_of_mem _ hother) hmem
        · exact hnodup.1 (List.mem_map.2 ⟨other, hother, hkey⟩)

/-- The attributes of a tag are read exactly if a list of attributes with keys that differ is written behind its
name, and each of them is read. -/
theorem readPairs_attributes {tag : Tag} {pairs : List (String × String)} :
    Assembly.readPairs tag.attributes = .ok pairs ↔
      ∃ items, AttributeList items (tag.content.dropWhile (!isSpace ·)) ∧ (items.map (·.key)).Nodup ∧
        items.mapM Assembly.readPair = .ok pairs := by
  have hlist : ∀ items, tag.attributes = ⟨items, none⟩ ↔
      AttributeList items (tag.content.dropWhile (!isSpace ·)) ∧ (items.map (·.key)).Nodup := fun items => by
    rw [Tag.attributes, readAttributes_eq_iff]
    simp
  rw [Assembly.readPairs_eq_ok]
  constructor
  · rintro ⟨hflaw, hpairs⟩
    obtain ⟨hitems, hnodup⟩ := (hlist tag.attributes.attributes).1 (by rw [← hflaw])
    exact ⟨_, hitems, hnodup, hpairs⟩
  · rintro ⟨items, hitems, hnodup, hpairs⟩
    rw [(hlist items).2 ⟨hitems, hnodup⟩]
    exact ⟨rfl, hpairs⟩

end Interchange.Xml
