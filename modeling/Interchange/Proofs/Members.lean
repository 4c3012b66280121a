import Mathlib.Data.String.Basic
import Interchange.Proofs.Survey

/-!
# The members of a report on an element

The report on an element has a member for each extra attribute and one for each feature of its declaration. Their
keys are told apart just if no extra attribute is called like a feature (`members_of_describe`).
-/

namespace Interchange.Schema

open Xml (Document localPart declaresNamespace)

variable {d : Document} {uri : Option String} {i : Nat} {k value : String} {x y : Description}
  {sorted attributes : List (String × String)} {a : String × String}

/-! ## Attributes sorted by key -/

theorem lookup_cons_if (b : String × String) :
    (b :: sorted).lookup k = if k = b.1 then some b.2 else sorted.lookup k := by
  rw [List.lookup_cons]
  by_cases h : k = b.1
  · rw [if_pos h, beq_iff_eq.2 h]
  · rw [if_neg h, beq_eq_false_iff_ne.2 h]

theorem lookup_putSorted {key : String} (sorted : List (String × String)) :
    (putSorted key value sorted).lookup k = if k = key then some value else sorted.lookup k := by
  induction sorted with
  | nil => rw [putSorted, lookup_cons_if]
  | cons b rest ih =>
      rw [putSorted]
      by_cases hlt : key < b.1
      · rw [if_pos hlt, lookup_cons_if]
      · rw [if_neg hlt]
        by_cases heq : key = b.1
        · rw [if_pos heq, lookup_cons_if, lookup_cons_if]
          by_cases hk : k = key
          · rw [if_pos hk, if_pos hk]
          · rw [if_neg hk, if_neg hk, if_neg (heq ▸ hk)]
        · rw [if_neg heq, lookup_cons_if, lookup_cons_if, ih]
          by_cases hk : k = key
          · rw [if_pos hk, if_pos hk, if_neg (hk ▸ heq)]
          · rw [if_neg hk, if_neg hk]

theorem mem_putSorted {key : String} (h : a ∈ putSorted key value sorted) : a = (key, value) ∨ a ∈ sorted := by
  induction sorted with
  | nil => exact Or.inl (List.mem_singleton.1 h)
  | cons b rest ih =>
      rw [putSorted] at h
      split_ifs at h
      · exact List.mem_cons.1 h
      · exact (List.mem_cons.1 h).imp_right (List.mem_cons_of_mem _)
      · rcases List.mem_cons.1 h with rfl | h
        · exact Or.inr List.mem_cons_self
        · exact (ih h).imp_right (List.mem_cons_of_mem _)

theorem pairwise_putSorted {key : String} (h : sorted.Pairwise (·.1 < ·.1)) :
    (putSorted key value sorted).Pairwise (·.1 < ·.1) := by
  induction sorted with
  | nil => exact List.pairwise_singleton _ _
  | cons b rest ih =>
      obtain ⟨hfirst, hrest⟩ := List.pairwise_cons.1 h
      rw [putSorted]
      split_ifs with hlt heq
      · refine List.pairwise_cons.2 ⟨fun c hc => ?_, h⟩
        rcases List.mem_cons.1 hc with rfl | hc
        · exact hlt
        · exact lt_trans hlt (hfirst c hc)
      · exact List.pairwise_cons.2 ⟨fun c hc => heq ▸ hfirst c hc, hrest⟩
      · refine List.pairwise_cons.2 ⟨fun c hc => ?_, ih hrest⟩
        rcases mem_putSorted hc with rfl | hc
        · exact lt_of_le_of_ne (not_lt.1 hlt) (Ne.symm heq)
        · exact hfirst c hc

theorem sortAttributes_concat : sortAttributes (attributes ++ [a]) =
    putSorted (localPart a.1) a.2 (sortAttributes attributes) := by
  rw [sortAttributes, List.foldl_append]
  rfl

theorem pairwise_sortAttributes (attributes : List (String × String)) :
    (sortAttributes attributes).Pairwise (·.1 < ·.1) := by
  induction attributes using List.reverseRecOn with
  | nil => exact List.Pairwise.nil
  | append_singleton attributes a ih =>
      rw [sortAttributes_concat]
      exact pairwise_putSorted ih

theorem lookup_sortAttributes (attributes : List (String × String)) : (sortAttributes attributes).lookup k =
    ((attributes.filter (localPart ·.1 == k)).getLast?).map (·.2) := by
  induction attributes using List.reverseRecOn with
  | nil => rfl
  | append_singleton attributes a ih =>
      rw [sortAttributes_concat, lookup_putSorted, List.filter_append, ih]
      by_cases h : k = localPart a.1
      · simp [h]
      · simp [h, Ne.symm h]

theorem mem_iff_lookup (h : sorted.Pairwise (·.1 < ·.1)) : (k, value) ∈ sorted ↔ sorted.lookup k = some value := by
  rw [List.lookup_eq_some_iff]
  constructor
  · intro hmem
    obtain ⟨front, back, rfl⟩ := List.append_of_mem hmem
    refine ⟨front, back, rfl, fun b hb => ?_⟩
    have hlt := (List.pairwise_append.1 h).2.2 b hb (k, value) List.mem_cons_self
    simpa using hlt.ne'
  · rintro ⟨front, back, rfl, -⟩
    simp

/-! ## Extras -/

/-- Whether an attribute says more of an element than its name and its type do. -/
def isExtra (a : String × String) : Bool :=
  !declaresNamespace a.1 && localPart a.1 != "name" && localPart a.1 != "type" && !a.2.isEmpty

/-- The value of the last extra attribute of a local name. -/
def extra? (d : Document) (i : Nat) (key : String) : Option String :=
  (((attributesOf d i).filter isExtra).filter (localPart ·.1 == key)).getLast?.map (·.2)

theorem extrasOf_eq : extrasOf d i = sortAttributes ((attributesOf d i).filter isExtra) := rfl

theorem mem_extrasOf : (k, value) ∈ extrasOf d i ↔ extra? d i k = some value := by
  rw [extrasOf_eq, mem_iff_lookup (pairwise_sortAttributes _), lookup_sortAttributes, extra?]

theorem mem_keys_extrasOf : k ∈ (extrasOf d i).map (·.1) ↔ extra? d i k ≠ none := by
  rw [Option.ne_none_iff_exists', List.mem_map]
  constructor
  · rintro ⟨⟨_, value⟩, hmem, rfl⟩
    exact ⟨value, mem_extrasOf.1 hmem⟩
  · rintro ⟨value, h⟩
    exact ⟨(k, value), mem_extrasOf.2 h, rfl⟩

theorem extra?_eq_none (h : k = "name" ∨ k = "type") : extra? d i k = none := by
  have hnone : ((attributesOf d i).filter isExtra).filter (localPart ·.1 == k) = [] := by
    refine List.filter_eq_nil_iff.2 fun a ha hkey => ?_
    have hextra := (List.mem_filter.1 ha).2
    rw [beq_iff_eq] at hkey
    simp only [isExtra, hkey, Bool.and_eq_true, bne_iff_ne] at hextra
    exact h.elim hextra.1.1.2 hextra.1.2
  rw [extra?, hnone]
  rfl

/-! ## Features -/

/-- What a report may say of an element's declaration. -/
inductive Feature where
  | documentation
  | complexType
  | compositor
  | elements
  | simpleType
  | baseType
  | facets
  deriving DecidableEq, Repr

namespace Feature

def key : Feature → String
  | documentation => "documentation"
  | complexType => "hasComplexType"
  | compositor => "compositor"
  | elements => "elements"
  | simpleType => "hasSimpleType"
  | baseType => "baseType"
  | facets => "facets"

/-- The features, in the order of their members. -/
def all : List Feature := [documentation, complexType, compositor, elements, simpleType, baseType, facets]

theorem mem_all (f : Feature) : f ∈ all := by cases f <;> decide

theorem nodup_keys : (all.map key).Nodup := by decide

theorem key_injective {f g : Feature} (h : f.key = g.key) : f = g :=
  List.inj_on_of_nodup_map nodup_keys f.mem_all g.mem_all h

theorem key_ne (f : Feature) : f.key ≠ "name" ∧ f.key ≠ "type" := by cases f <;> decide

end Feature

/-- The compositor of an element, and its node. -/
def model? (d : Document) (uri : Option String) (i : Nat) : Option (Compositor × Nat) :=
  (declared d uri i "complexType").head?.bind (compositorOf d uri)

/-- What there is to say of a feature of the element at a node. -/
def found (d : Document) (uri : Option String) (i : Nat) : Feature → Option JsonValue
  | .documentation => (documentationOf d uri i).map .text
  | .complexType => (declared d uri i "complexType").head?.map fun _ => .bool true
  | .compositor => (model? d uri i).map fun (compositor, _) => .text compositor.name
  | .elements => (model? d uri i).map fun (_, n) =>
    .list ((declared d uri n "element").map fun c => (describeElement d uri c).report)
  | .simpleType => (simpleOf d uri i).map fun _ => .bool true
  | .baseType => (simpleOf d uri i).join.bind fun r => r.base.map .text
  | .facets => (simpleOf d uri i).join.bind fun r =>
    if r.facets.isEmpty then none else some (.list (r.facets.map Facet.report))

/-- The members for features of an element. -/
def featureMembers (d : Document) (uri : Option String) (i : Nat) (features : List Feature) :
    List (String × JsonValue) :=
  features.filterMap fun f => (found d uri i f).map fun value => (f.key, value)

theorem reports_eq (elements : List Description) :
    Description.reports elements = elements.map Description.report := by
  induction elements with
  | nil => rfl
  | cons x rest ih => rw [Description.reports, List.map_cons, ih, Description.report]

theorem leading_headingOf : (headingOf d uri i).leading =
    [("name", .text ((d.attributeValue i "name").getD ""))] ++ member "type" .text (headingOf d uri i).typeName ++
      texts (extrasOf d i) ++ featureMembers d uri i [.documentation] := by
  rw [Heading.leading, featureMembers]
  cases hdocumentation : documentationOf d uri i <;>
    simp [headingOf, found, hdocumentation, member, Feature.key]

theorem trailing_headingOf :
    (headingOf d uri i).trailing = featureMembers d uri i [.simpleType, .baseType, .facets] := by
  rw [Heading.trailing, headingOf, featureMembers]
  cases hsimple : simpleOf d uri i with
  | none => simp [found, hsimple, flag]
  | some restriction =>
      cases restriction with
      | none => simp [found, hsimple, flag, Feature.key]
      | some r =>
          cases hbase : r.base <;> by_cases hfacets : r.facets = [] <;>
            simp [found, hsimple, flag, Feature.key, member, hbase, hfacets]

/-- The members of a report: name and type, then the extras, then the features. -/
theorem members_describeElement (d : Document) (uri : Option String) (i : Nat) :
    (describeElement d uri i).members =
      [("name", .text ((d.attributeValue i "name").getD ""))] ++ member "type" .text (headingOf d uri i).typeName ++
        texts (extrasOf d i) ++ featureMembers d uri i Feature.all := by
  have hall : featureMembers d uri i Feature.all = featureMembers d uri i [.documentation] ++
      featureMembers d uri i [.complexType, .compositor, .elements] ++
      featureMembers d uri i [.simpleType, .baseType, .facets] := by
    rw [featureMembers, featureMembers, featureMembers, featureMembers, ← List.filterMap_append,
      ← List.filterMap_append]
    rfl
  rw [describeElement_eq, hall]
  cases hcomplex : (declared d uri i "complexType").head? with
  | none =>
      have hmiddle : featureMembers d uri i [.complexType, .compositor, .elements] = [] := by
        simp [featureMembers, found, model?, hcomplex]
      simp only [Description.members, leading_headingOf, trailing_headingOf, hmiddle, List.append_nil,
        List.append_assoc]
  | some complex =>
      cases hmodel : compositorOf d uri complex with
      | none =>
          have hmiddle : featureMembers d uri i [.complexType, .compositor, .elements] =
              flag "hasComplexType" true := by
            simp [featureMembers, found, model?, hcomplex, hmodel, Feature.key, flag]
          simp only [hmodel, Description.members, leading_headingOf, trailing_headingOf, hmiddle,
            List.append_assoc]
      | some chosen =>
          obtain ⟨compositor, n⟩ := chosen
          have hmiddle : featureMembers d uri i [.complexType, .compositor, .elements] =
              flag "hasComplexType" true ++ [("compositor", .text compositor.name), ("elements", .list
                (Description.reports ((declared d uri n "element").map (describeElement d uri))))] := by
            simp [featureMembers, found, model?, hcomplex, hmodel, Feature.key, flag, reports_eq]
          simp only [hmodel, Description.members, leading_headingOf, trailing_headingOf, hmiddle,
            List.append_assoc]

/-! ## Keys -/

theorem mem_featureMembers {features : List Feature} {value : JsonValue} :
    (k, value) ∈ featureMembers d uri i features ↔ ∃ f ∈ features, f.key = k ∧ found d uri i f = some value := by
  simp only [featureMembers, List.mem_filterMap, Option.map_eq_some_iff, Prod.mk.injEq]
  constructor
  · rintro ⟨f, hf, _, hvalue, hkey, rfl⟩
    exact ⟨f, hf, hkey, hvalue⟩
  · rintro ⟨f, hf, hkey, hvalue⟩
    exact ⟨f, hf, value, hvalue, hkey, rfl⟩

theorem mem_texts {value : JsonValue} :
    (k, value) ∈ texts (extrasOf d i) ↔ ∃ text, extra? d i k = some text ∧ value = .text text := by
  simp only [texts, List.mem_map, Prod.mk.injEq, Prod.exists, mem_extrasOf]
  constructor
  · rintro ⟨_, text, hextra, rfl, rfl⟩
    exact ⟨text, hextra, rfl⟩
  · rintro ⟨text, hextra, rfl⟩
    exact ⟨k, text, hextra, rfl, rfl⟩

theorem mem_members {f : Feature} {value : JsonValue} : (f.key, value) ∈ (describeElement d uri i).members ↔
    found d uri i f = some value ∨ ∃ text, extra? d i f.key = some text ∧ value = .text text := by
  have hname : (f.key, value) ∉ [("name", JsonValue.text ((d.attributeValue i "name").getD ""))] := by
    simp [f.key_ne.1]
  have htype : (f.key, value) ∉ member "type" .text (headingOf d uri i).typeName := by
    cases (headingOf d uri i).typeName <;> simp [member, f.key_ne.2]
  have hfeature : (f.key, value) ∈ featureMembers d uri i Feature.all ↔ found d uri i f = some value := by
    rw [mem_featureMembers]
    constructor
    · rintro ⟨g, -, hkey, hvalue⟩
      exact Feature.key_injective hkey ▸ hvalue
    · exact fun hvalue => ⟨f, f.mem_all, rfl, hvalue⟩
  rw [members_describeElement, List.mem_append, List.mem_append, List.mem_append, mem_texts, hfeature]
  simp only [hname, htype, or_self, false_or, Or.comm]

theorem mem_members_of_extra? {value : String} (h : extra? d i k = some value) :
    (k, .text value) ∈ (describeElement d uri i).members := by
  rw [members_describeElement, List.mem_append, List.mem_append]
  exact Or.inl (Or.inr (mem_texts.2 ⟨value, h, rfl⟩))

theorem map_fst_texts (attributes : List (String × String)) :
    (texts attributes).map (·.1) = attributes.map (·.1) := by
  rw [texts, List.map_map]
  rfl

theorem map_fst_featureMembers (features : List Feature) : (featureMembers d uri i features).map (·.1) =
    (features.filter fun f => (found d uri i f).isSome).map Feature.key := by
  induction features with
  | nil => rfl
  | cons f rest ih =>
      rw [featureMembers] at ih
      cases hfound : found d uri i f <;> simp [featureMembers, hfound, ih]

/-- Two members have the same key just if an extra attribute is called like a feature that is there. -/
theorem nodup_keys_members : ((describeElement d uri i).members.map (·.1)).Nodup ↔
    ∀ f, (found d uri i f).isSome = true → extra? d i f.key = none := by
  have hextras : ((extrasOf d i).map (·.1)).Nodup := by
    rw [extrasOf_eq]
    exact List.pairwise_map.2 ((pairwise_sortAttributes _).imp fun hlt => hlt.ne)
  have hfeatures : ((Feature.all.filter fun f => (found d uri i f).isSome).map Feature.key).Nodup :=
    Feature.nodup_keys.sublist (List.filter_sublist.map _)
  have hhead : ∀ key ∈ ([("name", JsonValue.text ((d.attributeValue i "name").getD ""))] ++
      member "type" .text (headingOf d uri i).typeName).map (·.1), key = "name" ∨ key = "type" := by
    cases (headingOf d uri i).typeName <;> simp [member]
  have hheads : (([("name", JsonValue.text ((d.attributeValue i "name").getD ""))] ++
      member "type" .text (headingOf d uri i).typeName).map (·.1)).Nodup := by
    cases (headingOf d uri i).typeName <;> simp [member]
  rw [members_describeElement, List.map_append, List.map_append, map_fst_texts, map_fst_featureMembers,
    List.nodup_append, List.nodup_append]
  constructor
  · rintro ⟨-, -, hdisjoint⟩ f hf
    by_contra hextra
    exact hdisjoint f.key (List.mem_append_right _ (mem_keys_extrasOf.2 hextra)) f.key
      (List.mem_map.2 ⟨f, List.mem_filter.2 ⟨f.mem_all, hf⟩, rfl⟩) rfl
  · intro h
    refine ⟨⟨hheads, hextras, ?_⟩, hfeatures, ?_⟩
    · rintro key hkey _ hextra rfl
      exact mem_keys_extrasOf.1 hextra (extra?_eq_none (hhead key hkey))
    · rintro key hkey _ hfeature rfl
      obtain ⟨f, hf, rfl⟩ := List.mem_map.1 hfeature
      rcases List.mem_append.1 hkey with hkey | hkey
      · exact (hhead _ hkey).elim f.key_ne.1 f.key_ne.2
      · exact mem_keys_extrasOf.1 hkey (h f (List.mem_filter.1 hf).2)

/-! ## Descriptions at any depth -/

/-- A description is another one or stands somewhere below it. -/
inductive Description.Within : Description → Description → Prop
  | self (x : Description) : Within x x
  | under {x y z : Description} (hz : z ∈ y.children) (hx : Within x z) : Within x y

/-- What is said of the elements below an element are their own descriptions. -/
theorem exists_of_mem_children (h : x ∈ (describeElement d uri i).children) : ∃ c, x = describeElement d uri c := by
  rw [describeElement_eq] at h
  cases hcomplex : (declared d uri i "complexType").head? with
  | none => simp [hcomplex, Description.children] at h
  | some complex =>
      cases hmodel : compositorOf d uri complex with
      | none => simp [hcomplex, hmodel, Description.children] at h
      | some chosen =>
          simp only [hcomplex, hmodel, Description.children, List.mem_map] at h
          obtain ⟨c, _, rfl⟩ := h
          exact ⟨c, rfl⟩

theorem Description.Within.exists_node (h : x.Within y) :
    ∀ i, y = describeElement d uri i → ∃ c, x = describeElement d uri c := by
  induction h with
  | self => exact fun i hx => ⟨i, hx⟩
  | under hz _ ih =>
      rintro i rfl
      obtain ⟨c, rfl⟩ := exists_of_mem_children hz
      exact ih c rfl

/-! ## Reports that lose nothing -/

/-- A report on the element at a node that has each extra attribute and each feature under its key, no other
feature, and no two members of one key. -/
structure Lossless (d : Document) (uri : Option String) (i : Nat) (members : List (String × JsonValue)) : Prop where
  extra_mem : ∀ key value, extra? d i key = some value → (key, .text value) ∈ members
  feature_mem_iff : ∀ (f : Feature) value, (f.key, value) ∈ members ↔ found d uri i f = some value
  keys_nodup : (members.map (·.1)).Nodup

/-- Nothing is lost just if no extra attribute is called like a feature, whether the feature is there or not. -/
theorem lossless_iff : Lossless d uri i (describeElement d uri i).members ↔ ∀ f : Feature, extra? d i f.key = none := by
  constructor
  · intro h f
    cases hextra : extra? d i f.key with
    | none => rfl
    | some value =>
        -- the feature is there with the text of the attribute, and so its key is there twice
        have hfound := (h.feature_mem_iff f _).1 (h.extra_mem f.key value hextra)
        exact hextra.symm.trans (nodup_keys_members.1 h.keys_nodup f (hfound ▸ rfl))
  · intro h
    refine ⟨fun key value => mem_members_of_extra?, fun f value => ?_, nodup_keys_members.2 fun f _ => h f⟩
    rw [mem_members]
    refine ⟨fun hmem => hmem.resolve_right ?_, Or.inl⟩
    rintro ⟨text, hextra, -⟩
    exact absurd (hextra.symm.trans (h f)) (Option.some_ne_none text)

/-- The keys of the members of a report on an element. -/
def Description.keys (x : Description) : List String := x.members.map (·.1)

/-- The description of an element. -/
def Entry.element? : Entry → Option Description
  | .element x => some x
  | _ => none

/-- A document that is described, by something that is to be seen of one of its elements. -/
theorem exists_of_describe {α : Type} {octets : Text.Utf8.Octets} {f : Description → α} {seen : List (Option α)}
    {one : α} (h : ((Document.parse octets).toOption.bind fun d => (describe d).toOption.map fun entries =>
      entries.map fun entry => entry.element?.map f) = some seen) (hone : some one ∈ seen) :
    ∃ d entries x, Document.parse octets = .ok d ∧ describe d = .ok entries ∧ .element x ∈ entries ∧ f x = one := by
  cases hd : Document.parse octets with
  | error m => simp [hd, Except.toOption] at h
  | ok d =>
      cases hentries : describe d with
      | error flaw => simp [hd, hentries, Except.toOption] at h
      | ok entries =>
          have hmap : entries.map (fun entry => entry.element?.map f) = seen := by
            simpa [hd, hentries, Except.toOption] using h
          obtain ⟨entry, hentry, hf⟩ := List.mem_map.1 (hmap ▸ hone)
          obtain ⟨x, hx, rfl⟩ := Option.map_eq_some_iff.1 hf
          cases entry with
          | banner b => cases hx
          | rule r => cases hx
          | element y =>
              cases hx
              exact ⟨d, entries, x, rfl, hentries, hentry, rfl⟩

/-- The report on each element of a schema, at any depth, has every extra attribute of the element under its local
name; under the key of a feature it has what is found of the feature, and an extra attribute called like it; and a
key comes up twice just if an extra attribute is called like a feature that is there. So the report keeps extras and
features apart just if no extra attribute is called like a feature. -/
theorem members_of_describe {entries : List Entry} (hentries : describe d = .ok entries)
    (hy : .element y ∈ entries) (hx : x.Within y) :
    ∃ root i, d.documentElement = some root ∧ x = describeElement d (d.namespaceOf root) i ∧
      (∀ key value, extra? d i key = some value → (key, .text value) ∈ x.members) ∧
      (∀ (f : Feature) value, (f.key, value) ∈ x.members ↔
        found d (d.namespaceOf root) i f = some value ∨ ∃ text, extra? d i f.key = some text ∧ value = .text text) ∧
      ((x.members.map (·.1)).Nodup ↔
        ∀ f, (found d (d.namespaceOf root) i f).isSome = true → extra? d i f.key = none) ∧
      (Lossless d (d.namespaceOf root) i x.members ↔ ∀ f : Feature, extra? d i f.key = none) := by
  obtain ⟨root, hroot, _, rfl⟩ := describe_eq_ok.1 hentries
  have hdeclared : ∃ c, y = describeElement d (d.namespaceOf root) c := by
    simp only [List.mem_cons, reduceCtorEq, false_or, List.mem_map, Entry.element.injEq] at hy
    obtain ⟨_, ⟨c, _, rfl⟩, rfl⟩ := hy
    exact ⟨c, rfl⟩
  obtain ⟨c, rfl⟩ := hdeclared
  obtain ⟨i, rfl⟩ := hx.exists_node c rfl
  exact ⟨root, i, hroot, rfl, fun key value => mem_members_of_extra?, fun f value => mem_members,
    nodup_keys_members, lossless_iff⟩

/-- An element below another one, with an attribute that is called like a feature. -/
theorem members_of_describe_below :
    let octets := Text.Utf8.encodeText <|
      "<schema><element name='A'><complexType><all><element name='B' facets='2'/></all></complexType>" ++
        "</element></schema>"
    ∃ d entries x y root i, Document.parse octets = .ok d ∧ describe d = .ok entries ∧ .element y ∈ entries ∧
      x.Within y ∧ x.keys = ["name", "facets"] ∧ d.documentElement = some root ∧
      x = describeElement d (d.namespaceOf root) i ∧
      (Lossless d (d.namespaceOf root) i x.members ↔ ∀ f : Feature, extra? d i f.key = none) := by
  intro octets
  have hread : ((Document.parse octets).toOption.bind fun d => (describe d).toOption.map fun entries =>
      entries.map fun entry => entry.element?.map fun y => y.children.map (·.keys)) =
        some [none, some [["name", "facets"]]] := by decide +kernel
  obtain ⟨d, entries, y, hd, hentries, hy, hchildren⟩ :=
    exists_of_describe hread (List.mem_cons_of_mem _ List.mem_cons_self)
  have hchild : ["name", "facets"] ∈ y.children.map (·.keys) := hchildren ▸ List.mem_cons_self
  obtain ⟨x, hx, hkeys⟩ := List.mem_map.1 hchild
  have hwithin : x.Within y := .under hx (.self x)
  obtain ⟨root, i, hroot, hnode, -, -, -, hlossless⟩ := members_of_describe hentries hy hwithin
  exact ⟨d, entries, x, y, root, i, hd, hentries, hy, hwithin, hkeys, hroot, hnode, hlossless⟩

/-- One attribute is called like a feature that is there, and one like a feature that is not: one key comes up twice,
and there is a member for facets although there is no simple type. -/
theorem members_documentation_twice :
    let octets := Text.Utf8.encodeText <|
      "<schema><element name=\"A\" documentation=\"y\" facets=\"x\"><annotation>" ++
        "<documentation>z</documentation></annotation></element></schema>"
    ∃ d entries x, Document.parse octets = .ok d ∧ describe d = .ok entries ∧ .element x ∈ entries ∧
      x.heading.extras = [("documentation", "y"), ("facets", "x")] ∧ x.heading.documentation = some "z" ∧
      x.heading.simple = none ∧ x.keys = ["name", "documentation", "facets", "documentation"] ∧ ¬x.keys.Nodup := by
  intro octets
  have hread : ((Document.parse octets).toOption.bind fun d => (describe d).toOption.map fun entries =>
      entries.map fun entry => entry.element?.map fun x => (x.heading, x.keys)) =
        some [none, some (⟨"A", none, [("documentation", "y"), ("facets", "x")], some "z", none⟩,
          ["name", "documentation", "facets", "documentation"])] := by decide +kernel
  obtain ⟨d, entries, x, hd, hentries, hx, hseen⟩ :=
    exists_of_describe hread (List.mem_cons_of_mem _ List.mem_cons_self)
  obtain ⟨hheading, hkeys⟩ := Prod.mk.inj hseen
  exact ⟨d, entries, x, hd, hentries, hx, by rw [hheading], by rw [hheading], by rw [hheading], hkeys,
    by rw [hkeys]; decide⟩

end Interchange.Schema
