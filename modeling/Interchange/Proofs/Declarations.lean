import Interchange.Proofs.Insertion
import Interchange.Proofs.Namespaces
import Interchange.Proofs.Survey

/-!
# Schemas with one more declaration

A declaration of a prefix that no name has is passed over when a schema is described. It is no namespace of any
element, and no extra attribute; but a lookup by local name meets it like any other attribute, and takes its value
unless an attribute of that name stands in front (`Schema.describe_declaration`).
-/

namespace Interchange

open Text.Utf8 (Octets encodeText)

namespace Xml.Insertion.Takes

open Document (rootId declarationOf_eq)

variable {x : Insertion} {d d' : Document} {i : Nat} {name : String} {q : String → Bool}

/-! ## Nodes -/

theorem name_shift (h : x.Takes d d') (i : Nat) : (d'.node (x.shift i)).name = (d.node i).name := by
  rw [h.node]
  rfl

theorem value_shift (h : x.Takes d d') (i : Nat) : (d'.node (x.shift i)).value = (d.node i).value := by
  rw [h.node]
  rfl

theorem isElement_shift (h : x.Takes d d') (i : Nat) : (d'.node (x.shift i)).isElement = (d.node i).isElement := by
  rw [h.node]
  rfl

theorem isText_shift (h : x.Takes d d') (i : Nat) : (d'.node (x.shift i)).isText = (d.node i).isText := by
  rw [h.node]
  rfl

theorem parent_shift (h : x.Takes d d') (i : Nat) :
    (d'.node (x.shift i)).parent = (d.node i).parent.map x.shift := by
  rw [h.node]
  rfl

theorem children_shift (h : x.Takes d d') (i : Nat) :
    (d'.node (x.shift i)).children = (d.node i).children.map x.shift := by
  rw [h.node]
  rfl

theorem descendants_shift (h : x.Takes d d') (i : Nat) :
    d'.descendants (x.shift i) = (d.descendants i).map x.shift := by
  have hbelow : ∀ c ∈ (d.node i).children, d'.descendants (x.shift c) = (d.descendants c).map x.shift := fun c hc =>
    have := Document.lt_of_mem_children hc
    h.descendants_shift c
  rw [Document.descendants_eq, Document.descendants_eq, h.children_shift, List.flatMap_map, List.map_flatMap]
  exact List.flatMap_congr fun c hc => by rw [hbelow c hc, List.map_cons]
termination_by d.size - i
decreasing_by omega

theorem textContent_shift (h : x.Takes d d') (i : Nat) : d'.textContent (x.shift i) = d.textContent i := by
  have htexts : ((d'.descendants (x.shift i)).filterMap fun c =>
      if (d'.node c).isText then (d'.node c).value else none) =
      (d.descendants i).filterMap fun c => if (d.node c).isText then (d.node c).value else none := by
    rw [h.descendants_shift, List.filterMap_map]
    simp only [Function.comp_def, h.isText_shift, h.value_shift]
  rw [Document.textContent, Document.textContent, h.value_shift, htexts]

/-! ## Attributes -/

/-- The attributes in front of the one that is put in. -/
theorem map_pair_take (h : x.Takes d d') :
    ((d.node x.element).attributes.take x.before.length).map (fun a => (d.node a).pair) = x.before := by
  rw [List.map_take]
  exact (List.prefix_iff_eq_take.1 h.before).symm

theorem map_pair_shift (h : x.Takes d d') (ids : List Nat) :
    (ids.map x.shift).map (fun a => (d'.node a).pair) = ids.map fun a => (d.node a).pair := by
  simp only [List.map_map, Function.comp_def, Node.pair, h.name_shift, h.value_shift]

theorem attributePairs_shift (h : x.Takes d d') (i : Nat) : d'.attributePairs (x.shift i) =
    if i = x.element then x.before ++ (x.name, x.value) :: (d.attributePairs i).drop x.before.length
    else d.attributePairs i := by
  rw [Document.attributePairs, h.node]
  unfold place attributes
  split
  · rename_i hi
    subst hi
    have hnew : (d'.node x.number).pair = (x.name, x.value) := by
      rw [h.new]
      rfl
    simp only [List.map_append, List.map_cons, hnew, h.map_pair_shift, h.map_pair_take, Document.attributePairs,
      List.map_drop]
  · exact h.map_pair_shift _

/-- A lookup that passes the new attribute over, or is over before it comes there, finds what it found. -/
theorem find?_shift (h : x.Takes d d')
    (hq : i = x.element → q x.name = true → ∃ pair ∈ x.before, q pair.1 = true) :
    ((d'.node (x.shift i)).attributes.find? fun a => q (d'.node a).name) =
      ((d.node i).attributes.find? fun a => q (d.node a).name).map x.shift := by
  have hmap : ∀ ids : List Nat, ((ids.map x.shift).find? fun a => q (d'.node a).name) =
      (ids.find? fun a => q (d.node a).name).map x.shift := by
    intro ids
    rw [List.find?_map]
    simp only [Function.comp_def, h.name_shift]
  rw [h.node]
  unfold place attributes
  split
  · rename_i hi
    subst hi
    have hnew : (d'.node x.number).name = x.name := by
      rw [h.new]
      rfl
    conv_rhs => rw [← List.take_append_drop x.before.length (d.node x.element).attributes, List.find?_append]
    rw [List.find?_append, hmap, List.find?_cons, hmap, hnew]
    cases hname : q x.name with
    | false => exact Option.map_or.symm
    | true =>
        obtain ⟨pair, hpair, hfound⟩ := hq rfl hname
        rw [← h.map_pair_take] at hpair
        obtain ⟨a, ha, rfl⟩ := List.mem_map.1 hpair
        have hsome : ((((d.node x.element).attributes.take x.before.length).find?
            fun a => q (d.node a).name)).isSome := List.find?_isSome.2 ⟨a, ha, hfound⟩
        obtain ⟨found, hfind⟩ := Option.isSome_iff_exists.1 hsome
        rw [hfind]
        rfl
  · exact hmap _

theorem attributeValue_shift (h : x.Takes d d')
    (hname : i = x.element → localPart x.name = name → ∃ pair ∈ x.before, localPart pair.1 = name) :
    d'.attributeValue (x.shift i) name = d.attributeValue i name := by
  rw [Document.attributeValue, h.find?_shift (q := fun n => localPart n == name) (by simpa using hname),
    Document.attributeValue]
  cases (d.node i).attributes.find? fun a => localPart (d.node a).name == name with
  | none => rfl
  | some a => exact h.value_shift a

/-! ## Namespaces -/

theorem declarationOf_shift (h : x.Takes d d') (hname : x.name ≠ name) (i : Nat) :
    d'.declarationOf name (x.shift i) = (d.declarationOf name i).map x.shift := by
  have hfind := h.find?_shift (i := i) (q := fun n => n == name) (by simp [hname])
  have hparent : ∀ p, (d.node i).parent = some p →
      d'.declarationOf name (x.shift p) = (d.declarationOf name p).map x.shift := fun p hp =>
    have := Document.parent_lt hp
    h.declarationOf_shift hname p
  rw [declarationOf_eq, declarationOf_eq, hfind, h.parent_shift]
  cases (d.node i).attributes.find? fun a => (d.node a).name == name with
  | some a => rfl
  | none =>
      cases hp : (d.node i).parent with
      | none => rfl
      | some p => exact hparent p hp
termination_by i

theorem namespaceOf_shift (h : x.Takes d d') (hname : x.name ≠ declarationName (prefixPart (d.node i).name)) :
    d'.namespaceOf (x.shift i) = d.namespaceOf i := by
  rw [Document.namespaceOf_eq, Document.namespaceOf_eq, h.name_shift, h.declarationOf_shift hname]
  cases d.declarationOf (declarationName (prefixPart (d.node i).name)) i with
  | none => rfl
  | some a => exact congrArg (Option.filter _) (h.value_shift a)

end Xml.Insertion.Takes

/-! ## Descriptions -/

namespace Schema

open Xml (Document Event Insertion Tag declarationName declaresNamespace localPart prefixPart)

/-- The local names of the attributes that are looked up on elements of a local name. Facets may have any. -/
def lookedUp : String → List String
  | "element" => ["name", "type", "value"]
  | "restriction" => ["base", "value"]
  | _ => ["value"]

theorem value_mem_lookedUp (name : String) : "value" ∈ lookedUp name := by
  unfold lookedUp
  split <;> simp

/-- The attribute that is put in declares a prefix that no node has, and no lookup comes to it. -/
structure Idle (x : Insertion) (d : Document) : Prop where
  declares : declaresNamespace x.name = true
  unused : ∀ i, x.name ≠ declarationName (prefixPart (d.node i).name)
  covered : localPart x.name ∈ lookedUp (localPart x.tagName) →
    ∃ pair ∈ x.before, localPart pair.1 = localPart x.name

variable {x : Insertion} {d d' : Document} {uri : Option String} {i : Nat}

namespace Idle

section

variable (hx : Idle x d) (h : x.Takes d d')

include hx h

theorem attributeValue_shift {name : String} (hname : name ∈ lookedUp (localPart (d.node i).name)) :
    d'.attributeValue (x.shift i) name = d.attributeValue i name := by
  refine h.attributeValue_shift fun hi heq => ?_
  have htag : (d.node i).name = x.tagName := by rw [hi, Xml.Node.name, h.content]
  subst heq
  exact hx.covered (htag ▸ hname)

theorem declared_shift (uri : Option String) (i : Nat) (name : String) :
    declared d' uri (x.shift i) name = (declared d uri i name).map x.shift := by
  simp only [declared, Document.childrenNamed, Document.childElements, h.children_shift, List.filter_map,
    Function.comp_def, h.isElement_shift, h.name_shift, h.namespaceOf_shift (hx.unused _)]

theorem head?_declared_shift (uri : Option String) (i : Nat) (name : String) :
    (declared d' uri (x.shift i) name).head? = ((declared d uri i name).head?).map x.shift := by
  rw [hx.declared_shift h, List.head?_map]

theorem extrasOf_shift (i : Nat) : extrasOf d' (x.shift i) = extrasOf d i := by
  have hpairs : ∀ (d : Document) (i : Nat), attributesOf d i = d.attributePairs i := fun _ _ => rfl
  rw [extrasOf, extrasOf, hpairs, hpairs, h.attributePairs_shift]
  split
  · rename_i hi
    subst hi
    conv_rhs => rw [← List.prefix_iff_eq_append.1 h.before]
    rw [List.filter_append, List.filter_append, List.filter_cons_of_neg (by simp [hx.declares])]
  · rfl

theorem documentationOf_shift (uri : Option String) (i : Nat) :
    documentationOf d' uri (x.shift i) = documentationOf d uri i := by
  rw [documentationOf, documentationOf, hx.head?_declared_shift h]
  cases (declared d uri i "annotation").head? with
  | none => rfl
  | some annotation =>
      have hbelow := hx.head?_declared_shift h uri annotation "documentation"
      simp only [Option.map_some, Option.bind_eq_bind, Option.bind_some, hbelow]
      cases (declared d uri annotation "documentation").head? with
      | none => simp only [Option.map_none, Option.bind_none]
      | some documentation => simp [h.textContent_shift]

theorem facetsOf_shift (i : Nat) : facetsOf d' (x.shift i) = facetsOf d i := by
  have hvalue : ∀ f, d'.attributeValue (x.shift f) "value" = d.attributeValue f "value" :=
    fun f => hx.attributeValue_shift h (value_mem_lookedUp _)
  simp only [facetsOf, Document.childElements, h.children_shift, List.filter_map, List.map_map,
    Function.comp_def, h.isElement_shift, h.name_shift, hvalue]

theorem simpleOf_shift (uri : Option String) (i : Nat) : simpleOf d' uri (x.shift i) = simpleOf d uri i := by
  rw [simpleOf, simpleOf, hx.head?_declared_shift h, Option.map_map]
  cases (declared d uri i "simpleType").head? with
  | none => rfl
  | some simple =>
      simp only [Option.map_some, Function.comp_apply, hx.head?_declared_shift h, Option.map_map]
      cases hrestriction : (declared d uri simple "restriction").head? with
      | none => rfl
      | some r =>
          obtain ⟨-, -, hname, -⟩ := mem_declared.1 (List.mem_of_mem_head? hrestriction)
          have hbase : d'.attributeValue (x.shift r) "base" = d.attributeValue r "base" :=
            hx.attributeValue_shift h (by rw [hname]; decide)
          simp only [Option.map_some, Function.comp_apply, hbase, hx.facetsOf_shift h]

theorem headingOf_shift (uri : Option String) (hi : localPart (d.node i).name = "element") :
    headingOf d' uri (x.shift i) = headingOf d uri i := by
  have hname : d'.attributeValue (x.shift i) "name" = d.attributeValue i "name" :=
    hx.attributeValue_shift h (by rw [hi]; decide)
  have htype : d'.attributeValue (x.shift i) "type" = d.attributeValue i "type" :=
    hx.attributeValue_shift h (by rw [hi]; decide)
  rw [headingOf, headingOf, hname, htype, hx.extrasOf_shift h, hx.documentationOf_shift h, hx.simpleOf_shift h]

theorem scopes_shift (uri : Option String) (i : Nat) :
    scopes d' uri (x.shift i) = (scopes d uri i).map x.shift := by
  simp only [scopes, hx.declared_shift h, List.map_cons, List.map_flatMap, List.flatMap_map]

theorem compositorUnder_shift (uri : Option String) (i : Nat) : compositorUnder d' uri (x.shift i) =
    (compositorUnder d uri i).map fun (compositor, n) => (compositor, x.shift n) := by
  simp only [compositorUnder, hx.head?_declared_shift h, List.map_findSome?, Function.comp_def, Option.map_map]

theorem compositorOf_shift (uri : Option String) (i : Nat) : compositorOf d' uri (x.shift i) =
    (compositorOf d uri i).map fun (compositor, n) => (compositor, x.shift n) := by
  simp only [compositorOf, hx.scopes_shift h, List.findSome?_map, List.map_findSome?, Function.comp_def,
    hx.compositorUnder_shift h]

/-- An element is described as it was, and so are the elements below it. -/
theorem describeElement_shift (uri : Option String) {i : Nat} (hi : localPart (d.node i).name = "element") :
    describeElement d' uri (x.shift i) = describeElement d uri i := by
  rw [describeElement_eq, describeElement_eq, hx.head?_declared_shift h, hx.headingOf_shift h uri hi]
  cases hcomplex : (declared d uri i "complexType").head? with
  | none => rfl
  | some complex =>
      simp only [Option.map_some, hx.compositorOf_shift h]
      cases hcompositor : compositorOf d uri complex with
      | none => rfl
      | some chosen =>
          obtain ⟨compositor, n⟩ := chosen
          have helements : ∀ c ∈ declared d uri n "element",
              describeElement d' uri (x.shift c) = describeElement d uri c := by
            intro c hc
            have hchild := lt_of_mem_declared d hc
            have hbelow := lt_of_compositorOf d hcompositor
            have htype := lt_of_mem_declared d (List.mem_of_mem_head? hcomplex)
            exact describeElement_shift uri (mem_declared.1 hc).2.2.1
          simp only [Option.map_some, hx.declared_shift h, List.map_map]
          rw [List.map_congr_left (f := _ ∘ _) helements]
termination_by d.size - i
decreasing_by omega

/-- The banner and all descriptions stay as they were. -/
theorem describe_eq (hw : d.WellFormed) : describe d' = describe d := by
  obtain ⟨root, hroot, helement⟩ := hw.root
  have hdocument : d.documentElement = some root := by
    rw [Document.documentElement, hroot]
    simp [helement]
  have hdocument' : d'.documentElement = some (x.shift root) := by
    have hchildren := h.children_shift Document.rootId
    rw [h.shift_root, hroot] at hchildren
    rw [Document.documentElement, hchildren]
    simp [h.isElement_shift, helement]
  have hne : root ≠ x.element := by
    obtain ⟨first, hlt, hhead⟩ := h.outer
    rw [hroot] at hhead
    cases hhead
    exact Nat.ne_of_lt hlt
  have hattributes : attributesOf d' (x.shift root) = attributesOf d root :=
    (h.attributePairs_shift root).trans (if_neg hne)
  have hname : rootName d' (x.shift root) = rootName d root := congrArg localPart (h.name_shift root)
  have helements : ∀ uri, (declared d' uri (x.shift root) "element").map (fun i =>
      Entry.element (describeElement d' uri i)) =
        (declared d uri root "element").map fun i => .element (describeElement d uri i) := by
    intro uri
    rw [hx.declared_shift h, List.map_map]
    exact List.map_congr_left fun c hc => congrArg _ (hx.describeElement_shift h uri (mem_declared.1 hc).2.2.1)
  unfold describe
  simp only [hdocument, hdocument', hname, hattributes, h.namespaceOf_shift (hx.unused root), helements]

end

end Idle

/-! ## Documents with one more declaration -/

open Xml (read dropMark)
open Xml.Assembly (readPairs)

/-- Two documents that are read alike, but for a tag below the outermost one: in the second, it binds a prefix
behind the attributes `before`. -/
structure AddedDeclaration (octets octets' : Octets) where
  front : List Event
  back : List Event
  begins : Tag → Event
  tag : Tag
  longer : Tag
  name : String
  before : List (String × String)
  after : List (String × String)
  bound : String
  uri : String
  read_eq : read (dropMark (dropMark octets)) = ⟨front ++ begins tag :: back, none⟩
  read_longer : read (dropMark (dropMark octets')) = ⟨front ++ begins longer :: back, none⟩
  isTag : begins = .opening ∨ begins = .emptyElement
  below : ∃ e ∈ front, e.tag? ≠ none
  readText_name : Xml.readText tag.name = .ok name.toList
  name_longer : longer.name = tag.name
  readPairs_eq : readPairs tag.attributes = .ok (before ++ after)
  readPairs_longer : readPairs longer.attributes = .ok (before ++ ("xmlns:" ++ bound, uri) :: after)

theorem declarationName_injective : Function.Injective declarationName := fun _ _ h =>
  Option.some.inj ((Xml.boundPrefix_eq_some.2 rfl).symm.trans (Xml.boundPrefix_eq_some.2 h))

theorem declaresNamespace_append {p : String} : declaresNamespace ("xmlns:" ++ p) = true := by
  rw [declaresNamespace, Bool.or_eq_true, String.startsWith_string_iff, String.toList_append]
  exact Or.inr (List.prefix_append ..)

/-- One more declaration, of a prefix that is in no name of the document, leaves the banner and all descriptions as
they were, unless its prefix is the local name of an attribute that is looked up on its element, and no attribute of
that local name stands in front of it. -/
theorem describe_declaration {octets octets' : Octets} (a : AddedDeclaration octets octets')
    (h : Document.parse octets = .ok d) (hunused : ∀ i, prefixPart (d.node i).name ≠ some a.bound)
    (hcovered : a.bound ∈ lookedUp (localPart a.name) → ∃ pair ∈ a.before, localPart pair.1 = a.bound) :
    ∃ d', Document.parse octets' = .ok d' ∧ describe d' = describe d := by
  have hw := (Document.wellFormed_of_parse h).1
  rw [Document.parse, a.read_eq] at h
  have hbuilds : Xml.Builds (a.front ++ a.begins a.tag :: a.back) d := (Document.ofReading_eq_ok.1 h).2
  obtain ⟨x, d', htag, hbefore, hname, -, hbuilds', htakes⟩ := Xml.exists_builds_insertion a.isTag a.below
    a.name_longer a.readPairs_eq a.readPairs_longer hbuilds
  have htagName : a.name = x.tagName := String.toList_injective (Except.ok.inj (a.readText_name.symm.trans htag))
  have hlocal : localPart x.name = a.bound := by
    rw [hname]
    exact Xml.localPart_append (p := "xmlns") (by decide)
  have hx : Idle x d := by
    constructor
    case declares =>
      rw [hname]
      exact declaresNamespace_append
    case unused =>
      intro i heq
      have hbound : x.name = declarationName (some a.bound) := hname
      exact hunused i (declarationName_injective (heq.symm.trans hbound))
    case covered =>
      rw [hlocal, ← htagName, hbefore]
      exact hcovered
  refine ⟨d', ?_, hx.describe_eq htakes hw⟩
  rw [Document.parse, a.read_longer]
  exact Document.ofReading_eq_ok.2 ⟨rfl, hbuilds'⟩

/-- A prefix called like an attribute, declared behind the attribute. -/
def declaredBehind : AddedDeclaration (encodeText "<schema><element name='A' id='1'/></schema>")
    (encodeText "<schema><element name='A' xmlns:name='u' id='1'/></schema>") where
  front := [.opening ⟨encodeText "schema"⟩]
  back := [.closing (encodeText "schema")]
  begins := .emptyElement
  tag := ⟨encodeText "element name='A' id='1'"⟩
  longer := ⟨encodeText "element name='A' xmlns:name='u' id='1'"⟩
  name := "element"
  before := [("name", "A")]
  after := [("id", "1")]
  bound := "name"
  uri := "u"
  read_eq := by decide +kernel
  read_longer := by decide +kernel
  isTag := Or.inr rfl
  below := ⟨_, List.mem_cons_self, by decide⟩
  readText_name := by decide +kernel
  name_longer := by decide +kernel
  readPairs_eq := by decide +kernel
  readPairs_longer := by decide +kernel

/-- A prefix that is in no name of the nodes is in no name at all. -/
theorem unused_of_ids {p : String} (h : d.ids.all (fun i => prefixPart (d.node i).name != some p) = true) (i : Nat) :
    prefixPart (d.node i).name ≠ some p := by
  by_cases hi : i < d.size
  · simpa using List.all_eq_true.1 h i (List.mem_range.2 hi)
  · have hnone : prefixPart (Xml.Node.mk (.text "") none [] []).name = none := by decide
    rw [Document.node_of_le (Nat.le_of_not_lt hi), hnone]
    exact (Option.some_ne_none p).symm

theorem describe_declaration_behind : ∃ d d',
    Document.parse (encodeText "<schema><element name='A' id='1'/></schema>") = .ok d ∧
    Document.parse (encodeText "<schema><element name='A' xmlns:name='u' id='1'/></schema>") = .ok d' ∧
    (∀ i, prefixPart (d.node i).name ≠ some "name") ∧ "name" ∈ lookedUp "element" ∧ describe d' = describe d := by
  have hread : (Document.parse (encodeText "<schema><element name='A' id='1'/></schema>")).toOption.map
      (fun d => d.ids.all fun i => prefixPart (d.node i).name != some "name") = some true := by decide +kernel
  cases hd : Document.parse (encodeText "<schema><element name='A' id='1'/></schema>") with
  | error m => simp [hd, Except.toOption] at hread
  | ok d =>
      simp only [hd, Except.toOption, Option.map_some, Option.some.injEq] at hread
      obtain ⟨d', hd', hsame⟩ := describe_declaration declaredBehind hd (unused_of_ids hread) fun _ =>
        ⟨("name", "A"), List.mem_cons_self, by decide⟩
      exact ⟨d, d', rfl, hd', unused_of_ids hread, by decide, hsame⟩

/-- In front of the attribute, the declaration is taken for the name of the element. -/
theorem describe_declaration_in_front : ∃ d d',
    Document.parse (encodeText "<schema><element name='A'/></schema>") = .ok d ∧
    Document.parse (encodeText "<schema><element xmlns:name='u' name='A'/></schema>") = .ok d' ∧
    (∀ i, prefixPart (d.node i).name ≠ some "name") ∧
    (describe d).toOption.map (·.map Entry.name) = some ["schema", "A"] ∧
    (describe d').toOption.map (·.map Entry.name) = some ["schema", "u"] := by
  have hread : (Document.parse (encodeText "<schema><element name='A'/></schema>")).toOption.map
      (fun d => (d.ids.all fun i => prefixPart (d.node i).name != some "name",
        (describe d).toOption.map (·.map Entry.name))) = some (true, some ["schema", "A"]) := by decide +kernel
  have hread' : (Document.parse (encodeText "<schema><element xmlns:name='u' name='A'/></schema>")).toOption.map
      (fun d => (describe d).toOption.map (·.map Entry.name)) = some (some ["schema", "u"]) := by decide +kernel
  cases hd : Document.parse (encodeText "<schema><element name='A'/></schema>") with
  | error m => simp [hd, Except.toOption] at hread
  | ok d =>
      cases hd' : Document.parse (encodeText "<schema><element xmlns:name='u' name='A'/></schema>") with
      | error m => simp [hd', Except.toOption] at hread'
      | ok d' =>
          simp only [hd, Except.toOption, Option.map_some, Option.some.injEq, Prod.mk.injEq] at hread
          simp only [hd', Except.toOption, Option.map_some, Option.some.injEq] at hread'
          exact ⟨d, d', rfl, rfl, unused_of_ids hread.1, hread.2, hread'⟩

end Schema

end Interchange
