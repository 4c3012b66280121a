import Mathlib.Data.List.Lex
import Interchange.Proofs.Numbering
import Interchange.Schema.Survey

/-!
# What a schema is described by

The description of a schema lists the elements that it declares, and under an element those that its compositor
declares, down to any depth. It says so of each node at most once (`describe_by_declarations`).
-/

namespace Interchange.Schema

open Xml (Document localPart)

variable {d : Document} {uri : Option String} {i c n s complex : Nat} {name : String} {nodes : List Nat}

/-! ## Firsts of sorted lists -/

section

variable {α β κ : Type} [Preorder κ] {key : α → κ} {f : α → Option β} {l : List α} {b : β}

/-- In a sorted list the first hit is the hit in front of which, by key, there are none. -/
theorem findSome?_of_pairwise (h : l.Pairwise fun x y => key x < key y) :
    l.findSome? f = some b ↔ ∃ a ∈ l, f a = some b ∧ ∀ x ∈ l, key x < key a → f x = none := by
  rw [List.findSome?_eq_some_iff]
  constructor
  · rintro ⟨front, a, back, rfl, ha, hfront⟩
    obtain ⟨_, hback, _⟩ := List.pairwise_append.1 h
    refine ⟨a, by simp, ha, fun x hx hlt => ?_⟩
    rcases List.mem_append.1 hx with hx | hx
    · exact hfront x hx
    rcases List.mem_cons.1 hx with rfl | hx
    · exact absurd hlt (lt_irrefl _)
    · exact absurd hlt (lt_asymm (List.rel_of_pairwise_cons hback hx))
  · rintro ⟨a, ha, hb, hbefore⟩
    obtain ⟨front, back, rfl⟩ := List.append_of_mem ha
    exact ⟨front, a, back, rfl, hb, fun x hx =>
      hbefore x (by simp [hx]) ((List.pairwise_append.1 h).2.2 x hx a (by simp))⟩

end

theorem head?_of_pairwise (h : nodes.Pairwise (· < ·)) :
    nodes.head? = some c ↔ c ∈ nodes ∧ ∀ n ∈ nodes, c ≤ n := by
  cases nodes with
  | nil => simp
  | cons first rest =>
      obtain ⟨hfirst, _⟩ := List.pairwise_cons.1 h
      rw [List.head?_cons, Option.some.injEq]
      constructor
      · rintro rfl
        exact ⟨List.mem_cons_self, fun n hn => (List.mem_cons.1 hn).elim (·.ge) fun hn => (hfirst n hn).le⟩
      · rintro ⟨hc, hleast⟩
        exact Nat.le_antisymm ((List.mem_cons.1 hc).elim (·.ge) fun hc => (hfirst c hc).le)
          (hleast first List.mem_cons_self)

/-! ## Child elements of a name -/

/-- Node `c` is a child element of node `i`, of a local name and of the namespace at hand. -/
def Declares (d : Document) (uri : Option String) (i : Nat) (name : String) (c : Nat) : Prop :=
  c ∈ (d.node i).children ∧ (d.node c).isElement ∧ localPart (d.node c).name = name ∧ d.namespaceOf c = uri

/-- The first such child. -/
def DeclaresFirst (d : Document) (uri : Option String) (i : Nat) (name : String) (c : Nat) : Prop :=
  Declares d uri i name c ∧ ∀ other, Declares d uri i name other → c ≤ other

/-- All such children, in document order. -/
def DeclaresAll (d : Document) (uri : Option String) (i : Nat) (name : String) (nodes : List Nat) : Prop :=
  nodes.Pairwise (· < ·) ∧ ∀ c, c ∈ nodes ↔ Declares d uri i name c

theorem mem_declared : c ∈ declared d uri i name ↔ Declares d uri i name c := by
  simp only [declared, Document.childrenNamed, Document.childElements, List.mem_filter, beq_iff_eq, Declares,
    and_assoc]

theorem declaresAll_declared (hd : d.Arranged) : DeclaresAll d uri i name (declared d uri i name) := by
  refine ⟨?_, fun c => mem_declared⟩
  have hchildren : (d.node i).children.Pairwise (· < ·) := by
    rw [show (d.node i).children = _ from hd.listed .child i]
    exact List.pairwise_lt_range.filter _
  exact ((hchildren.filter _).filter _).filter _

theorem declaresAll_iff (hd : d.Arranged) : DeclaresAll d uri i name nodes ↔ nodes = declared d uri i name := by
  have hdeclared : DeclaresAll d uri i name _ := declaresAll_declared hd
  constructor
  · rintro ⟨hsorted, hmem⟩
    have hperm : nodes.Perm (declared d uri i name) :=
      (List.perm_ext_iff_of_nodup hsorted.nodup hdeclared.1.nodup).2 fun c => (hmem c).trans mem_declared.symm
    exact hperm.eq_of_pairwise (fun a b _ _ hab hba => absurd hba hab.asymm) hsorted hdeclared.1
  · rintro rfl
    exact hdeclared

theorem declared_head?_eq_some (hd : d.Arranged) :
    (declared d uri i name).head? = some c ↔ DeclaresFirst d uri i name c := by
  simp only [head?_of_pairwise (declaresAll_declared hd).1, mem_declared, DeclaresFirst]

theorem declared_head?_eq_none :
    (declared d uri i name).head? = none ↔ ∀ c, ¬ Declares d uri i name c := by
  simp only [List.head?_eq_none_iff, List.eq_nil_iff_forall_not_mem, mem_declared]

/-! ## Compositors -/

/-- Sequences are preferred to choices, and these to all. -/
def Compositor.rank : Compositor → Nat
  | sequence => 0
  | choice => 1
  | all => 2

theorem Compositor.mem_kinds (compositor : Compositor) : compositor ∈ [Compositor.sequence, .choice, .all] := by
  cases compositor <;> decide

/-- There is a compositor directly under a node. -/
def HasCompositor (d : Document) (uri : Option String) (s : Nat) : Prop :=
  ∃ (compositor : Compositor) (n : Nat), Declares d uri s compositor.name n

/-- The first compositor of the preferred kind directly under a node. -/
def Prefers (d : Document) (uri : Option String) (s : Nat) (compositor : Compositor) (n : Nat) : Prop :=
  DeclaresFirst d uri s compositor.name n ∧
    ∀ other : Compositor, other.rank < compositor.rank → ∀ m, ¬ Declares d uri s other.name m

theorem compositorUnder_eq_some (hd : d.Arranged) {compositor : Compositor} :
    compositorUnder d uri s = some (compositor, n) ↔ Prefers d uri s compositor n := by
  have hsorted : [Compositor.sequence, .choice, .all].Pairwise fun x y => x.rank < y.rank := by decide
  rw [compositorUnder, findSome?_of_pairwise hsorted]
  simp only [Compositor.mem_kinds, true_and, forall_const, Option.map_eq_some_iff, Option.map_eq_none_iff, Prod.mk.injEq,
    declared_head?_eq_some hd, declared_head?_eq_none, Prefers]
  constructor
  · rintro ⟨_, ⟨_, hfirst, rfl, rfl⟩, hothers⟩
    exact ⟨hfirst, hothers⟩
  · rintro ⟨hfirst, hothers⟩
    exact ⟨compositor, ⟨n, hfirst, rfl, rfl⟩, hothers⟩

theorem compositorUnder_eq_none : compositorUnder d uri s = none ↔ ¬ HasCompositor d uri s := by
  simp only [compositorUnder, List.findSome?_eq_none_iff, Compositor.mem_kinds, forall_const,
    Option.map_eq_none_iff, declared_head?_eq_none, HasCompositor, not_exists]

/-! ## Scopes -/

/-- The nodes under which the compositor of a complex type is looked for, each with its place in the order: the
type itself, then what is derived in its contents. -/
inductive Scope (d : Document) (uri : Option String) (complex : Nat) : List Nat → Nat → Prop
  | type : Scope d uri complex [] complex
  | derived {k m j s : Nat} {content derivation : String}
      (hcontent : ["complexContent", "simpleContent"][k]? = some content) (hm : Declares d uri complex content m)
      (hderivation : ["extension", "restriction"][j]? = some derivation) (hs : Declares d uri m derivation s) :
      Scope d uri complex [k, m, j, s] s

/-- The compositor of a complex type: the preferred one in the first scope that has any. -/
def Composes (d : Document) (uri : Option String) (complex : Nat) (compositor : Compositor) (n : Nat) : Prop :=
  ∃ place s, Scope d uri complex place s ∧ Prefers d uri s compositor n ∧
    ∀ earlier other, Scope d uri complex earlier other → earlier < place → ¬ HasCompositor d uri other

/-- Nodes under members of a list, the key of the member in front of each place. -/
def keyed {α : Type} (key : α → Nat) (below : α → List (List Nat × Nat)) (l : List α) :
    List (List Nat × Nat) :=
  l.flatMap fun a => (below a).map fun x => (key a :: x.1, x.2)

section

variable {α : Type} {key : α → Nat} {below : α → List (List Nat × Nat)} {l : List α}

theorem mem_keyed {place : List Nat} :
    (place, s) ∈ keyed key below l ↔ ∃ a ∈ l, ∃ rest, (rest, s) ∈ below a ∧ key a :: rest = place := by
  simp [keyed]

theorem pairwise_keyed (hl : l.Pairwise fun a b => key a < key b)
    (hbelow : ∀ a ∈ l, (below a).Pairwise fun x y => x.1 < y.1) :
    (keyed key below l).Pairwise fun x y => x.1 < y.1 := by
  refine List.pairwise_flatMap.2 ⟨fun a ha => List.pairwise_map.2 ((hbelow a ha).imp fun hxy => ?_),
    hl.imp fun hab x hx y hy => ?_⟩
  · exact List.cons_lt_cons_iff.2 (Or.inr ⟨rfl, hxy⟩)
  · obtain ⟨_, _, rfl⟩ := List.mem_map.1 hx
    obtain ⟨_, _, rfl⟩ := List.mem_map.1 hy
    exact List.cons_lt_cons_iff.2 (Or.inl hab)

end

/-- The scopes of a complex type with their places. -/
def placedScopes (d : Document) (uri : Option String) (complex : Nat) : List (List Nat × Nat) :=
  ([], complex) :: keyed (·.2)
    (fun (content, _) => keyed id
      (fun m => keyed (·.2)
        (fun (derivation, _) => keyed id (fun s => [([], s)]) (declared d uri m derivation))
        ["extension", "restriction"].zipIdx)
      (declared d uri complex content))
    ["complexContent", "simpleContent"].zipIdx

theorem scopes_eq (d : Document) (uri : Option String) (complex : Nat) :
    scopes d uri complex = (placedScopes d uri complex).map (·.2) := by
  simp [scopes, placedScopes, keyed, List.map_flatMap]

theorem mem_placedScopes {place : List Nat} :
    (place, s) ∈ placedScopes d uri complex ↔ Scope d uri complex place s := by
  simp only [placedScopes, List.mem_cons, Prod.mk.injEq, mem_keyed, Prod.exists, mem_declared,
    List.mk_mem_zipIdx_iff_getElem?, List.not_mem_nil, or_false]
  constructor
  · rintro (⟨rfl, rfl⟩ | ⟨content, k, hcontent, _, ⟨m, hm, _, ⟨derivation, j, hderivation, _,
      ⟨_, hs, _, ⟨rfl, rfl⟩, rfl⟩, rfl⟩, rfl⟩, rfl⟩)
    · exact .type
    · exact .derived hcontent hm hderivation hs
  · rintro (_ | ⟨hcontent, hm, hderivation, hs⟩)
    · exact Or.inl ⟨rfl, rfl⟩
    · exact Or.inr ⟨_, _, hcontent, _, ⟨_, hm, _, ⟨_, _, hderivation, _, ⟨_, hs, _, ⟨rfl, rfl⟩, rfl⟩, rfl⟩, rfl⟩, rfl⟩

theorem pairwise_placedScopes (hd : d.Arranged) :
    (placedScopes d uri complex).Pairwise fun x y => x.1 < y.1 := by
  refine List.pairwise_cons.2 ⟨fun x hx => ?_, pairwise_keyed (by simp) fun content _ =>
    pairwise_keyed (declaresAll_declared hd).1 fun m _ => pairwise_keyed (by simp) fun derivation _ =>
      pairwise_keyed (declaresAll_declared hd).1 fun _ _ => List.pairwise_singleton _ _⟩
  obtain ⟨_, _, _, _, hplace⟩ := mem_keyed.1 hx
  rw [← hplace]
  exact List.nil_lt_cons _ _

theorem compositorOf_eq_some (hd : d.Arranged) {compositor : Compositor} :
    compositorOf d uri complex = some (compositor, n) ↔ Composes d uri complex compositor n := by
  rw [compositorOf, scopes_eq, List.findSome?_map, findSome?_of_pairwise (pairwise_placedScopes hd)]
  simp only [Prod.exists, mem_placedScopes, Function.comp_apply, compositorUnder_eq_some hd,
    compositorUnder_eq_none, Prod.forall, Composes]

theorem compositorOf_eq_none : compositorOf d uri complex = none ↔
    ∀ place s, Scope d uri complex place s → ¬ HasCompositor d uri s := by
  rw [compositorOf, scopes_eq, List.findSome?_map, List.findSome?_eq_none_iff]
  simp only [Prod.forall, mem_placedScopes, Function.comp_apply, compositorUnder_eq_none]

/-! ## Descriptions -/

mutual

/-- A description of an element, and the nodes that it is about, the element first. -/
inductive Describes (d : Document) (uri : Option String) : Nat → Description → List Nat → Prop
  | plain {i : Nat} (hnone : ∀ c, ¬ Declares d uri i "complexType" c) :
      Describes d uri i (.plain (headingOf d uri i)) [i]
  | bare {i complex : Nat} (hcomplex : DeclaresFirst d uri i "complexType" complex)
      (hnone : ∀ place s, Scope d uri complex place s → ¬ HasCompositor d uri s) :
      Describes d uri i (.bare (headingOf d uri i)) [i]
  | model {i complex n : Nat} {compositor : Compositor} {nodes described : List Nat} {elements : List Description}
      (hcomplex : DeclaresFirst d uri i "complexType" complex) (hcomposes : Composes d uri complex compositor n)
      (hnodes : DeclaresAll d uri n "element" nodes) (helements : DescribesAll d uri nodes elements described) :
      Describes d uri i (.model (headingOf d uri i) compositor elements) (i :: described)

/-- Descriptions of several elements, one of each, and the nodes that they are about. -/
inductive DescribesAll (d : Document) (uri : Option String) : List Nat → List Description → List Nat → Prop
  | nil : DescribesAll d uri [] [] []
  | cons {i : Nat} {nodes described others : List Nat} {x : Description} {xs : List Description}
      (hfirst : Describes d uri i x described) (hrest : DescribesAll d uri nodes xs others) :
      DescribesAll d uri (i :: nodes) (x :: xs) (described ++ others)

end

/-! ## What is described -/

theorem describeElement_eq (d : Document) (uri : Option String) (i : Nat) : describeElement d uri i =
    match (declared d uri i "complexType").head? with
    | none => .plain (headingOf d uri i)
    | some complex =>
      match compositorOf d uri complex with
      | none => .bare (headingOf d uri i)
      | some (compositor, n) => .model (headingOf d uri i) compositor
        ((declared d uri n "element").map (describeElement d uri)) := by
  rw [describeElement]
  split <;> rename_i hcomplex
  · rw [hcomplex]
  · split <;> rename_i hcompositor
    · simp only [hcomplex, hcompositor]
    · simp only [hcomplex, hcompositor, List.map_subtype, List.unattach_attach]

theorem exists_describesAll {f : Nat → Description}
    (h : ∀ c ∈ nodes, ∃ described, Describes d uri c (f c) described) :
    ∃ described, DescribesAll d uri nodes (nodes.map f) described := by
  induction nodes with
  | nil => exact ⟨[], .nil⟩
  | cons c nodes ih =>
      obtain ⟨described, hfirst⟩ := h c List.mem_cons_self
      obtain ⟨others, hrest⟩ := ih fun n hn => h n (List.mem_cons_of_mem _ hn)
      exact ⟨described ++ others, .cons hfirst hrest⟩

/-- Each element has its description. -/
theorem exists_describes (hd : d.Arranged) (i : Nat) :
    ∃ described, Describes d uri i (describeElement d uri i) described := by
  rw [describeElement_eq]
  cases hcomplex : (declared d uri i "complexType").head? with
  | none => exact ⟨_, .plain (declared_head?_eq_none.1 hcomplex)⟩
  | some complex =>
      have hfirst := (declared_head?_eq_some hd).1 hcomplex
      simp only
      cases hcompositor : compositorOf d uri complex with
      | none => exact ⟨_, .bare hfirst (compositorOf_eq_none.1 hcompositor)⟩
      | some chosen =>
          obtain ⟨compositor, n⟩ := chosen
          have helements : ∀ c ∈ declared d uri n "element",
              ∃ described, Describes d uri c (describeElement d uri c) described := by
            intro c hc
            have hchild := lt_of_mem_declared d hc
            have hbelow := lt_of_compositorOf d hcompositor
            have htype := lt_of_mem_declared d (List.mem_of_mem_head? hcomplex)
            exact exists_describes hd c
          obtain ⟨described, hall⟩ := exists_describesAll helements
          exact ⟨_, .model hfirst ((compositorOf_eq_some hd).1 hcompositor) (declaresAll_declared hd) hall⟩
termination_by d.size - i
decreasing_by omega

mutual
theorem Describes.eq {i : Nat} {x : Description} {described : List Nat} (hd : d.Arranged)
    (h : Describes d uri i x described) : x = describeElement d uri i := by
  rw [describeElement_eq]
  match h with
  | .plain hnone => rw [declared_head?_eq_none.2 hnone]
  | .bare hcomplex hnone => simp only [(declared_head?_eq_some hd).2 hcomplex, compositorOf_eq_none.2 hnone]
  | .model hcomplex hcomposes hnodes helements =>
      simp only [(declared_head?_eq_some hd).2 hcomplex, (compositorOf_eq_some hd).2 hcomposes,
        ← (declaresAll_iff hd).1 hnodes, helements.eq hd]

theorem DescribesAll.eq {nodes : List Nat} {xs : List Description} {described : List Nat} (hd : d.Arranged)
    (h : DescribesAll d uri nodes xs described) : xs = nodes.map (describeElement d uri) := by
  match h with
  | .nil => rfl
  | .cons hfirst hrest => rw [List.map_cons, hfirst.eq hd, hrest.eq hd]
end

/-! ## No node is described twice -/

theorem Declares.parent (hd : d.Arranged) (h : Declares d uri i name c) : (d.node c).parent = some i :=
  hd.parent_eq_some.2 (List.mem_append_right _ h.1)

theorem Scope.below {place : List Nat} (hd : d.Arranged) (h : Scope d uri complex place s) : d.Below complex s := by
  cases h with
  | type => exact .refl
  | derived _ hm _ hs => exact .tail (.single (hm.parent hd)) (hs.parent hd)

theorem Composes.below {compositor : Compositor} (hd : d.Arranged) (h : Composes d uri complex compositor n) :
    d.Below complex n := by
  obtain ⟨_, _, hscope, ⟨⟨hn, _⟩, _⟩, _⟩ := h
  exact .tail (hscope.below hd) (hn.parent hd)

mutual
theorem Describes.below_of_mem {i : Nat} {x : Description} {described : List Nat} (hd : d.Arranged)
    (h : Describes d uri i x described) : ∀ m ∈ described, d.Below i m := by
  intro m hm
  match h with
  | .plain _ | .bare _ _ =>
      rw [List.mem_singleton.1 hm]
      exact .refl
  | .model hcomplex hcomposes hnodes helements =>
      rcases List.mem_cons.1 hm with rfl | hm
      · exact .refl
      · obtain ⟨c, hc, hcm⟩ := helements.below_of_mem hd m hm
        have hchild := ((hnodes.2 c).1 hc).parent hd
        exact .trans (.head (hcomplex.1.parent hd) (.tail (hcomposes.below hd) hchild)) hcm

theorem DescribesAll.below_of_mem {nodes : List Nat} {xs : List Description} {described : List Nat}
    (hd : d.Arranged) (h : DescribesAll d uri nodes xs described) : ∀ m ∈ described, ∃ c ∈ nodes, d.Below c m := by
  intro m hm
  match h with
  | .nil => cases hm
  | .cons hfirst hrest =>
      rcases List.mem_append.1 hm with hm | hm
      · exact ⟨_, List.mem_cons_self, hfirst.below_of_mem hd m hm⟩
      · obtain ⟨c, hc, hcm⟩ := hrest.below_of_mem hd m hm
        exact ⟨c, List.mem_cons_of_mem _ hc, hcm⟩
end

mutual
theorem Describes.nodup {i : Nat} {x : Description} {described : List Nat} (hd : d.Arranged)
    (h : Describes d uri i x described) : described.Nodup := by
  match h with
  | .plain _ | .bare _ _ => exact List.nodup_singleton _
  | .model hcomplex hcomposes hnodes helements =>
      have hparent : ∀ c ∈ _, (d.node c).parent = some _ := fun c hc => ((hnodes.2 c).1 hc).parent hd
      refine List.nodup_cons.2 ⟨fun hi => ?_, helements.nodup hd hnodes.1.nodup hparent⟩
      obtain ⟨c, hc, hci⟩ := helements.below_of_mem hd _ hi
      -- from the element down to the child on the way the numbers grow
      have htype := Document.parent_lt (hcomplex.1.parent hd)
      have hcompositor := (hcomposes.below hd).le
      have hchild := Document.parent_lt (hparent c hc)
      exact absurd hci.le (by omega)

theorem DescribesAll.nodup {p : Nat} {nodes : List Nat} {xs : List Description} {described : List Nat}
    (hd : d.Arranged) (h : DescribesAll d uri nodes xs described) (hnodes : nodes.Nodup)
    (hparent : ∀ c ∈ nodes, (d.node c).parent = some p) : described.Nodup := by
  match h with
  | .nil => exact List.nodup_nil
  | .cons hfirst hrest =>
      obtain ⟨hi, hnodes⟩ := List.nodup_cons.1 hnodes
      have hothers := fun c hc => hparent c (List.mem_cons_of_mem _ hc)
      refine List.nodup_append.2 ⟨hfirst.nodup hd, hrest.nodup hd hnodes hothers, fun m hm o ho heq => ?_⟩
      obtain ⟨c, hc, hco⟩ := hrest.below_of_mem hd o ho
      have hsame := Document.Below.unique (hparent _ List.mem_cons_self) (hothers c hc)
        (hfirst.below_of_mem hd m hm) (heq ▸ hco)
      exact hi (hsame ▸ hc)
end

/-! ## Schemas -/

theorem describe_eq_ok {entries : List Entry} : describe d = .ok entries ↔
    ∃ root, d.documentElement = some root ∧ localPart (d.node root).name = "schema" ∧
      entries = .banner ⟨"schema", d.namespaceOf root, sortAttributes (attributesOf d root)⟩ ::
        ((declared d (d.namespaceOf root) root "element").map
          (describeElement d (d.namespaceOf root))).map .element := by
  unfold describe rootName
  cases hroot : d.documentElement with
  | none => simp
  | some root =>
      by_cases hname : localPart (d.node root).name = "schema"
      · simp [hname, Function.comp_def, eq_comm]
      · simp [hname]

/-- The descriptions of the elements that are declared under a node. -/
theorem declaresAll_describesAll (hd : d.Arranged) {elements : List Description} :
    (∃ nodes described, DeclaresAll d uri i name nodes ∧ DescribesAll d uri nodes elements described ∧
      described.Nodup) ↔ elements = (declared d uri i name).map (describeElement d uri) := by
  constructor
  · rintro ⟨nodes, described, hnodes, helements, -⟩
    rw [helements.eq hd, (declaresAll_iff hd).1 hnodes]
  · rintro rfl
    have hnodes : DeclaresAll d uri i name _ := declaresAll_declared hd
    obtain ⟨described, hall⟩ := exists_describesAll fun c (_ : c ∈ declared d uri i name) => exists_describes hd c
    exact ⟨_, described, hnodes, hall, hall.nodup hd hnodes.1.nodup fun c hc => ((hnodes.2 c).1 hc).parent hd⟩

/-- A document that can be read is a schema when its outermost element is called so. Its description is a banner
and behind it one description of each element that is declared directly below the outermost one, in document
order; under an element with a complex type there are, if the type has a compositor, the descriptions of the
elements declared directly below this one, in document order, and so on down. All are about different nodes. -/
theorem describe_by_declarations {octets : Text.Utf8.Octets} (h : Document.parse octets = .ok d) :
    ((∃ entries, describe d = .ok entries) ↔
      ∃ root, d.documentElement = some root ∧ localPart (d.node root).name = "schema") ∧
    ∀ entries, describe d = .ok entries ↔ ∃ root nodes elements described,
      d.documentElement = some root ∧ localPart (d.node root).name = "schema" ∧
      entries = .banner ⟨"schema", d.namespaceOf root, sortAttributes (attributesOf d root)⟩ ::
        elements.map .element ∧
      DeclaresAll d (d.namespaceOf root) root "element" nodes ∧
      DescribesAll d (d.namespaceOf root) nodes elements described ∧ described.Nodup := by
  have hd : d.Arranged := .of_parse h
  refine ⟨⟨?_, ?_⟩, fun entries => ?_⟩
  · rintro ⟨entries, hentries⟩
    obtain ⟨root, hroot, hname, _⟩ := describe_eq_ok.1 hentries
    exact ⟨root, hroot, hname⟩
  · rintro ⟨root, hroot, hname⟩
    exact ⟨_, describe_eq_ok.2 ⟨root, hroot, hname, rfl⟩⟩
  · rw [describe_eq_ok]
    constructor
    · rintro ⟨root, hroot, hname, rfl⟩
      obtain ⟨nodes, described, hnodes, hall, hnodup⟩ := (declaresAll_describesAll hd).2 rfl
      exact ⟨root, nodes, _, described, hroot, hname, rfl, hnodes, hall, hnodup⟩
    · rintro ⟨root, nodes, elements, described, hroot, hname, rfl, hnodes, hall, hnodup⟩
      refine ⟨root, hroot, hname, ?_⟩
      rw [(declaresAll_describesAll hd).1 ⟨nodes, described, hnodes, hall, hnodup⟩]

theorem describe_by_declarations_choice :
    let octets := Text.Utf8.encodeText
      "<schema><element name='a'><complexType><all/><choice><element/></choice></complexType></element></schema>"
    ∃ d entries, Document.parse octets = .ok d ∧ describe d = .ok entries ∧
      entries.map (fun x => (x.name, x.childCount)) = [("schema", none), ("a", some 1)] ∧
      ∃ root nodes elements described, d.documentElement = some root ∧
        DeclaresAll d (d.namespaceOf root) root "element" nodes ∧
        DescribesAll d (d.namespaceOf root) nodes elements described ∧ described.Nodup := by
  intro octets
  have hread : (Document.parse octets).toOption.map
      (fun d => (describe d).toOption.map (·.map fun x => (x.name, x.childCount))) =
        some (some [("schema", none), ("a", some 1)]) := by decide +kernel
  cases hd : Document.parse octets with
  | error m => simp [hd, Except.toOption] at hread
  | ok d =>
      cases hentries : describe d with
      | error flaw => simp [hd, hentries, Except.toOption] at hread
      | ok entries =>
          obtain ⟨root, nodes, elements, described, hroot, _, _, hnodes, hall, hnodup⟩ :=
            ((describe_by_declarations hd).2 entries).1 hentries
          exact ⟨d, entries, rfl, hentries, by simpa [hd, hentries, Except.toOption] using hread, root, nodes,
            elements, described, hroot, hnodes, hall, hnodup⟩

end Interchange.Schema
