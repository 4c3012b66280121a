import Interchange.Schema.Description
import Interchange.Xml.Assembly

/-!
Describing a schema document: its root, and each element declared at the top, with what is declared
directly below it. Only names in the namespace of the root count, facets apart.
-/

namespace Interchange.Schema

open Xml (Document Malformed localPart declaresNamespace)
open Text.Utf8 (Octets)

/-- Why a document is no schema. -/
inductive FormatFlaw where
  | noRoot
  | otherRoot (name : String)
  deriving DecidableEq, Repr

def FormatFlaw.message : FormatFlaw → String
  | .noRoot => "document has no root element"
  | .otherRoot name => "expected a schema root element, found '" ++ name ++ "'"

/-- A place in a list sorted by key; the last value of a key counts. -/
def putSorted (key value : String) : List (String × String) → List (String × String)
  | [] => [(key, value)]
  | (k, v) :: rest =>
    if key < k then (key, value) :: (k, v) :: rest
    else if key = k then (key, value) :: rest
    else (k, v) :: putSorted key value rest

def sortAttributes (attributes : List (String × String)) : List (String × String) :=
  attributes.foldl (fun sorted (name, value) => putSorted (localPart name) value sorted) []

section

variable (d : Document)

/-- The attributes of a node, by qualified name. -/
def attributesOf (i : Nat) : List (String × String) :=
  (d.node i).attributes.map fun a => ((d.node a).name, (d.node a).value.getD "")

/-- The element children of a local name and a namespace. -/
def declared (uri : Option String) (i : Nat) (name : String) : List Nat :=
  (d.childrenNamed i name).filter fun c => d.namespaceOf c == uri

theorem lt_of_mem_declared {uri : Option String} {i c : Nat} {name : String}
    (h : c ∈ declared d uri i name) : i < c ∧ c < d.size := by
  simp only [declared, Document.childrenNamed, Document.childElements, List.mem_filter] at h
  exact Document.lt_of_mem_children h.1.1.1

/-- The nodes under which the compositor of a complex type is looked for: the type itself, then the
extensions and restrictions in its content. -/
def scopes (uri : Option String) (complex : Nat) : List Nat :=
  complex :: ["complexContent", "simpleContent"].flatMap fun content =>
    (declared d uri complex content).flatMap fun m =>
      ["extension", "restriction"].flatMap fun derivation => declared d uri m derivation

theorem le_of_mem_scopes {uri : Option String} {complex s : Nat} (h : s ∈ scopes d uri complex) :
    complex ≤ s := by
  simp only [scopes, List.mem_cons, List.mem_flatMap] at h
  rcases h with rfl | ⟨_, _, m, hm, _, _, hs⟩
  · exact Nat.le_refl _
  · have := lt_of_mem_declared d hm
    have := lt_of_mem_declared d hs
    omega

/-- The first compositor directly under a node, sequences before choices before all. -/
def compositorUnder (uri : Option String) (scope : Nat) : Option (Compositor × Nat) :=
  [Compositor.sequence, .choice, .all].findSome? fun c =>
    (declared d uri scope c.name).head?.map fun n => (c, n)

/-- The compositor of a complex type. -/
def compositorOf (uri : Option String) (complex : Nat) : Option (Compositor × Nat) :=
  (scopes d uri complex).findSome? (compositorUnder d uri)

theorem lt_of_compositorOf {uri : Option String} {complex n : Nat} {c : Compositor}
    (h : compositorOf d uri complex = some (c, n)) : complex < n := by
  obtain ⟨s, hs, h⟩ := List.exists_of_findSome?_eq_some h
  obtain ⟨k, _, h⟩ := List.exists_of_findSome?_eq_some h
  obtain ⟨m, hm, he⟩ := Option.map_eq_some_iff.1 h
  have := le_of_mem_scopes d hs
  have := lt_of_mem_declared d (List.mem_of_mem_head? hm)
  simp only [Prod.mk.injEq] at he
  omega

/-- The attributes of an element that are neither its name nor its type, nor declare a namespace, nor
are empty. -/
def extrasOf (i : Nat) : List (String × String) :=
  sortAttributes <| (attributesOf d i).filter fun (name, value) =>
    !declaresNamespace name && localPart name != "name" && localPart name != "type" && !value.isEmpty

def documentationOf (uri : Option String) (i : Nat) : Option String := do
  let annotation ← (declared d uri i "annotation").head?
  let documentation ← (declared d uri annotation "documentation").head?
  return Text.trim (d.textContent documentation)

/-- The facets of a restriction: all elements in it, whatever their namespace. -/
def facetsOf (restriction : Nat) : List Facet :=
  (d.childElements restriction).map fun f =>
    ⟨localPart (d.node f).name, (d.attributeValue f "value").getD ""⟩

def simpleOf (uri : Option String) (i : Nat) : Option (Option Restriction) :=
  (declared d uri i "simpleType").head?.map fun simple =>
    (declared d uri simple "restriction").head?.map fun r =>
      ⟨d.attributeValue r "base", facetsOf d r⟩

def headingOf (uri : Option String) (i : Nat) : Heading where
  name := (d.attributeValue i "name").getD ""
  typeName := (d.attributeValue i "type").filter fun t => !t.isEmpty
  extras := extrasOf d i
  documentation := documentationOf d uri i
  simple := simpleOf d uri i

/-- Describes an element and, under its compositor, the elements below it. -/
def describeElement (uri : Option String) (i : Nat) : Description :=
  match hc : (declared d uri i "complexType").head? with
  | none => .plain (headingOf d uri i)
  | some complex =>
    match hm : compositorOf d uri complex with
    | none => .bare (headingOf d uri i)
    | some (compositor, node) =>
      .model (headingOf d uri i) compositor <|
        (declared d uri node "element").attach.map fun ⟨c, h⟩ =>
          have := lt_of_mem_declared d (List.mem_of_mem_head? hc)
          have := lt_of_compositorOf d hm
          have := lt_of_mem_declared d h
          describeElement uri c
termination_by d.size - i
decreasing_by omega

/-- The local name of the outermost element. -/
def rootName (root : Nat) : String := localPart (d.node root).name

def describe : Except FormatFlaw (List Entry) :=
  match d.documentElement with
  | none => .error .noRoot
  | some root =>
    if rootName d root = "schema" then
      let uri := d.namespaceOf root
      let banner := Banner.mk (rootName d root) uri (sortAttributes (attributesOf d root))
      .ok (.banner banner ::
        (declared d uri root "element").map fun i => .element (describeElement d uri i))
    else .error (.otherRoot (rootName d root))

end

end Interchange.Schema
