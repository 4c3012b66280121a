import Interchange.Path.Reading
import Interchange.Xml.Document

/-!
What a path selects in a document: the nodes that a chain of steps leads to, in document order and each
once. A predicate sees what the predicates in front of it left over, and positions count among that.
-/

namespace Interchange

open Xml (Document)

namespace Path

/-- A name without a colon stands for every name with that local part, one with a colon for itself. -/
def nameMatches (test qualified : String) : Bool :=
  if test.toList.contains ':' then test == qualified else Xml.localPart qualified == test

/-- The nodes that an operand stands for at a node, by the texts they hold. -/
def Operand.values (d : Document) (i : Nat) : Operand → List String
  | .context => [d.textContent i]
  | .attr name =>
    ((d.node i).attributes.filter fun a => nameMatches name (d.node a).name).filterMap
      fun a => (d.node a).value
  | .child name =>
    ((d.childElements i).filter fun c => nameMatches name (d.node c).name).map d.textContent

/-- The candidates that satisfy a predicate. -/
def Predicate.select (d : Document) (candidates : List Nat) : Predicate → List Nat
  | .position p => candidates[p - 1]?.toList
  | .last => candidates.getLast?.toList
  | .holds operand => candidates.filter fun i => !(operand.values d i).isEmpty
  | .equals operand literal => candidates.filter fun i => (operand.values d i).contains literal

/-- The nodes along an axis, in document order. Namespace declarations are no attributes. -/
def Axis.nodes (d : Document) (origin : Nat) : Axis → List Nat
  | .child => (d.node origin).children
  | .attr => (d.node origin).attributes.filter fun a => !Xml.declaresNamespace (d.node a).name
  | .self => [origin]
  | .parent => (d.node origin).parent.toList

/-- Whether a node is of the kind that an axis is about. -/
def Axis.isPrincipal (axis : Axis) (n : Xml.Node) : Bool :=
  if axis = .attr then n.isAttribute else n.isElement

namespace Step

/-- Whether a node passes the test of a step. -/
def matchesNode (s : Step) (d : Document) (i : Nat) : Bool :=
  match s.test with
  | .node => true
  | .text => (d.node i).isText
  | .any => s.axis.isPrincipal (d.node i)
  | .name name => s.axis.isPrincipal (d.node i) && nameMatches name (d.node i).name

/-- What a step selects from one origin. -/
def selectFrom (s : Step) (d : Document) (origin : Nat) : List Nat :=
  s.predicates.foldl (fun candidates p => p.select d candidates)
    ((s.axis.nodes d origin).filter (s.matchesNode d))

end Step

/-- Marks the nodes of a list among all nodes. -/
def marks (d : Document) (nodes : List Nat) : Array Bool :=
  nodes.foldl (fun marked i => marked.setIfInBounds i true) (Array.replicate d.size false)

/-- The nodes of a list in document order, each once. -/
def inDocumentOrder (d : Document) (nodes : List Nat) : List Nat :=
  let marked := marks d nodes
  d.ids.filter fun i => marked.getD i false

/-- Where a step starts when the steps in front of it selected `nodes`. -/
def Step.origins (s : Step) (d : Document) (nodes : List Nat) : List Nat :=
  if s.recursive then
    inDocumentOrder d (nodes.flatMap fun i =>
      i :: (d.descendants i).filter fun c => (d.node c).isElement)
  else nodes

/-- What a step selects from nodes. -/
def Step.select (s : Step) (d : Document) (nodes : List Nat) : List Nat :=
  inDocumentOrder d ((s.origins d nodes).flatMap (s.selectFrom d))

/-- What a path selects from a context. -/
def select (p : Path) (d : Document) (context : Nat) : List Nat :=
  p.steps.foldl (fun nodes s => s.select d nodes) [if p.absolute then Document.rootId else context]

end Path

namespace Xml.Document

/-- What the path of a text selects from a context. -/
def selectPath (d : Document) (context : Nat) (path : String) : Except Path.Invalid (List Nat) :=
  (Path.parse path).map fun p => p.select d context

/-- The text of the first node that a path selects. -/
def valueOf (d : Document) (context : Nat) (path : String) :
    Except Path.Invalid (Option String) :=
  (d.selectPath context path).map fun nodes => nodes.head?.map d.textContent

end Xml.Document

end Interchange
