import Interchange.Binding
import Interchange.LineGroup

/-!
Binding a document: one header from the whole document, and one line for each node that repeats. A rule
that fails leaves its record as it was and is reported; a setter that breaks down ends the binding.
-/

namespace Interchange

open Xml (Document)

def activeRules (rules : List Rule) : List Rule := rules.filter (·.active)

/-- Applies rules to a record, each with the path it is to be read by, and collects their errors. -/
def bindRecord {R : Type} (transforms : TransformTable) (fields : FieldTable R) (d : Document)
    (context : Nat) (record : R) : List (Rule × String) → Except Crash (R × List BindingError)
  | [] => .ok (record, [])
  | (r, path) :: rest =>
    match r.apply transforms fields d context path record with
    | .ok record => bindRecord transforms fields d context record rest
    | .error (.crash crash) => .error crash
    | .error (.flaw flaw) =>
      (bindRecord transforms fields d context record rest).map fun (record, errors) =>
        (record, r.error flaw :: errors)

/-- Binds a header: every active rule is read from the document. -/
def bindHeader {H : Type} (transforms : TransformTable) (shape : Shape H) (d : Document)
    (rules : List Rule) : Except Crash (H × List BindingError) :=
  bindRecord transforms shape.fields d Document.rootId shape.initial
    ((activeRules rules).map fun r => (r, r.path))

/-- A record bound from a node that repeats; its number is the node's place among all nodes that its
group selects. -/
structure BoundLine (L : Type) where
  number : Nat
  node : Nat
  record : L
  errors : List BindingError

/-- A line without errors. -/
def BoundLine.isClean {L : Type} (line : BoundLine L) : Bool := line.errors.isEmpty

/-- The lines of a document, and the errors of groups whose parent is no path. -/
structure LineBinding (L : Type) where
  lines : List (BoundLine L)
  groupErrors : List BindingError

/-- The nodes with their places, without those that have been seen before. -/
def freshNodes (seen : List Nat) (nodes : List Nat) : List (Nat × Nat) :=
  (nodes.zipIdx 1).filterMap fun (node, number) =>
    if seen.contains node then none else some (node, number)

/-- Binds the lines of one group from nodes with their places. -/
def bindGroup {L : Type} (transforms : TransformTable) (shape : Shape L) (d : Document)
    (group : LineGroup) (nodes : List (Nat × Nat)) : Except Crash (List (BoundLine L)) :=
  nodes.mapM fun (node, number) =>
    (bindRecord transforms shape.fields d node shape.initial group.members).map
      fun (record, errors) => ⟨number, node, record, errors⟩

/-- Binds the lines of groups; a node that a group in front has selected gives no second line. -/
def bindGroups {L : Type} (transforms : TransformTable) (shape : Shape L) (d : Document)
    (seen : List Nat) : List LineGroup → Except Crash (LineBinding L)
  | [] => .ok ⟨[], []⟩
  | group :: rest =>
    match d.selectPath Document.rootId group.parent with
    | .error e => do
      let binding ← bindGroups transforms shape d seen rest
      let errors := group.members.map fun (r, _) => r.error (.invalidPath e.message)
      return { binding with groupErrors := errors ++ binding.groupErrors }
    | .ok nodes => do
      let lines ← bindGroup transforms shape d group (freshNodes seen nodes)
      let binding ← bindGroups transforms shape d (seen ++ nodes) rest
      return { binding with lines := lines ++ binding.lines }

/-- Binds the lines of a document. -/
def bindLines {L : Type} (transforms : TransformTable) (shape : Shape L) (d : Document)
    (rules : List Rule) : Except Crash (LineBinding L) :=
  bindGroups transforms shape d [] (LineGroup.ofRules (activeRules rules))

end Interchange
