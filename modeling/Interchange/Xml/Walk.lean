import Interchange.Xml.Document

/-!
Walking a document from a node downwards. A walk visits a node, then enters it, walks its children and
leaves it; attributes are not visited. After a limit of visits no further node is visited, but the
nodes that were entered are left.
-/

namespace Interchange.Xml

/-- What a walk does at a node; nodes without children are neither entered nor left. -/
inductive WalkAction where
  | visit
  | enter
  | leave
  deriving DecidableEq, Repr

/-- An action of a walk: at which node, and how far below the start. -/
structure WalkEvent where
  action : WalkAction
  id : Nat
  depth : Nat
  deriving DecidableEq, Repr

namespace Document

/-- The events of a walk from `i` that may visit `limit` nodes, and how many visits are left over. -/
def walkFrom (d : Document) (depth : Nat) (limit : Nat) (i : Nat) : List WalkEvent × Nat :=
  match limit with
  | 0 => ([], 0)
  | limit + 1 =>
    if (d.node i).children.isEmpty then ([⟨.visit, i, depth⟩], limit)
    else
      let (inner, left) := (d.node i).children.attach.foldl (fun (events, left) ⟨c, _⟩ =>
        let (more, left) := d.walkFrom (depth + 1) left c
        (events ++ more, left)) ([], limit)
      (⟨.visit, i, depth⟩ :: ⟨.enter, i, depth⟩ :: inner ++ [⟨.leave, i, depth⟩], left)
termination_by d.size - i
decreasing_by
  rename_i h
  have := lt_of_mem_children h
  omega

/-- The events of a walk from `i` that visits at most `limit` nodes. -/
def walk (d : Document) (i : Nat) (limit : Nat) : List WalkEvent := (d.walkFrom 0 limit i).1

/-- The events of a walk from `i` to its end: no walk visits more nodes than there are. -/
def fullWalk (d : Document) (i : Nat) : List WalkEvent := d.walk i d.size

/-- The number of visits in a walk. -/
def visitCount (events : List WalkEvent) : Nat := events.countP (·.action == .visit)

end Document

end Interchange.Xml
