import Interchange.Path.Segment
import Interchange.Rule

/-!
Groups of line rules. Rules whose paths have the same parent bind the same records: the parent selects
the nodes that repeat, and each rule's last step is read from there.
-/

namespace Interchange

/-- Rules of one parent, each with its last step. -/
structure LineGroup where
  parent : String
  members : List (Rule × String)
  deriving DecidableEq, Repr

namespace LineGroup

/-- Puts a rule into the group of its parent, or into a new group behind the others. -/
def insert (parent : String) (member : Rule × String) : List LineGroup → List LineGroup
  | [] => [⟨parent, [member]⟩]
  | g :: rest =>
    if g.parent = parent then { g with members := g.members ++ [member] } :: rest
    else g :: insert parent member rest

/-- Puts a rule into its group. -/
def add (groups : List LineGroup) (r : Rule) : List LineGroup :=
  let (parent, last) := Path.splitLast (Text.trim r.path)
  insert parent (r, last) groups

/-- The groups of rules, in the order of their first members. -/
def ofRules (rules : List Rule) : List LineGroup := rules.foldl add []

end LineGroup

end Interchange
