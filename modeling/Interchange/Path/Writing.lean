import Interchange.Path.Grammar

/-!
Writing paths. A literal stands between quotes of a kind that it does not hold; apart from that there is one
way to write a path, without white space.
-/

namespace Interchange.Path

/-! ## Paths that can be written -/

def Operand.WellFormed : Operand → Prop
  | .attr name => isName name.toList = true
  | .child name => isName name.toList = true
  | .context => True

/-- Positions count from one and have 64 bits; a literal does not hold both quotes. -/
def Predicate.WellFormed : Predicate → Prop
  | .position n => 0 < n ∧ n < 0x10000000000000000
  | .last => True
  | .holds operand => operand.WellFormed
  | .equals operand literal => operand.WellFormed ∧ ('\'' ∉ literal.toList ∨ '"' ∉ literal.toList)

/-- The tests of each axis. -/
def Axis.Admits : Axis → NodeTest → Prop
  | .child, .name name => isName name.toList = true
  | .child, _ => True
  | .attr, .name name => isName name.toList = true
  | .attr, test => test = .any
  | .self, test => test = .node
  | .parent, test => test = .node

structure Step.WellFormed (s : Step) : Prop where
  admits : s.axis.Admits s.test
  predicates : ∀ q ∈ s.predicates, q.WellFormed
  bare : s.axis = .self ∨ s.axis = .parent → s.predicates = []

/-- A relative path begins with a step, and that one is not recursive. -/
structure WellFormed (p : Path) : Prop where
  steps : ∀ s ∈ p.steps, s.WellFormed
  relative : p.absolute = false → ∃ s ∈ p.steps.head?, s.recursive = false

instance : DecidablePred Operand.WellFormed
  | .attr _ => inferInstanceAs (Decidable (_ = _))
  | .child _ => inferInstanceAs (Decidable (_ = _))
  | .context => inferInstanceAs (Decidable True)

instance : DecidablePred Predicate.WellFormed
  | .position _ => inferInstanceAs (Decidable (_ ∧ _))
  | .last => inferInstanceAs (Decidable True)
  | .holds operand => inferInstanceAs (Decidable operand.WellFormed)
  | .equals _ _ => inferInstanceAs (Decidable (_ ∧ _))

instance : (axis : Axis) → DecidablePred axis.Admits
  | .child, .name _ => inferInstanceAs (Decidable (_ = _))
  | .child, .any | .child, .text | .child, .node => inferInstanceAs (Decidable True)
  | .attr, .name _ => inferInstanceAs (Decidable (_ = _))
  | .attr, .any | .attr, .text | .attr, .node => inferInstanceAs (Decidable (_ = _))
  | .self, _ => inferInstanceAs (Decidable (_ = _))
  | .parent, _ => inferInstanceAs (Decidable (_ = _))

instance : DecidablePred Step.WellFormed := fun s =>
  decidable_of_iff (s.axis.Admits s.test ∧ (∀ q ∈ s.predicates, q.WellFormed) ∧
    (s.axis = .self ∨ s.axis = .parent → s.predicates = []))
    ⟨fun h => ⟨h.1, h.2.1, h.2.2⟩, fun h => ⟨h.admits, h.predicates, h.bare⟩⟩

instance : DecidablePred WellFormed := fun p =>
  decidable_of_iff ((∀ s ∈ p.steps, s.WellFormed) ∧
    (p.absolute = false → ∃ s ∈ p.steps.head?, s.recursive = false))
    ⟨fun h => ⟨h.1, h.2⟩, fun h => ⟨h.steps, h.relative⟩⟩

/-- A choice of quotes fits the literal of a predicate, if it has one. -/
def Predicate.QuotedBy (quoteOf : String → Char) : Predicate → Prop
  | .equals _ literal =>
    (quoteOf literal = '\'' ∨ quoteOf literal = '"') ∧ quoteOf literal ∉ literal.toList
  | _ => True

/-- A choice of quotes fits the literals of a path. -/
def QuotedBy (quoteOf : String → Char) (p : Path) : Prop :=
  ∀ s ∈ p.steps, ∀ q ∈ s.predicates, q.QuotedBy quoteOf

/-- A quote that a literal does not hold, if there is one. -/
def freeQuote (literal : String) : Char := if '\'' ∈ literal.toList then '"' else '\''

/-! ## Texts -/

def Operand.chars : Operand → List Char
  | .attr name => '@' :: name.toList
  | .child name => name.toList
  | .context => ['.']

def Predicate.chars (quoteOf : String → Char) : Predicate → List Char
  | .position n => Nat.toDigits 10 n
  | .last => "last()".toList
  | .holds operand => operand.chars
  | .equals operand literal =>
    operand.chars ++ '=' :: (quoteOf literal :: literal.toList ++ [quoteOf literal])

def headChars : Axis → NodeTest → List Char
  | .self, _ => ['.']
  | .parent, _ => ['.', '.']
  | .child, .name name => name.toList
  | .child, .any => ['*']
  | .child, .text => "text()".toList
  | .child, .node => "node()".toList
  | .attr, .name name => '@' :: name.toList
  | .attr, _ => ['@', '*']

def Step.chars (quoteOf : String → Char) (s : Step) : List Char :=
  headChars s.axis s.test ++ s.predicates.flatMap fun q => '[' :: (q.chars quoteOf ++ [']'])

/-- Steps, each behind its separator. -/
def stepsChars (quoteOf : String → Char) (steps : List Step) : List Char :=
  steps.flatMap fun s => s.separator ++ s.chars quoteOf

/-- A path as it is written. -/
def chars (quoteOf : String → Char) (p : Path) : List Char :=
  if p.absolute then
    if p.steps.isEmpty then ['/'] else stepsChars quoteOf p.steps
  else (stepsChars quoteOf p.steps).drop 1

/-- A path as it is written when each literal has the quotes of a choice. -/
def text (quoteOf : String → Char) (p : Path) : String := String.ofList (p.chars quoteOf)

end Interchange.Path
