import Interchange.Path.Reading

/-!
The grammar of paths: which texts stand for which path, whatever reads them. White space may stand around the
head of a step, behind its predicates and inside their brackets. What a literal may hold between its quotes is
a rule that the grammar leaves open.
-/

namespace Interchange.Path

open Text (isBlank trimChars)

/-- Quotes pair up behind a quote that may stand open, and brackets stand between quotes alone. -/
def Pairs : Option Char → List Char → Prop
  | quote, [] => quote = none
  | quote, c :: rest => (quote = none → c ≠ '[' ∧ c ≠ ']') ∧ Pairs (quoteAfter quote c) rest

instance Pairs.decidable : (quote : Option Char) → (cs : List Char) → Decidable (Pairs quote cs)
  | quote, [] => inferInstanceAs (Decidable (quote = none))
  | quote, c :: rest =>
    have := Pairs.decidable (quoteAfter quote c) rest
    inferInstanceAs (Decidable (_ ∧ _))

/-- What a quote and the literal behind it must be to each other. -/
abbrev LiteralRule := Char → List Char → Prop

/-- Anything may stand in a literal. -/
def LiteralRule.any : LiteralRule := fun _ _ => True

/-- A literal ends at the quote that it began with. -/
def LiteralRule.single : LiteralRule := fun quote literal => quote ∉ literal

/-- A literal may hold its own quote, as long as all quotes pair up. -/
def LiteralRule.paired : LiteralRule := fun quote literal => Pairs none (quote :: literal ++ [quote])

/-- The literal of a comparison. -/
def Predicate.literal? : Predicate → Option String
  | .equals _ literal => some literal
  | _ => none

/-- The literals of a step. -/
def Step.literals (s : Step) : List String := s.predicates.filterMap Predicate.literal?

/-- The literals of a path. -/
def literals (p : Path) : List String := p.steps.flatMap Step.literals

/-- The texts of an operand. -/
inductive Operand.Spells : Operand → List Char → Prop
  | self : Spells .context ['.']
  | text : Spells .context "text()".toList
  | attr {name : String} (hname : isName name.toList = true) : Spells (.attr name) ('@' :: name.toList)
  | child {name : String} (hname : isName name.toList = true) : Spells (.child name) name.toList

/-- The texts of a predicate between its brackets, without the white space there. -/
inductive Predicate.Spells (rule : LiteralRule) : Predicate → List Char → Prop
  | position {digits : List Char} (hdigits : ∀ c ∈ digits, c.isDigit = true)
      (hpos : 0 < digitsValue digits) (hlt : digitsValue digits < 0x10000000000000000) :
      Spells rule (.position (digitsValue digits)) digits
  | last : Spells rule .last "last()".toList
  | holds {operand : Operand} {text : List Char} (hoperand : operand.Spells text) :
      Spells rule (.holds operand) text
  | equals {operand : Operand} {left right : List Char} {quote : Char} {literal : String}
      (hoperand : operand.Spells (trimChars left)) (hquote : quote = '\'' ∨ quote = '"')
      (hright : trimChars right = quote :: literal.toList ++ [quote]) (hrule : rule quote literal.toList) :
      Spells rule (.equals operand literal) (left ++ '=' :: right)

/-- The texts of predicates, each in its brackets. -/
inductive SpellsPredicates (rule : LiteralRule) : List Predicate → List Char → Prop
  | nil : SpellsPredicates rule [] []
  | cons {p : Predicate} {ps : List Predicate} {inside blanks rest : List Char}
      (hp : p.Spells rule (trimChars inside)) (hblanks : ∀ b ∈ blanks, isBlank b = true)
      (hrest : SpellsPredicates rule ps rest) :
      SpellsPredicates rule (p :: ps) ('[' :: (inside ++ ']' :: (blanks ++ rest)))

/-- The texts of an axis and a test. -/
inductive SpellsHead : Axis → NodeTest → List Char → Prop
  | self : SpellsHead .self .node ['.']
  | parent : SpellsHead .parent .node ['.', '.']
  | any : SpellsHead .child .any ['*']
  | text : SpellsHead .child .text "text()".toList
  | node : SpellsHead .child .node "node()".toList
  | child {name : String} (hname : isName name.toList = true) : SpellsHead .child (.name name) name.toList
  | anyAttr : SpellsHead .attr .any ['@', '*']
  | attr {name : String} (hname : isName name.toList = true) : SpellsHead .attr (.name name) ('@' :: name.toList)

/-- The texts of a step; there are no predicates on the node itself and on its parent. -/
inductive Step.Spells (rule : LiteralRule) : Step → List Char → Prop
  | mk {recursive : Bool} {axis : Axis} {test : NodeTest} {ps : List Predicate} {head rest : List Char}
      (hhead : SpellsHead axis test (trimChars head)) (hps : SpellsPredicates rule ps rest)
      (hbare : axis = .self ∨ axis = .parent → ps = []) :
      Spells rule ⟨recursive, axis, test, ps⟩ (head ++ rest)

/-- What stands in front of a step. -/
def Step.separator (s : Step) : List Char := if s.recursive then ['/', '/'] else ['/']

/-- The texts of steps, each behind its separator. -/
inductive SpellsSteps (rule : LiteralRule) : List Step → List Char → Prop
  | nil : SpellsSteps rule [] []
  | cons {s : Step} {steps : List Step} {text rest : List Char} (hs : s.Spells rule text)
      (hrest : SpellsSteps rule steps rest) : SpellsSteps rule (s :: steps) (s.separator ++ (text ++ rest))

/-- The texts of a path without white space around them. A relative path begins with its first step, which is
not recursive. -/
inductive Spells (rule : LiteralRule) : Path → List Char → Prop
  | root : Spells rule ⟨true, []⟩ ['/']
  | absolute {s : Step} {steps : List Step} {text : List Char} (h : SpellsSteps rule (s :: steps) text) :
      Spells rule ⟨true, s :: steps⟩ text
  | relative {s : Step} {steps : List Step} {text rest : List Char} (hs : s.Spells rule text)
      (hrecursive : s.recursive = false) (hrest : SpellsSteps rule steps rest) :
      Spells rule ⟨false, s :: steps⟩ (text ++ rest)

end Interchange.Path
