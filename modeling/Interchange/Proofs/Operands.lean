import Interchange.Proofs.Evaluation
import Interchange.Proofs.Spelling

/-!
# What predicates ask of a node

A predicate looks its operand up by itself. Where the operand is read as a path of its own, both find the same
children, and the same attributes but for one kind: a predicate sees the namespace declarations, too, which no
step selects (`Path.predicates_by_steps`).
-/

namespace Interchange

open Xml (Document)

namespace Xml

variable {d : Document} {n : Node} {i : Nat} {value : String}

theorem Node.exists_value (h : n.isAttribute = true) : ∃ value, n.value = some value := by
  unfold Node.isAttribute at h
  unfold Node.value
  cases hcontent : n.content with
  | attr name value => exact ⟨value, rfl⟩
  | document | element | text => simp [hcontent] at h

theorem Document.textContent_of_value (h : (d.node i).value = some value) : d.textContent i = value := by
  rw [textContent, h]

end Xml

namespace Path

/-- The path that an operand stands for when it is read as a step. -/
def Operand.path : Operand → Path
  | .attr name => ⟨false, [⟨false, .attr, .name name, []⟩]⟩
  | .child name => ⟨false, [⟨false, .child, .name name, []⟩]⟩
  | .context => ⟨false, [⟨false, .self, .node, []⟩]⟩

/-- The namespace declarations that an operand finds at a node: those that its name matches. -/
def Operand.declarations (d : Document) (i : Nat) : Operand → List Nat
  | .attr name => (d.node i).attributes.filter fun a =>
      Xml.declaresNamespace (d.node a).name && nameMatches name (d.node a).name
  | .child _ | .context => []

/-- A node satisfies a predicate: it is left over wherever it is a candidate. -/
def Predicate.SatisfiedBy (p : Predicate) (d : Document) (i : Nat) : Prop :=
  ∀ candidates, i ∈ candidates → i ∈ p.select d candidates

variable {d : Document} {i n : Nat} {operand : Operand} {name literal : String}

/-! ## Satisfied predicates -/

theorem satisfiedBy_holds : (Predicate.holds operand).SatisfiedBy d i ↔ operand.values d i ≠ [] := by
  simp only [Predicate.SatisfiedBy, Predicate.select, List.mem_filter, Bool.not_eq_true', List.isEmpty_eq_false_iff]
  exact ⟨fun h => (h [i] List.mem_cons_self).2, fun h _ hi => ⟨hi, h⟩⟩

theorem satisfiedBy_equals :
    (Predicate.equals operand literal).SatisfiedBy d i ↔ literal ∈ operand.values d i := by
  simp only [Predicate.SatisfiedBy, Predicate.select, List.mem_filter, List.contains_iff_mem]
  exact ⟨fun h => (h [i] List.mem_cons_self).2, fun h _ hi => ⟨hi, h⟩⟩

/-! ## What an operand finds -/

theorem mem_attributes (hd : d.Arranged) :
    n ∈ (d.node i).attributes ↔ (d.node n).parent = some i ∧ (d.node n).isAttribute = true := by
  have hlisted : n ∈ (d.node i).attributes ↔ _ := hd.mem_listed .attr
  rw [hlisted, Document.Link.of_eq]
  cases (d.node n).isAttribute <;> simp

/-- What the path of an operand selects is what lies on its axis and passes its test. -/
theorem mem_select_single {axis : Axis} {test : NodeTest} :
    n ∈ (Path.mk false [⟨false, axis, test, []⟩]).select d i ↔
      n < d.size ∧ n ∈ axis.nodes d i ∧ (Step.mk false axis test []).matchesNode d n = true := by
  simp only [select, List.foldl_cons, List.foldl_nil, Bool.false_eq_true, if_false, Step.select, Step.origins,
    List.flatMap_singleton, mem_inDocumentOrder, Step.selectFrom, List.mem_filter]

/-- An operand that is read as a path selects what it is named for, of attributes those that declare nothing. -/
theorem mem_select_path (hd : d.Arranged) (h : i < d.size) : n ∈ operand.path.select d i ↔
    match operand with
    | .attr name => n ∈ (d.node i).attributes ∧ Xml.declaresNamespace (d.node n).name = false ∧
        nameMatches name (d.node n).name = true
    | .child name => n ∈ d.childElements i ∧ nameMatches name (d.node n).name = true
    | .context => n = i := by
  cases operand with
  | attr name =>
      rw [Operand.path, mem_select_single]
      simp only [Axis.nodes, Step.matchesNode, Axis.isPrincipal, if_true, List.mem_filter, Bool.not_eq_true',
        Bool.and_eq_true]
      constructor
      · rintro ⟨_, ⟨hn, hdeclares⟩, _, hname⟩
        exact ⟨hn, hdeclares, hname⟩
      · rintro ⟨hn, hdeclares, hname⟩
        exact ⟨(Document.lt_of_mem_attributes hn).2, ⟨hn, hdeclares⟩, ((mem_attributes hd).1 hn).2, hname⟩
  | child name =>
      rw [Operand.path, mem_select_single]
      simp only [Axis.nodes, Step.matchesNode, Axis.isPrincipal, reduceCtorEq, if_false, Document.childElements,
        List.mem_filter, Bool.and_eq_true]
      constructor
      · rintro ⟨_, hn, hkind, hname⟩
        exact ⟨⟨hn, hkind⟩, hname⟩
      · rintro ⟨⟨hn, hkind⟩, hname⟩
        exact ⟨(Document.lt_of_mem_children hn).2, hn, hkind, hname⟩
  | context =>
      rw [Operand.path, mem_select_single]
      simp only [Axis.nodes, Step.matchesNode, List.mem_singleton, and_true, and_iff_right_iff_imp]
      rintro rfl
      exact h

/-- The values of an operand are the texts of what it selects as a path, and of the declarations. -/
theorem mem_values (hd : d.Arranged) (h : i < d.size) : literal ∈ operand.values d i ↔
    ∃ n, (n ∈ operand.path.select d i ∨ n ∈ operand.declarations d i) ∧ d.textContent n = literal := by
  simp only [mem_select_path hd h]
  cases operand with
  | attr name =>
      simp only [Operand.values, Operand.declarations, List.mem_filterMap, List.mem_filter, Bool.and_eq_true]
      constructor
      · rintro ⟨a, ⟨ha, hname⟩, hvalue⟩
        refine ⟨a, ?_, Document.textContent_of_value hvalue⟩
        cases hdeclares : Xml.declaresNamespace (d.node a).name with
        | true => exact Or.inr ⟨ha, rfl, hname⟩
        | false => exact Or.inl ⟨ha, rfl, hname⟩
      · rintro ⟨a, hfound, htext⟩
        have ha : a ∈ (d.node i).attributes ∧ nameMatches name (d.node a).name = true :=
          hfound.elim (fun hl => ⟨hl.1, hl.2.2⟩) fun hr => ⟨hr.1, hr.2.2⟩
        refine ⟨a, ha, ?_⟩
        obtain ⟨value, hvalue⟩ := Xml.Node.exists_value ((mem_attributes hd).1 ha.1).2
        rw [hvalue, ← htext, Document.textContent_of_value hvalue]
  | child name =>
      simp only [Operand.values, Operand.declarations, List.mem_map, List.mem_filter, List.not_mem_nil, or_false]
  | context =>
      simp [Operand.values, Operand.declarations, eq_comm]

theorem values_ne_nil (hd : d.Arranged) (h : i < d.size) : operand.values d i ≠ [] ↔
    ∃ n, n ∈ operand.path.select d i ∨ n ∈ operand.declarations d i := by
  rw [← List.isEmpty_eq_false_iff, List.isEmpty_eq_false_iff_exists_mem]
  constructor
  · rintro ⟨value, hvalue⟩
    obtain ⟨n, hn, _⟩ := (mem_values hd h).1 hvalue
    exact ⟨n, hn⟩
  · rintro ⟨n, hn⟩
    exact ⟨_, (mem_values hd h).2 ⟨n, hn, rfl⟩⟩

/-! ## Operands and steps as they are written -/

theorem headChars_child (name : String) : headChars .child (.name name) = name.toList := rfl

theorem headChars_attr (name : String) : headChars .attr (.name name) = '@' :: name.toList := rfl

theorem headChars_self (test : NodeTest) : headChars .self test = ['.'] := rfl

theorem Operand.chars_path (quoteOf : String → Char) : operand.path.chars quoteOf = operand.chars := by
  cases operand <;> simp [path, chars, Path.chars, stepsChars, Step.separator, Step.chars, headChars_child,
    headChars_attr, headChars_self]

theorem Operand.wellFormed_path (h : operand.WellFormed) : operand.path.WellFormed := by
  cases operand with
  | attr name | child name =>
      refine ⟨fun s hs => ?_, fun _ => ⟨_, rfl, rfl⟩⟩
      rw [List.mem_singleton.1 hs]
      exact ⟨h, by simp, fun _ => rfl⟩
  | context => decide

/-- An operand is a path of one step, written in the same way. -/
theorem parse_operand (h : operand.WellFormed) : parse (String.ofList operand.chars) = .ok operand.path := by
  have hwell := Operand.wellFormed_path h
  have hwritten := ((parse_written hwell).2.1 freeQuote (quotedBy_freeQuote hwell)).2
  rwa [text, operand.chars_path] at hwritten

theorem readPredicate_equals_chars {quote : Char} (h : operand.WellFormed) (hquote : quote = '\'' ∨ quote = '"') :
    readPredicate (operand.chars ++ '=' :: (quote :: literal.toList ++ [quote])) =
      .ok (.equals operand literal) := by
  have hspells := Operand.spells_chars h
  have hblank := isBlank_of_quote hquote
  have hleft : operand.Spells (Text.trimChars operand.chars) := by
    rwa [(Trimmed.of_words hspells.isWordChar).trimChars]
  have hright : Trimmed (quote :: literal.toList ++ [quote]) := .between hblank hblank
  have hpredicate : (Predicate.equals operand literal).Spells .any (operand.chars ++ '=' ::
      (quote :: literal.toList ++ [quote])) := .equals hleft hquote hright.trimChars trivial
  exact readPredicate_of_spells hpredicate

/-! ## Both together -/

/-- A predicate and a path with the same operand, at a node of a document that can be read. The predicate that
the operand has a value is satisfied where the path selects something or where the operand finds a namespace
declaration; the comparison with a literal where one of these nodes has it as its text. -/
theorem predicates_by_steps {octets : Text.Utf8.Octets} (hd : Document.parse octets = .ok d) (h : i < d.size)
    (hoperand : operand.WellFormed) : ∃ nodes,
      d.selectPath i (String.ofList operand.chars) = .ok nodes ∧
      readPredicate operand.chars = .ok (.holds operand) ∧
      ((Predicate.holds operand).SatisfiedBy d i ↔ ∃ n, n ∈ nodes ∨ n ∈ operand.declarations d i) ∧
      ∀ literal,
        (∀ quote, quote = '\'' ∨ quote = '"' → readPredicate
          (operand.chars ++ '=' :: (quote :: String.toList literal ++ [quote])) = .ok (.equals operand literal)) ∧
        ((Predicate.equals operand literal).SatisfiedBy d i ↔
          ∃ n, (n ∈ nodes ∨ n ∈ operand.declarations d i) ∧ d.textContent n = literal) := by
  have harranged := Document.Arranged.of_parse hd
  have hselected : d.selectPath i (String.ofList operand.chars) = .ok (operand.path.select d i) := by
    rw [Document.selectPath, parse_operand hoperand]
    rfl
  have hholds : (Predicate.holds operand).Spells .any operand.chars := .holds (Operand.spells_chars hoperand)
  refine ⟨_, hselected, readPredicate_of_spells hholds,
    satisfiedBy_holds.trans (values_ne_nil harranged h), fun literal => ⟨fun quote hquote => ?_, ?_⟩⟩
  · exact readPredicate_equals_chars hoperand hquote
  · exact satisfiedBy_equals.trans (mem_values harranged h)

/-- An order with an attribute and a namespace declaration. -/
def declaringOrder : Text.Utf8.Octets := Text.Utf8.encodeText "<a xmlns:x='u' y='1'><b>t</b></a>"

theorem predicates_by_steps_order : ∃ d, Document.parse declaringOrder = .ok d ∧ 1 < d.size ∧
    (Operand.attr "y").WellFormed ∧ d.selectPath 1 "@y" = .ok [3] ∧
    readPredicate "@y='1'".toList = .ok (.equals (.attr "y") "1") ∧
    ((Predicate.equals (.attr "y") "1").SatisfiedBy d 1 ↔
      ∃ n, (n ∈ [3] ∨ n ∈ (Operand.attr "y").declarations d 1) ∧ d.textContent n = "1") := by
  have hread : (Document.parse declaringOrder).toOption.map
      (fun d => (d.size, (d.selectPath 1 "@y").toOption)) = some (6, some [3]) := by decide +kernel
  cases hd : Document.parse declaringOrder with
  | error m => simp only [hd, Except.toOption, Option.map_none, reduceCtorEq] at hread
  | ok d =>
      obtain ⟨hsize, hselected⟩ : d.size = 6 ∧ (d.selectPath 1 "@y").toOption = some [3] := by
        simpa [hd, Except.toOption] using hread
      have hlt : 1 < d.size := by omega
      have hname : (Operand.attr "y").WellFormed := by decide
      obtain ⟨nodes, hnodes, -, -, hequals⟩ := predicates_by_steps hd hlt hname
      obtain ⟨hwritten, hsatisfied⟩ := hequals "1"
      have htext : String.ofList (Operand.attr "y").chars = "@y" := rfl
      rw [htext] at hnodes
      rw [hnodes] at hselected
      cases hselected
      exact ⟨d, rfl, hlt, hname, hnodes, hwritten '\'' (Or.inl rfl), hsatisfied⟩

/-- A declaration satisfies the predicate of its local name, although the step of that name selects nothing. -/
theorem satisfiedBy_declaration : ∃ d, Document.parse (Text.Utf8.encodeText "<a xmlns:x='u'/>") = .ok d ∧
    (d.node 1).isElement = true ∧ readPredicate "@x".toList = .ok (.holds (.attr "x")) ∧
    (Predicate.holds (.attr "x")).SatisfiedBy d 1 ∧ d.selectPath 1 "@x" = .ok [] := by
  have hread : (Document.parse (Text.Utf8.encodeText "<a xmlns:x='u'/>")).toOption.map
      (fun d => ((d.node 1).isElement, (Operand.attr "x").values d 1, (d.selectPath 1 "@x").toOption)) =
        some (true, ["u"], some []) := by decide +kernel
  cases hd : Document.parse (Text.Utf8.encodeText "<a xmlns:x='u'/>") with
  | error m => simp only [hd, Except.toOption, Option.map_none, reduceCtorEq] at hread
  | ok d =>
      simp only [hd, Except.toOption, Option.map_some, Option.some.injEq, Prod.mk.injEq] at hread
      obtain ⟨hkind, hvalues, hselected⟩ := hread
      refine ⟨d, rfl, hkind, by decide, satisfiedBy_holds.2 (by rw [hvalues]; simp), ?_⟩
      cases hnodes : d.selectPath 1 "@x" with
      | error e => simp [hnodes] at hselected
      | ok nodes => simpa [hnodes] using hselected

end Path

end Interchange
