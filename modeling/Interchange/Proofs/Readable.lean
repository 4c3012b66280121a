import Interchange.Proofs.Lines
import Interchange.Proofs.Splitting

/-!
# Rules whose paths can be read

A header reads the paths of its rules in whole, lines read them in two parts. Where all paths can be read,
headers report no path, and lines report those that fall apart in the wrong place: paths whose last step is
recursive behind another step, and the path of the document alone (`RuleSet.reported_paths`).
-/

namespace Interchange

open Xml (Document)
open LineGroup (parents membersOf mem_membersOf)

variable {R L : Type} {transforms : TransformTable} {d : Document} {context : Nat} {reason : String}

/-! ## Flaws of one rule -/

namespace Value

variable {value : String}

theorem readInteger_ne_invalidPath : readInteger value ≠ .error (.invalidPath reason) := by
  unfold readInteger
  split
  · simp
  · split <;> simp

theorem readBoolean_ne_invalidPath : readBoolean value ≠ .error (.invalidPath reason) := by
  unfold readBoolean
  dsimp only
  split
  · simp
  · split <;> simp

theorem coerce_ne_invalidPath {type : DataType} : coerce type value ≠ .error (.invalidPath reason) := by
  unfold coerce
  split
  · exact map_ne_error readInteger_ne_invalidPath
  · cases readNumber value <;> simp
  · exact map_ne_error readBoolean_ne_invalidPath
  · simp
  · simp

end Value

theorem Setter.assign_ne_invalidPath {s : Setter R} {value : Value} {record : R} :
    s.assign value record ≠ .error (.flaw (.invalidPath reason)) := by
  intro h
  cases s <;> cases value <;> simp only [assign] at h
  case int32.integer set n =>
    split at h
    · exact absurd h Obstacle.mapError_crash_ne_flaw
    · cases h
  case int64.integer | float64.decimal | boolean.boolean | text.text =>
    exact absurd h Obstacle.mapError_crash_ne_flaw
  all_goals cases h

namespace Rule

variable {r : Rule} {fields : FieldTable R} {path raw : String} {record : R}

theorem bind_ne_invalidPath :
    r.bind transforms fields raw record ≠ .error (.flaw (.invalidPath reason)) := by
  intro h
  unfold bind at h
  split at h
  · cases h
  · split at h
    · rename_i hcoerce
      cases h
      exact Value.coerce_ne_invalidPath hcoerce
    · exact Setter.assign_ne_invalidPath h

theorem extract_invalidPath : r.extract d context path = .error (.invalidPath reason) ↔
    ∃ e, Path.parse path = .error e ∧ reason = e.message := by
  unfold extract Document.valueOf
  cases hselect : d.selectPath context path with
  | error e =>
      rw [Document.selectPath_error] at hselect
      simp [hselect, Except.map, eq_comm]
  | ok nodes =>
      obtain ⟨p, hp⟩ := Document.parse_of_selectPath hselect
      simp only [Except.map, hp, reduceCtorEq, false_and, exists_false, iff_false]
      split
      · rename_i heq
        cases heq
      · simp
      · split
        · simp
        · split <;> simp

/-- A rule reports a path exactly where the path that it is read by is none. -/
theorem flaw?_invalidPath : r.flaw? transforms fields d context path record = some (.invalidPath reason) ↔
    ∃ e, Path.parse path = .error e ∧ reason = e.message := by
  have hextract : r.extract d context path = .error (.invalidPath reason) ↔
      ∃ e, Path.parse path = .error e ∧ reason = e.message := extract_invalidPath
  rw [flaw?_eq_some, ← hextract]
  unfold apply
  cases r.extract d context path with
  | error flaw => simp
  | ok found =>
      cases found with
      | none => simp
      | some raw => simpa using bind_ne_invalidPath

end Rule

/-- The paths that rules report are those of theirs that are none. -/
theorem mem_flaws_invalidPath {shape : Shape R} {rules : List (Rule × String)} {e : BindingError}
    (hpath : e.flaw = .invalidPath reason) : e ∈ shape.flaws transforms d context rules ↔
      ∃ r path, (r, path) ∈ rules ∧ ∃ invalid, Path.parse path = .error invalid ∧
        e = r.error (.invalidPath invalid.message) := by
  simp only [Shape.flaws, flawsAt, List.mem_filterMap, Option.map_eq_some_iff]
  constructor
  · rintro ⟨⟨r, path⟩, hrule, flaw, hflaw, rfl⟩
    cases hpath
    obtain ⟨invalid, hinvalid, rfl⟩ := Rule.flaw?_invalidPath.1 hflaw
    exact ⟨r, path, hrule, invalid, hinvalid, rfl⟩
  · rintro ⟨r, path, hrule, invalid, hinvalid, rfl⟩
    exact ⟨(r, path), hrule, _, Rule.flaw?_invalidPath.2 ⟨invalid, hinvalid, rfl⟩, rfl⟩

/-! ## The parts of a path that can be read -/

/-- The last of several steps is recursive. -/
def Path.EndsRecursive (p : Path) : Prop :=
  ∃ before step, p.steps = before ++ [step] ∧ before ≠ [] ∧ step.recursive = true

namespace Rule

variable {r : Rule} {p : Path} {e : Path.Invalid}

theorem parse_parent_error (h : Path.parse r.path = .ok p) :
    Path.parse r.parent = .error e ↔ p.EndsRecursive ∧ e = ⟨r.parent, .trailingSlash⟩ := by
  unfold Path.EndsRecursive parent
  rcases List.eq_nil_or_concat p.steps with hnil | ⟨before, step, hsteps⟩
  · have hroot : Path.parse "/" = .ok ⟨true, []⟩ := by decide
    simp [Path.splitLast_of_root h hnil, hroot, hnil]
  · rw [List.concat_eq_append] at hsteps
    have hends : (∃ front last, p.steps = front ++ [last] ∧ front ≠ [] ∧ last.recursive = true) ↔
        before ≠ [] ∧ step.recursive = true := by
      simp [hsteps]
    rw [hends]
    by_cases hbefore : before = []
    · rw [hbefore, List.nil_append] at hsteps
      simp [Path.parse_parent_of_single h hsteps, hbefore]
    · cases hrecursive : step.recursive with
      | false => simp [Path.parse_parent h hsteps hbefore hrecursive]
      | true => simp [Path.parse_parent_of_recursive h hsteps hbefore hrecursive, hbefore, eq_comm]

theorem parse_lastStep_error (h : Path.parse r.path = .ok p) :
    Path.parse r.lastStep = .error e ↔ p.steps = [] ∧ e = ⟨"", .empty⟩ := by
  unfold lastStep
  rcases List.eq_nil_or_concat p.steps with hnil | ⟨before, step, hsteps⟩
  · have hempty : Path.parse "" = .error ⟨"", .empty⟩ := by decide
    simp [Path.splitLast_of_root h hnil, hempty, hnil, eq_comm]
  · rw [List.concat_eq_append] at hsteps
    simp [Path.parse_lastStep h hsteps, hsteps]

theorem parent_of_root (h : Path.parse r.path = .ok p) (hsteps : p.steps = []) : r.parent = "/" := by
  rw [parent, Path.splitLast_of_root h hsteps]

/-- The report of a rule whose parent ends in a slash. -/
def parentReport (r : Rule) : BindingError :=
  r.error (.invalidPath (Path.Invalid.message ⟨r.parent, .trailingSlash⟩))

/-- The report of a rule without a last step. -/
def lastStepReport (r : Rule) : BindingError :=
  r.error (.invalidPath (Path.Invalid.message ⟨"", .empty⟩))

end Rule

/-! ## Rule sets without path problems -/

variable {rules : List Rule} {e : BindingError}

theorem RuleSet.pathProblems_eq_nil {set : RuleSet} :
    set.pathProblems = [] ↔ ∀ r ∈ set.rules, ∃ p, Path.parse r.path = .ok p := by
  rw [pathProblems, List.filterMap_eq_nil_iff]
  refine forall₂_congr fun r _ => ?_
  cases Path.parse r.path <;> simp

theorem bindHeader_ne_invalidPath {shape : Shape R} {record : R} {errors : List BindingError}
    (hrules : ∀ r ∈ rules, ∃ p, Path.parse r.path = .ok p)
    (h : bindHeader transforms shape d rules = .ok (record, errors)) (he : e ∈ errors) :
    e.flaw ≠ .invalidPath reason := by
  intro hpath
  rw [bindHeader, bindRecord_eq] at h
  obtain ⟨_, _, heq⟩ := map_eq_ok h
  cases heq
  obtain ⟨r, path, hrule, invalid, hinvalid, _⟩ := (mem_flaws_invalidPath hpath).1 he
  obtain ⟨_, hr, heq⟩ := List.mem_map.1 hrule
  cases heq
  obtain ⟨p, hp⟩ := hrules r (List.mem_of_mem_filter hr)
  exact absurd (hp.symm.trans hinvalid) (by simp)

/-- The groups that are reported are those of the rules whose last step is recursive behind another. -/
theorem mem_errorsUnder (hrules : ∀ r ∈ rules, ∃ p, Path.parse r.path = .ok p) :
    e ∈ (parents rules).flatMap (errorsUnder rules) ↔
      ∃ r ∈ rules, ∃ p, Path.parse r.path = .ok p ∧ p.EndsRecursive ∧ e = r.parentReport := by
  rw [List.mem_flatMap]
  constructor
  · rintro ⟨parent, hparent, he⟩
    unfold errorsUnder at he
    split at he
    · cases he
    · rename_i invalid hinvalid
      obtain ⟨r, hr, rfl⟩ := List.mem_map.1 he
      obtain ⟨hmem, hsame⟩ := List.mem_filter.1 hr
      obtain rfl : r.parent = parent := by simpa using hsame
      obtain ⟨p, hp⟩ := hrules r hmem
      obtain ⟨hends, rfl⟩ := (Rule.parse_parent_error hp).1 hinvalid
      exact ⟨r, hmem, p, hp, hends, rfl⟩
  · rintro ⟨r, hr, p, hp, hends, rfl⟩
    refine ⟨r.parent, LineGroup.mem_parents.2 ⟨r, hr, rfl⟩, ?_⟩
    rw [errorsUnder, (Rule.parse_parent_error hp).2 ⟨hends, rfl⟩]
    exact List.mem_map.2 ⟨r, List.mem_filter.2 ⟨hr, by simp⟩, rfl⟩

theorem bindLines_total {shape : Shape L} (hs : shape.fields.Reliable) :
    ∃ binding, bindLines transforms shape d rules = .ok binding := by
  rw [bindLines_eq]
  obtain ⟨lines, hlines⟩ : ∃ lines, (linePlaces d (activeRules rules)).mapM
    (shape.lineAt transforms d (activeRules rules)) = .ok lines := mapM_lineAt_total hs _
  exact ⟨_, by rw [hlines]; rfl⟩

theorem mem_groupErrors {shape : Shape L} {binding : LineBinding L}
    (hrules : ∀ r ∈ rules, ∃ p, Path.parse r.path = .ok p)
    (h : bindLines transforms shape d rules = .ok binding) : e ∈ binding.groupErrors ↔
      ∃ r ∈ activeRules rules, ∃ p, Path.parse r.path = .ok p ∧ p.EndsRecursive ∧ e = r.parentReport := by
  rw [bindLines_eq] at h
  obtain ⟨lines, _, rfl⟩ := map_eq_ok h
  exact mem_errorsUnder fun r hr => hrules r (List.mem_of_mem_filter hr)

/-- Under a parent, the lines report the path of the document alone, and no other. -/
theorem mem_flaws_membersOf {shape : Shape L} {parent : String}
    (hrules : ∀ r ∈ rules, ∃ p, Path.parse r.path = .ok p) :
    (e ∈ shape.flaws transforms d context (membersOf rules parent) ∧
        ∃ reason, e.flaw = .invalidPath reason) ↔
      parent = "/" ∧ ∃ r ∈ rules, ∃ p, Path.parse r.path = .ok p ∧ p.steps = [] ∧ e = r.lastStepReport := by
  constructor
  · rintro ⟨he, reason, hpath⟩
    obtain ⟨r, path, hrule, invalid, hinvalid, rfl⟩ := (mem_flaws_invalidPath hpath).1 he
    obtain ⟨hr, hparent, hlast⟩ := mem_membersOf.1 hrule
    rw [hlast] at hinvalid
    obtain ⟨p, hp⟩ := hrules r hr
    obtain ⟨hsteps, rfl⟩ := (Rule.parse_lastStep_error hp).1 hinvalid
    exact ⟨hparent ▸ Rule.parent_of_root hp hsteps, r, hr, p, hp, hsteps, rfl⟩
  · rintro ⟨rfl, r, hr, p, hp, hsteps, rfl⟩
    have hrule := mem_membersOf.2 ⟨hr, Rule.parent_of_root hp hsteps, rfl⟩
    have hinvalid := (Rule.parse_lastStep_error hp).2 ⟨hsteps, rfl⟩
    exact ⟨(mem_flaws_invalidPath rfl).2 ⟨r, r.lastStep, hrule, _, hinvalid, rfl⟩, _, rfl⟩

/-- Which paths are reported when all paths of a rule set can be read: none for a header; for lines, once
for its group, each rule whose last step is recursive behind another step, and, on each line that is bound
under the document, each rule whose path is the document alone. -/
theorem RuleSet.reported_paths {set : RuleSet} (hset : set.pathProblems = []) :
    (∀ (shape : Shape R) (record : R) (errors : List BindingError),
      bindHeader transforms shape d set.rules = .ok (record, errors) →
        ∀ e ∈ errors, ∀ reason, e.flaw ≠ .invalidPath reason) ∧
    ∀ (shape : Shape L) (binding : LineBinding L),
      bindLines transforms shape d set.rules = .ok binding →
        (∀ e, e ∈ binding.groupErrors ↔ ∃ r ∈ activeRules set.rules, ∃ p, Path.parse r.path = .ok p ∧
          p.EndsRecursive ∧ e = r.parentReport) ∧
        ∀ line ∈ binding.lines, ∀ e, (e ∈ line.errors ∧ ∃ reason, e.flaw = .invalidPath reason) ↔
          (parents (activeRules set.rules)).find? (d.repeats line.node) = some "/" ∧
            ∃ r ∈ activeRules set.rules, ∃ p, Path.parse r.path = .ok p ∧ p.steps = [] ∧
              e = r.lastStepReport := by
  have hrules := pathProblems_eq_nil.1 hset
  have hactive : ∀ r ∈ activeRules set.rules, ∃ p, Path.parse r.path = .ok p := fun r hr =>
    hrules r (List.mem_of_mem_filter hr)
  refine ⟨fun shape record errors h e he reason => bindHeader_ne_invalidPath hrules h he,
    fun shape binding h => ?_⟩
  refine ⟨fun e => mem_groupErrors hrules h, fun line hline e => ?_⟩
  rw [bindLines_eq] at h
  obtain ⟨lines, hlines, rfl⟩ := map_eq_ok h
  obtain ⟨place, hplace, hat⟩ := exists_of_mapM hlines hline
  obtain ⟨record, _, rfl⟩ := lineAt_eq_ok.1 hat
  rw [(mem_linePlaces.1 hplace).2.2, Option.some.injEq]
  exact mem_flaws_membersOf hactive

theorem parse_endsRecursive : Path.parse "/ASN//Qty" =
    .ok ⟨true, [⟨false, .child, .name "ASN", []⟩, ⟨true, .child, .name "Qty", []⟩]⟩ := by
  decide +kernel

theorem exists_parse_endsRecursive :
    ∀ r ∈ [Rule.new "ASN_LINES" "/ASN//Qty" "quantity"], ∃ p, Path.parse r.path = .ok p := by
  intro r hr
  rw [List.mem_singleton.1 hr]
  exact ⟨_, parse_endsRecursive⟩

theorem RuleSet.reported_paths_quantity :
    (RuleSet.mk "" "" [.new "ASN_LINES" "/ASN//Qty" "quantity"]).pathProblems = [] ∧
    ∀ (shape : Shape ShippingNotice.Line) (binding : LineBinding ShippingNotice.Line),
      bindLines .standard shape .empty [.new "ASN_LINES" "/ASN//Qty" "quantity"] = .ok binding →
        ∀ e, e ∈ binding.groupErrors ↔ ∃ r ∈ activeRules [.new "ASN_LINES" "/ASN//Qty" "quantity"],
          ∃ p, Path.parse r.path = .ok p ∧ p.EndsRecursive ∧ e = r.parentReport := by
  have hset : (RuleSet.mk "" "" [.new "ASN_LINES" "/ASN//Qty" "quantity"]).pathProblems = [] :=
    RuleSet.pathProblems_eq_nil.2 exists_parse_endsRecursive
  exact ⟨hset, fun shape binding h =>
    ((RuleSet.reported_paths (R := ShippingNotice.Line) hset).2 shape binding h).1⟩

/-- A path that can be read in whole may be reported nevertheless, whatever the document. -/
theorem RuleSet.readable_path_reported :
    (RuleSet.mk "" "" [.new "ASN_LINES" "/ASN//Qty" "quantity"]).pathProblems = [] ∧
    ∀ d : Document, ∃ binding,
      bindLines .standard ShippingNotice.lineShape d [.new "ASN_LINES" "/ASN//Qty" "quantity"] =
        .ok binding ∧
      ∃ e ∈ binding.groupErrors, ∃ reason, e.flaw = .invalidPath reason := by
  let r : Rule := .new "ASN_LINES" "/ASN//Qty" "quantity"
  have hrules : ∀ s ∈ [r], ∃ p, Path.parse s.path = .ok p := exists_parse_endsRecursive
  refine ⟨RuleSet.pathProblems_eq_nil.2 hrules, fun d => ?_⟩
  obtain ⟨binding, hbind⟩ : ∃ binding, bindLines .standard ShippingNotice.lineShape d [r] = .ok binding :=
    bindLines_total ShippingNotice.Line.fields_reliable
  have hmem := (mem_groupErrors hrules hbind).2
    ⟨r, List.mem_cons_self, _, parse_endsRecursive, ⟨[_], _, rfl, by simp, rfl⟩, rfl⟩
  exact ⟨binding, hbind, r.parentReport, hmem, _, rfl⟩

end Interchange
