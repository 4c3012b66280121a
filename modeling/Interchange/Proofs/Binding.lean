import Interchange.Mapping

/-!
# Rules applied one after another

Whether a rule meets a flaw does not depend on the record that it is applied to. What a list of rules makes
of a record therefore comes apart (`bindRecord_eq`): each rule in turn puts what it finds into the record,
and each rule gives its error on its own. Setters that never break down always give a record.
-/

namespace Interchange

open Xml (Document)

variable {R : Type}

/-! ## One rule -/

theorem Obstacle.mapError_crash_ne_flaw {x : Except Crash R} {flaw : BindingFlaw} :
    x.mapError Obstacle.crash ≠ .error (.flaw flaw) := by
  intro h
  cases x <;> cases h

theorem Setter.assign_flaw {s : Setter R} {value : Value} {flaw : BindingFlaw} {x : R} (y : R)
    (h : s.assign value x = .error (.flaw flaw)) : s.assign value y = .error (.flaw flaw) := by
  cases s <;> cases value <;> simp only [assign] at h ⊢
  case int32.integer set n =>
    split at h
    · exact absurd h Obstacle.mapError_crash_ne_flaw
    · rename_i hn
      rw [if_neg hn]
      exact h
  case int64.integer | float64.decimal | boolean.boolean | text.text =>
    exact absurd h Obstacle.mapError_crash_ne_flaw
  all_goals exact h

namespace Rule

variable {r : Rule} {transforms : TransformTable} {fields : FieldTable R} {d : Document}
  {context : Nat} {path : String}

/-- The flaw that a rule meets at a record, if it meets one. -/
def flaw? (r : Rule) (transforms : TransformTable) (fields : FieldTable R) (d : Document)
    (context : Nat) (path : String) (record : R) : Option BindingFlaw :=
  match r.apply transforms fields d context path record with
  | .error (.flaw flaw) => some flaw
  | _ => none

/-- The record behind a rule; a rule that meets a flaw leaves it as it was. -/
def put (r : Rule) (transforms : TransformTable) (fields : FieldTable R) (d : Document)
    (context : Nat) (path : String) (record : R) : Except Crash R :=
  match r.apply transforms fields d context path record with
  | .ok record => .ok record
  | .error (.flaw _) => .ok record
  | .error (.crash crash) => .error crash

theorem bind_flaw {raw : String} {flaw : BindingFlaw} {x : R} (y : R)
    (h : r.bind transforms fields raw x = .error (.flaw flaw)) :
    r.bind transforms fields raw y = .error (.flaw flaw) := by
  unfold bind at h ⊢
  cases hf : fields.find r.field with
  | none => simpa only [hf] using h
  | some setter =>
      simp only [hf] at h ⊢
      cases hv : Value.coerce r.type (r.transformed transforms raw) with
      | error _ => simpa only [hv] using h
      | ok value =>
          simp only [hv] at h ⊢
          exact Setter.assign_flaw y h

/-- A rule meets the same flaw at every record. -/
theorem apply_flaw {flaw : BindingFlaw} {x : R} (y : R)
    (h : r.apply transforms fields d context path x = .error (.flaw flaw)) :
    r.apply transforms fields d context path y = .error (.flaw flaw) := by
  unfold apply at h ⊢
  cases he : r.extract d context path with
  | error _ => simpa only [he] using h
  | ok found =>
      cases found with
      | none => simp [he] at h
      | some raw =>
          simp only [he] at h ⊢
          exact bind_flaw y h

theorem flaw?_eq_some {flaw : BindingFlaw} {x : R} :
    r.flaw? transforms fields d context path x = some flaw ↔
      r.apply transforms fields d context path x = .error (.flaw flaw) := by
  unfold flaw?
  split <;> simp_all

theorem flaw?_eq (x y : R) :
    r.flaw? transforms fields d context path x = r.flaw? transforms fields d context path y := by
  refine Option.ext fun flaw => ?_
  rw [flaw?_eq_some, flaw?_eq_some]
  exact ⟨apply_flaw y, apply_flaw x⟩

end Rule

/-! ## Lists of rules -/

/-- The record behind rules, each read from a context by its own path. -/
def putAll (transforms : TransformTable) (fields : FieldTable R) (d : Document) (context : Nat)
    (rules : List (Rule × String)) (record : R) : Except Crash R :=
  rules.foldlM (fun record rule => rule.1.put transforms fields d context rule.2 record) record

/-- The errors of the rules that meet a flaw at a record, each on its own. -/
def flawsAt (transforms : TransformTable) (fields : FieldTable R) (d : Document) (context : Nat)
    (rules : List (Rule × String)) (record : R) : List BindingError :=
  rules.filterMap fun rule =>
    (rule.1.flaw? transforms fields d context rule.2 record).map rule.1.error

namespace Shape

/-- The record that rules make of a new one. -/
def bound (shape : Shape R) (transforms : TransformTable) (d : Document) (context : Nat)
    (rules : List (Rule × String)) : Except Crash R :=
  putAll transforms shape.fields d context rules shape.initial

/-- The errors of rules. -/
def flaws (shape : Shape R) (transforms : TransformTable) (d : Document) (context : Nat)
    (rules : List (Rule × String)) : List BindingError :=
  flawsAt transforms shape.fields d context rules shape.initial

end Shape

variable {transforms : TransformTable} {d : Document} {context : Nat}

theorem putAll_cons {fields : FieldTable R} {rule : Rule × String} {rest : List (Rule × String)}
    {record : R} : putAll transforms fields d context (rule :: rest) record =
      rule.1.put transforms fields d context rule.2 record >>=
        putAll transforms fields d context rest := rfl

/-- Binding from any record: the record is set by each rule in turn, and the errors are those that the
rules give at any other record as well. -/
theorem bindRecord_eq_putAll {fields : FieldTable R} (other record : R)
    (rules : List (Rule × String)) :
    bindRecord transforms fields d context record rules =
      (putAll transforms fields d context rules record).map
        (·, flawsAt transforms fields d context rules other) := by
  induction rules generalizing record with
  | nil => rfl
  | cons rule rest ih =>
      obtain ⟨r, path⟩ := rule
      have hflaw : r.flaw? transforms fields d context path other =
          r.flaw? transforms fields d context path record := Rule.flaw?_eq other record
      rw [bindRecord, putAll_cons]
      cases h : r.apply transforms fields d context path record with
      | ok next =>
          have hnone : r.flaw? transforms fields d context path other = none := by
            rw [hflaw, Rule.flaw?, h]
          have hput : r.put transforms fields d context path record = .ok next := by
            rw [Rule.put, h]
          rw [flawsAt, List.filterMap_cons_none (by rw [hnone]; rfl), hput]
          exact ih next
      | error obstacle =>
          cases obstacle with
          | crash crash =>
              have hput : r.put transforms fields d context path record = .error crash := by
                rw [Rule.put, h]
              rw [hput]
              rfl
          | flaw flaw =>
              have hsome : r.flaw? transforms fields d context path other = some flaw := by
                rw [hflaw, Rule.flaw?, h]
              have hput : r.put transforms fields d context path record = .ok record := by
                rw [Rule.put, h]
              -- the record is handed on, and the error stands in front of those that follow
              rw [flawsAt, List.filterMap_cons_some (by rw [hsome]; rfl), hput]
              simp only [ih record]
              cases hrest : putAll transforms fields d context rest record <;>
                simp [hrest, Except.map, bind, Except.bind, flawsAt]

theorem bindRecord_eq (shape : Shape R) (rules : List (Rule × String)) :
    bindRecord transforms shape.fields d context shape.initial rules =
      (shape.bound transforms d context rules).map
        (·, shape.flaws transforms d context rules) :=
  bindRecord_eq_putAll shape.initial shape.initial rules

/-! ## Setters that never break down -/

/-- A setter that never breaks down. -/
def Setter.Reliable (s : Setter R) : Prop :=
  ∀ value record crash, s.assign value record ≠ .error (.crash crash)

/-- Setters none of which ever breaks down. -/
def FieldTable.Reliable (t : FieldTable R) : Prop := ∀ entry ∈ t.entries, entry.2.Reliable

namespace FieldTable

variable {t : FieldTable R} {name : String}

theorem Reliable.find {setter : Setter R} (ht : t.Reliable) (h : t.find name = some setter) :
    setter.Reliable := by
  obtain ⟨entry, he, rfl⟩ := Option.map_eq_some_iff.1 h
  exact ht entry (List.mem_of_find?_eq_some he)

theorem Reliable.empty : (FieldTable.empty : FieldTable R).Reliable := by
  intro entry h
  cases h

theorem Reliable.add {setter : Setter R} (ht : t.Reliable) (hs : setter.Reliable) :
    (t.add name setter).Reliable := by
  intro entry h
  rcases List.mem_append.1 h with h | h
  · exact ht entry ((List.mem_filter.1 h).1)
  · rw [List.mem_singleton.1 h]
    exact hs

theorem Reliable.int32 {set : R → Int → R} (ht : t.Reliable) : (t.int32 name set).Reliable := by
  refine ht.add fun value record crash h => ?_
  cases value <;> simp only [Setter.assign] at h
  case integer n => split at h <;> cases h
  all_goals cases h

theorem Reliable.float64 {set : R → Decimal.Binary64 → R} (ht : t.Reliable) :
    (t.float64 name set).Reliable := by
  refine ht.add fun value record crash h => ?_
  cases value <;> cases h

theorem Reliable.boolean {set : R → Bool → R} (ht : t.Reliable) :
    (t.boolean name set).Reliable := by
  refine ht.add fun value record crash h => ?_
  cases value <;> cases h

theorem Reliable.text {set : R → String → R} (ht : t.Reliable) : (t.text name set).Reliable := by
  refine ht.add fun value record crash h => ?_
  cases value <;> cases h

end FieldTable

namespace Rule

variable {r : Rule} {fields : FieldTable R} {path : String}

theorem apply_ne_crash (hf : fields.Reliable) {record : R} {crash : Crash} :
    r.apply transforms fields d context path record ≠ .error (.crash crash) := by
  intro h
  unfold apply at h
  split at h
  · cases h
  · cases h
  · unfold bind at h
    split at h
    · cases h
    · rename_i setter hs
      split at h
      · cases h
      · exact hf.find hs _ _ _ h

theorem put_total (hf : fields.Reliable) (record : R) :
    ∃ next, r.put transforms fields d context path record = .ok next := by
  unfold put
  split
  · exact ⟨_, rfl⟩
  · exact ⟨_, rfl⟩
  · rename_i h
    exact absurd h (apply_ne_crash hf)

end Rule

theorem Shape.bound_total {shape : Shape R} (hs : shape.fields.Reliable)
    (rules : List (Rule × String)) : ∃ record, shape.bound transforms d context rules = .ok record := by
  unfold Shape.bound putAll
  generalize shape.initial = record
  induction rules generalizing record with
  | nil => exact ⟨record, rfl⟩
  | cons rule rest ih =>
      obtain ⟨next, hn⟩ : ∃ next, rule.1.put transforms shape.fields d context rule.2 record =
          .ok next := Rule.put_total hs record
      obtain ⟨result, hr⟩ := ih next
      exact ⟨result, by simpa only [List.foldlM_cons, hn, bind, Except.bind] using hr⟩

end Interchange
