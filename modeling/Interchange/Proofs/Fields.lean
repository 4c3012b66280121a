import Mathlib.Data.List.Induction
import Interchange.Proofs.Binding
import Interchange.Proofs.Reports
import Interchange.Proofs.Traversal
import Interchange.Xml.Assembly

/-!
# The fields of a header

Where each setter writes its own field and no other, a field of a bound header holds what the last rule for it
brought in, whatever other rules do (`bindHeader_last_gift`). So it makes no difference to the header which
failing rules there are, nor in which order the rules for different fields come.
-/

namespace Interchange

open ShippingNotice (Header headerShape)
open Xml (Document)

variable {R : Type}

/-! ## Records as fields -/

/-- Records seen as their fields: what a field holds, and what it holds when it has been given a value. A
record is what its fields hold. -/
structure Fields (R : Type) where
  Content : Type
  read (name : String) (record : R) : Content
  given (name : String) (value : Value) : Content
  ext : ∀ x y, (∀ name, read name x = read name y) → x = y

/-- Each setter gives the value to the field of its name, and leaves the others alone. -/
def FieldTable.Separate (t : FieldTable R) (fields : Fields R) : Prop :=
  ∀ entry ∈ t.entries, ∀ value x y, entry.2.assign value x = .ok y → ∀ name,
    fields.read name y = if name = entry.1 then fields.given name value else fields.read name x

namespace FieldTable

variable {t : FieldTable R} {fields : Fields R} {name : String}

theorem Separate.find {setter : Setter R} {value : Value} {x y : R} (ht : t.Separate fields)
    (h : t.find name = some setter) (hassign : setter.assign value x = .ok y) (other : String) :
    fields.read other y =
      if other = FieldName.normalize name then fields.given other value else fields.read other x := by
  obtain ⟨entry, he, rfl⟩ := Option.map_eq_some_iff.1 h
  have hkey : entry.1 = FieldName.normalize name := by simpa using List.find?_some he
  rw [← hkey]
  exact ht entry (List.mem_of_find?_eq_some he) value x y hassign other

theorem Separate.empty : (FieldTable.empty : FieldTable R).Separate fields := by
  intro entry h
  cases h

theorem Separate.add {setter : Setter R} (ht : t.Separate fields)
    (hs : ∀ value x y, setter.assign value x = .ok y → ∀ other, fields.read other y =
      if other = FieldName.normalize name then fields.given other value else fields.read other x) :
    (t.add name setter).Separate fields := by
  intro entry h
  rcases List.mem_append.1 h with h | h
  · exact ht entry (List.mem_filter.1 h).1
  · rw [List.mem_singleton.1 h]
    exact hs

end FieldTable

/-! ## The fields that a report shows -/

/-- The fields of a record, as its report shows them. -/
def Reported.fields (reported : Reported R) : Fields R where
  Content := Option JsonValue
  read name record := (reported.members record).lookup name
  given _ value := some (.ofValue value)
  ext x y h := reported.ext x y <| eq_of_lookup ((reported.keys x).trans (reported.keys y).symm)
    ((reported.keys x).symm ▸ reported.nodup) h

/-- The setter puts a value where the report has the field. -/
def Setter.Replaces (setter : Setter R) (reported : Reported R) (name : String) (i : Nat) : Prop :=
  ∀ value x y, setter.assign value x = .ok y →
    reported.members y = (reported.members x).set i (name, .ofValue value)

namespace FieldTable

variable {t : FieldTable R} {reported : Reported R} {name : String}

theorem Separate.replaces {setter : Setter R} {i : Nat} (ht : t.Separate reported.fields)
    (hname : reported.names[i]? = some name) (hs : setter.Replaces reported name i) :
    (t.add name setter).Separate reported.fields := by
  refine ht.add fun value x y h other => ?_
  have hkeys := reported.keys x
  have hread : reported.fields.read other y = (reported.members y).lookup other := rfl
  rw [reported.normal name (List.mem_of_getElem? hname), hread, hs value x y h,
    lookup_set (hkeys ▸ reported.nodup) (hkeys ▸ hname)]
  rfl

theorem Separate.text {set : R → String → R} (i : Nat) (ht : t.Separate reported.fields)
    (hname : reported.names[i]? = some name)
    (hset : ∀ x v, reported.members (set x v) = (reported.members x).set i (name, .text v)) :
    (t.text name set).Separate reported.fields := by
  refine ht.replaces hname fun value x y h => ?_
  cases value <;> cases h
  exact hset x _

theorem Separate.int32 {set : R → Int → R} (i : Nat) (ht : t.Separate reported.fields)
    (hname : reported.names[i]? = some name)
    (hset : ∀ x v, reported.members (set x v) = (reported.members x).set i (name, .integer v)) :
    (t.int32 name set).Separate reported.fields := by
  refine ht.replaces hname fun value x y h => ?_
  cases value <;> simp only [Setter.assign] at h
  case integer n =>
    split at h
    · cases h
      exact hset x n
    · cases h
  all_goals cases h

theorem Separate.float64 {set : R → Decimal.Binary64 → R} (i : Nat) (ht : t.Separate reported.fields)
    (hname : reported.names[i]? = some name)
    (hset : ∀ x v, reported.members (set x v) = (reported.members x).set i (name, .decimal v)) :
    (t.float64 name set).Separate reported.fields := by
  refine ht.replaces hname fun value x y h => ?_
  cases value <;> cases h
  exact hset x _

theorem Separate.boolean {set : R → Bool → R} (i : Nat) (ht : t.Separate reported.fields)
    (hname : reported.names[i]? = some name)
    (hset : ∀ x v, reported.members (set x v) = (reported.members x).set i (name, .bool v)) :
    (t.boolean name set).Separate reported.fields := by
  refine ht.replaces hname fun value x y h => ?_
  cases value <;> cases h
  exact hset x _

end FieldTable

namespace ShippingNotice

theorem Header.fields_reliable : Header.fields.Reliable :=
  FieldTable.Reliable.empty.text.text.int32.text.text.text.text.text.text.text.text.text.text.float64.float64
    |>.boolean.boolean.boolean.boolean.boolean.boolean.boolean.text.float64.int32.int32.int32.int32

theorem Header.fields_separate : Header.fields.Separate Header.reported.fields :=
  FieldTable.Separate.empty
    |>.text 0 rfl (fun _ _ => rfl)
    |>.text 1 rfl (fun _ _ => rfl)
    |>.int32 2 rfl (fun _ _ => rfl)
    |>.text 3 rfl (fun _ _ => rfl)
    |>.text 4 rfl (fun _ _ => rfl)
    |>.text 5 rfl (fun _ _ => rfl)
    |>.text 6 rfl (fun _ _ => rfl)
    |>.text 7 rfl (fun _ _ => rfl)
    |>.text 8 rfl (fun _ _ => rfl)
    |>.text 9 rfl (fun _ _ => rfl)
    |>.text 10 rfl (fun _ _ => rfl)
    |>.text 11 rfl (fun _ _ => rfl)
    |>.text 12 rfl (fun _ _ => rfl)
    |>.float64 13 rfl (fun _ _ => rfl)
    |>.float64 14 rfl (fun _ _ => rfl)
    |>.boolean 15 rfl (fun _ _ => rfl)
    |>.boolean 16 rfl (fun _ _ => rfl)
    |>.boolean 17 rfl (fun _ _ => rfl)
    |>.boolean 18 rfl (fun _ _ => rfl)
    |>.boolean 19 rfl (fun _ _ => rfl)
    |>.boolean 20 rfl (fun _ _ => rfl)
    |>.boolean 21 rfl (fun _ _ => rfl)
    |>.text 22 rfl (fun _ _ => rfl)
    |>.float64 23 rfl (fun _ _ => rfl)
    |>.int32 24 rfl (fun _ _ => rfl)
    |>.int32 25 rfl (fun _ _ => rfl)
    |>.int32 26 rfl (fun _ _ => rfl)
    |>.int32 27 rfl (fun _ _ => rfl)

end ShippingNotice

/-! ## What a rule brings into a field -/

namespace Rule

variable {r : Rule} {transforms : TransformTable} {t : FieldTable R} {d : Document} {context : Nat}
  {path name : String} {fields : Fields R}

/-- The value that a rule brings into a field: what it finds, transformed and coerced, if the field is its
own and the rule meets no flaw. -/
def gift? (r : Rule) (transforms : TransformTable) (t : FieldTable R) (d : Document) (context : Nat)
    (path name : String) (record : R) : Option Value :=
  if FieldName.normalize r.field = name ∧ r.flaw? transforms t d context path record = none then
    match r.extract d context path with
    | .ok (some raw) => (Value.coerce r.type (r.transformed transforms raw)).toOption
    | _ => none
  else none

/-- A rule that succeeds finds nothing, or its setter takes the value of what it finds. -/
theorem apply_eq_ok {x y : R} (h : r.apply transforms t d context path x = .ok y) :
    (r.extract d context path = .ok none ∧ y = x) ∨
      ∃ raw setter value, r.extract d context path = .ok (some raw) ∧ t.find r.field = some setter ∧
        Value.coerce r.type (r.transformed transforms raw) = .ok value ∧ setter.assign value x = .ok y := by
  unfold apply at h
  split at h
  · cases h
  · rename_i hfound
    cases h
    exact Or.inl ⟨hfound, rfl⟩
  · rename_i raw hfound
    unfold bind at h
    split at h
    · cases h
    · rename_i setter hsetter
      split at h
      · cases h
      · rename_i value hvalue
        exact Or.inr ⟨raw, setter, value, hfound, hsetter, hvalue, h⟩

/-- A rule brings in the same value at every record. -/
theorem gift?_eq (x y : R) :
    r.gift? transforms t d context path name x = r.gift? transforms t d context path name y := by
  rw [gift?, gift?, flaw?_eq x y]

theorem gift?_of_flaw {x : R} (h : (r.flaw? transforms t d context path x).isSome) :
    r.gift? transforms t d context path name x = none :=
  if_neg fun hgift => by simp [hgift.2] at h

theorem gift?_of_ok {x y : R} (h : r.apply transforms t d context path x = .ok y) :
    r.gift? transforms t d context path name x =
      if FieldName.normalize r.field = name then
        match r.extract d context path with
        | .ok (some raw) => (Value.coerce r.type (r.transformed transforms raw)).toOption
        | _ => none
      else none := by
  have hflaw : r.flaw? transforms t d context path x = none := by rw [flaw?, h]
  rw [gift?]
  exact if_congr (and_iff_left hflaw) rfl rfl

/-- What a field holds behind a rule: what the rule brings into it, or what it held before. -/
theorem read_put (ht : t.Separate fields) {x y : R} (h : r.put transforms t d context path x = .ok y) :
    fields.read name y =
      (r.gift? transforms t d context path name x).elim (fields.read name x) (fields.given name) := by
  unfold put at h
  split at h
  · rename_i next happly
    cases h
    rw [gift?_of_ok happly]
    rcases apply_eq_ok happly with ⟨hfound, rfl⟩ | ⟨raw, setter, value, hfound, hsetter, hvalue, hassign⟩
    · rw [hfound]
      split <;> rfl
    · rw [ht.find hsetter hassign name, hfound]
      by_cases hname : FieldName.normalize r.field = name
      · rw [if_pos hname, if_pos hname.symm]
        simp only [hvalue]
        rfl
      · rw [if_neg hname, if_neg (Ne.symm hname)]
        rfl
  · rename_i flaw happly
    cases h
    rw [gift?_of_flaw (by rw [flaw?_eq_some.2 happly]; rfl)]
    rfl
  · cases h

end Rule

/-! ## Headers -/

variable {transforms : TransformTable} {t : FieldTable R} {d : Document} {fields : Fields R}
  {rules others kept : List Rule} {record final : R} {name : String}

/-- What a field holds behind rules: the last value that they bring into it, or what it held before. -/
theorem read_putAll (ht : t.Separate fields) {context : Nat} {rules : List (Rule × String)}
    (h : putAll transforms t d context rules record = .ok final) (other : R) (name : String) :
    fields.read name final =
      (rules.filterMap fun rule => rule.1.gift? transforms t d context rule.2 name other).getLast?.elim
        (fields.read name record) (fields.given name) := by
  induction rules using List.reverseRecOn generalizing final with
  | nil =>
      cases h
      rfl
  | append_singleton rules rule ih =>
      have hconcat : putAll transforms t d context (rules ++ [rule]) record =
          putAll transforms t d context rules record >>= rule.1.put transforms t d context rule.2 := by
        simp [putAll, List.foldlM_append]
      rw [hconcat] at h
      obtain ⟨next, hnext, hlast⟩ := bind_eq_ok.1 h
      rw [Rule.read_put ht hlast, ih hnext, Rule.gift?_eq next other, List.filterMap_append,
        List.getLast?_append]
      cases hgift : rule.1.gift? transforms t d context rule.2 name other <;> simp [hgift]

/-- The last value that the active rules bring into a field of a header. -/
def lastGift? (transforms : TransformTable) (t : FieldTable R) (d : Document) (rules : List Rule)
    (name : String) (record : R) : Option Value :=
  ((activeRules rules).filterMap fun r =>
    r.gift? transforms t d Document.rootId r.path name record).getLast?

theorem lastGift?_eq (x y : R) :
    lastGift? transforms t d rules name x = lastGift? transforms t d rules name y := by
  unfold lastGift?
  simp only [Rule.gift?_eq x y]

/-- The errors of the active rules, each on its own at a record. -/
def headerFlaws (transforms : TransformTable) (t : FieldTable R) (d : Document) (rules : List Rule)
    (record : R) : List BindingError :=
  (activeRules rules).filterMap fun r =>
    (r.flaw? transforms t d Document.rootId r.path record).map r.error

theorem headerFlaws_eq (x y : R) :
    headerFlaws transforms t d rules x = headerFlaws transforms t d rules y := by
  unfold headerFlaws
  simp only [Rule.flaw?_eq x y]

/-- A header starts from a record, and its fields hold what the rules bring in. -/
theorem exists_bindHeader (transforms : TransformTable) (ht : t.Reliable) (hs : t.Separate fields)
    (d : Document) (rules : List Rule) (record : R) : ∃ final,
      bindHeader transforms ⟨record, t⟩ d rules = .ok (final, headerFlaws transforms t d rules record) ∧
        ∀ name, fields.read name final = (lastGift? transforms t d rules name record).elim
          (fields.read name record) (fields.given name) := by
  obtain ⟨final, hfinal⟩ : ∃ final, (Shape.mk record t).bound transforms d Document.rootId
    ((activeRules rules).map fun r => (r, r.path)) = .ok final := Shape.bound_total ht _
  refine ⟨final, ?_, fun name => ?_⟩
  · rw [bindHeader, bindRecord_eq, hfinal, Shape.flaws, flawsAt, List.filterMap_map]
    rfl
  · rw [read_putAll hs hfinal record name, List.filterMap_map]
    rfl

/-- Rules that bring the same into each field make the same header. -/
theorem bindHeader_congr (ht : t.Reliable) (hs : t.Separate fields) {errors : List BindingError}
    (h : bindHeader transforms ⟨record, t⟩ d rules = .ok (final, errors))
    (hgifts : ∀ name, lastGift? transforms t d others name record = lastGift? transforms t d rules name record) :
    bindHeader transforms ⟨record, t⟩ d others = .ok (final, headerFlaws transforms t d others record) := by
  obtain ⟨same, hsame, hread⟩ := exists_bindHeader transforms ht hs d rules record
  obtain ⟨other, hother, hreadOther⟩ := exists_bindHeader transforms ht hs d others record
  have hfinal : same = final := by
    rw [hsame] at h
    cases h
    rfl
  have heq : other = final := by
    refine fields.ext _ _ fun name => ?_
    rw [← hfinal, hread, hreadOther, hgifts]
  rw [hother, heq]

/-! ## Rules left out and reordered -/

/-- What is left of a list of rules when some of certain rules are left out. -/
inductive Thinned (idle : Rule → Prop) : List Rule → List Rule → Prop
  | nil : Thinned idle [] []
  | keep {r : Rule} {rules kept : List Rule} (hrest : Thinned idle rules kept) :
      Thinned idle (r :: rules) (r :: kept)
  | drop {r : Rule} {rules kept : List Rule} (hidle : idle r) (hrest : Thinned idle rules kept) :
      Thinned idle (r :: rules) kept

theorem thinned_filter (p : Rule → Bool) (rules : List Rule) :
    Thinned (fun r => ¬ p r) rules (rules.filter p) := by
  induction rules with
  | nil => exact .nil
  | cons r rules ih =>
      rw [List.filter_cons]
      split
      · exact .keep ih
      · exact .drop ‹_› ih

/-- Rules that bring nothing into a field make no difference to it. -/
theorem lastGift?_of_thinned {idle : Rule → Prop} (h : Thinned idle rules kept)
    (hidle : ∀ r, idle r → r.active → r.gift? transforms t d Document.rootId r.path name record = none) :
    lastGift? transforms t d rules name record = lastGift? transforms t d kept name record := by
  refine congrArg List.getLast? ?_
  induction h with
  | nil => rfl
  | @keep r rules kept _ ih =>
      unfold activeRules at ih ⊢
      by_cases hactive : r.active
      · rw [List.filter_cons_of_pos hactive, List.filter_cons_of_pos hactive, List.filterMap_cons,
          List.filterMap_cons, ih]
      · rw [List.filter_cons_of_neg hactive, List.filter_cons_of_neg hactive, ih]
  | @drop r rules kept hr _ ih =>
      unfold activeRules at ih ⊢
      by_cases hactive : r.active
      · rw [List.filter_cons_of_pos hactive, List.filterMap_cons, hidle r hr hactive, ih]
      · rw [List.filter_cons_of_neg hactive, ih]

/-- The rule is one for a field. -/
def Rule.isTo (name : String) (r : Rule) : Bool := FieldName.normalize r.field == name

theorem lastGift?_filter_isTo (rules : List Rule) (name : String) :
    lastGift? transforms t d rules name record =
      lastGift? transforms t d (rules.filter (·.isTo name)) name record := by
  refine lastGift?_of_thinned (thinned_filter _ rules) fun r hr _ => ?_
  exact if_neg fun hgift => hr (by simpa [Rule.isTo] using hgift.1)

/-- Lists of rules that have the same rules for each field, in the same order, are rearrangements of each
other. -/
theorem perm_of_filter_isTo (h : ∀ name, others.filter (·.isTo name) = rules.filter (·.isTo name)) :
    others.Perm rules := by
  rw [List.perm_iff_count]
  intro r
  have hown : r.isTo (FieldName.normalize r.field) := by simp [Rule.isTo]
  rw [← List.count_filter hown, h, List.count_filter hown]

/-- Where no setter breaks down and each writes its own field alone, all active rules are tried, and each
failing one is reported in their order with the error that it gives at any record. A field ends up with the
value that the last of the active rules brings into it, or as it was. So leaving out rules that are inactive
or fail does not change the header, and putting rules for different fields in another order only puts the
errors in another order. -/
theorem bindHeader_last_gift (transforms : TransformTable) (ht : t.Reliable) (hs : t.Separate fields)
    (d : Document) (rules : List Rule) (record : R) : ∃ final errors,
      bindHeader transforms ⟨record, t⟩ d rules = .ok (final, errors) ∧
      (∀ other, errors = headerFlaws transforms t d rules other) ∧
      (∀ name other, fields.read name final = (lastGift? transforms t d rules name other).elim
        (fields.read name record) (fields.given name)) ∧
      (∀ kept, Thinned (fun r => r.active = false ∨
          (r.flaw? transforms t d Document.rootId r.path record).isSome) rules kept →
        ∃ fewer, bindHeader transforms ⟨record, t⟩ d kept = .ok (final, fewer)) ∧
      (∀ others, (∀ name, others.filter (·.isTo name) = rules.filter (·.isTo name)) →
        ∃ reordered, bindHeader transforms ⟨record, t⟩ d others = .ok (final, reordered) ∧
          reordered.Perm errors) := by
  obtain ⟨final, hfinal, hread⟩ := exists_bindHeader transforms ht hs d rules record
  refine ⟨final, _, hfinal, fun other => headerFlaws_eq record other, fun name other => ?_,
    fun kept hkept => ?_, fun others hothers => ?_⟩
  · rw [hread, lastGift?_eq record other]
  · refine ⟨_, bindHeader_congr ht hs hfinal fun name => (lastGift?_of_thinned hkept fun r hr hactive => ?_).symm⟩
    exact Rule.gift?_of_flaw (hr.resolve_left (by simp [hactive]))
  · refine ⟨_, bindHeader_congr ht hs hfinal fun name => ?_, ?_⟩
    · rw [lastGift?_filter_isTo, hothers, ← lastGift?_filter_isTo]
    · exact ((perm_of_filter_isTo hothers).filter _).filterMap _

theorem bindHeader_last_gift_notice :
    let octets := Text.Utf8.encodeText "<ASN><Number>A-7</Number><Level>high</Level><Next>A-8</Next></ASN>"
    let d := (Document.parse octets).toOption.getD .empty
    let number := Rule.new "ASN_HEADERS" "/ASN/Number" "AsnNumber"
    let level := { Rule.new "ASN_HEADERS" "/ASN/Level" "asn_level" with dataType := "integer" }
    let later := Rule.new "ASN_HEADERS" "/ASN/Next" "asn_number"
    let missing := { Rule.new "ASN_HEADERS" "/ASN/Vendor" "asn_number" with required := true }
    let idle := { Rule.new "ASN_HEADERS" "/ASN/Level" "asn_number" with active := false }
    let rules := [number, level, later, missing, idle]
    Header.fields.Reliable ∧ Header.fields.Separate Header.reported.fields ∧
      ∃ final errors, bindHeader .standard (headerShape "2024-05-01") d rules = .ok (final, errors) ∧
        errors = [level.error (.invalidNumber "high"), missing.error .missingRequired] ∧
        Header.reported.fields.read "asn_number" final = some (.text "A-8") ∧
        Header.reported.fields.read "asn_level" final = some (.integer 1) ∧
        (∃ fewer, bindHeader .standard (headerShape "2024-05-01") d [number, later] = .ok (final, fewer)) ∧
        ∃ reordered, bindHeader .standard (headerShape "2024-05-01") d [number, later, missing, idle, level] =
          .ok (final, reordered) ∧ reordered.Perm errors := by
  intro octets d number level later missing idle rules
  have ht := Header.fields_reliable
  have hs := Header.fields_separate
  obtain ⟨hflaws, hnumber, hlevel, hfails⟩ :
      headerFlaws .standard Header.fields d rules (.new "2024-05-01") =
        [level.error (.invalidNumber "high"), missing.error .missingRequired] ∧
      lastGift? .standard Header.fields d rules "asn_number" (.new "2024-05-01") = some (.text "A-8") ∧
      lastGift? .standard Header.fields d rules "asn_level" (.new "2024-05-01") = none ∧
      ∀ r ∈ [level, missing],
        (r.flaw? .standard Header.fields d Document.rootId r.path (.new "2024-05-01")).isSome := by
    decide +kernel
  obtain ⟨final, errors, hbound, herrors, hread, hthinned, hreordered⟩ :=
    bindHeader_last_gift .standard ht hs d rules (.new "2024-05-01")
  refine ⟨ht, hs, final, errors, hbound, (herrors (.new "2024-05-01")).trans hflaws, ?_, ?_, ?_, ?_⟩
  · rw [hread _ (.new "2024-05-01"), hnumber]
    rfl
  · rw [hread _ (.new "2024-05-01"), hlevel]
    rfl
  · exact hthinned _ (.keep (.drop (.inr (hfails level (by simp))) (.keep
      (.drop (.inr (hfails missing (by simp))) (.drop (.inl rfl) .nil)))))
  · refine hreordered _ fun name => ?_
    by_cases hname : name = "asn_level"
    · subst hname
      decide
    · have hother : level.isTo name = false := by
        have hnormal : FieldName.normalize level.field = "asn_level" := by decide
        rw [Rule.isTo, hnormal]
        exact beq_false_of_ne (Ne.symm hname)
      simp only [rules, List.filter_cons, hother, List.filter_nil, Bool.false_eq_true, if_false]

end Interchange
