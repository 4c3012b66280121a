import Mathlib.Data.List.Basic
import Interchange.ShippingNotice

/-!
# Reading reports back

Readers for the values that reports are made of, and the records whose report shows each field under a name of
its own.
-/

namespace Interchange

/-! ## Readers -/

namespace JsonValue

/-- The member of an object under a key. -/
def member? (key : String) : JsonValue → Option JsonValue
  | object members => members.lookup key
  | _ => none

def members : JsonValue → List (String × JsonValue)
  | object members => members
  | _ => []

def items : JsonValue → List JsonValue
  | list items => items
  | _ => []

/-- Whether a member of an object says yes. -/
def holds (key : String) (v : JsonValue) : Bool :=
  match v.member? key with
  | some (bool b) => b
  | _ => false

/-- How a report shows the value of a field. -/
def ofValue : Value → JsonValue
  | .integer n => integer n
  | .decimal b => decimal b
  | .boolean b => bool b
  | .text s => text s

theorem optional_inj {α : Type} {f : α → JsonValue} (hf : ∀ a b, f a = f b → a = b)
    (hnull : ∀ a, f a ≠ .null) {a b : Option α} : optional f a = optional f b ↔ a = b := by
  constructor
  · intro h
    cases a <;> cases b
    · rfl
    · exact absurd h.symm (hnull _)
    · exact absurd h (hnull _)
    · exact congrArg some (hf _ _ h)
  · rintro rfl
    rfl

@[simp] theorem optional_text_inj {a b : Option String} :
    optional .text a = optional .text b ↔ a = b := optional_inj (by simp) (by simp)

@[simp] theorem optional_decimal_inj {a b : Option Decimal.Binary64} :
    optional .decimal a = optional .decimal b ↔ a = b := optional_inj (by simp) (by simp)

end JsonValue

/-! ## Lists of members -/

variable {α : Type} {members others : List (String × α)} {name other : String}

theorem lookup_eq_none_of_not_mem (h : name ∉ members.map (·.1)) : members.lookup name = none := by
  rw [List.lookup_eq_none_iff]
  intro entry hentry
  rw [bne_iff_ne]
  rintro rfl
  exact h (List.mem_map_of_mem hentry)

theorem lookup_set {i : Nat} (hnodup : (members.map (·.1)).Nodup) (hname : (members.map (·.1))[i]? = some name)
    (new : α) : (members.set i (name, new)).lookup other =
      if other = name then some new else members.lookup other := by
  induction members generalizing i with
  | nil => cases hname
  | cons entry rest ih =>
      obtain ⟨key, value⟩ := entry
      obtain ⟨hkey, hrest⟩ := List.nodup_cons.1 hnodup
      cases i with
      | zero =>
          cases hname
          rw [List.set_cons_zero, List.lookup_cons, List.lookup_cons]
          by_cases hother : other = key
          · simp [hother]
          · simp [hother, beq_false_of_ne hother]
      | succ i =>
          have hne : name ≠ key := by
            rintro rfl
            exact hkey (List.mem_of_getElem? hname)
          rw [List.set_cons_succ, List.lookup_cons, List.lookup_cons, ih hrest hname]
          by_cases hother : other = key
          · simp [hother, hne.symm]
          · simp [beq_false_of_ne hother]

/-- Lists of members with the same keys, each once, that look up alike are the same. -/
theorem eq_of_lookup (hkeys : members.map (·.1) = others.map (·.1)) (hnodup : (members.map (·.1)).Nodup)
    (h : ∀ name, members.lookup name = others.lookup name) : members = others := by
  induction members generalizing others with
  | nil => exact (List.map_eq_nil_iff.1 hkeys.symm).symm
  | cons entry rest ih =>
      obtain ⟨⟨_, other⟩, others, rfl, rfl, hothers⟩ := List.map_eq_cons_iff.1 hkeys.symm
      obtain ⟨key, value⟩ := entry
      obtain ⟨hkey, hrest⟩ := List.nodup_cons.1 hnodup
      have hvalue : value = other := by simpa using h key
      subst hvalue
      refine congrArg _ (ih hothers.symm hrest fun name => ?_)
      by_cases hname : name = key
      · subst hname
        rw [lookup_eq_none_of_not_mem hkey, lookup_eq_none_of_not_mem (hothers ▸ hkey)]
      · have hstep := h name
        rwa [List.lookup_cons, List.lookup_cons, beq_false_of_ne hname] at hstep

/-! ## Records with a report -/

/-- Records whose report shows all of them, each field under a name of its own. -/
structure Reported (R : Type) where
  members : R → List (String × JsonValue)
  names : List String
  keys : ∀ record, (members record).map (·.1) = names
  nodup : names.Nodup
  normal : ∀ name ∈ names, FieldName.normalize name = name
  ext : ∀ x y, members x = members y → x = y

/-- The report of a header. -/
def ShippingNotice.Header.reported : Reported Header where
  members header := header.report.members
  names := ["asn_number", "asn_type", "asn_level", "asn_status", "business_partner", "vendor_name",
    "origin_facility", "destination_facility", "ship_date", "delivery_date", "receipt_dttm", "bill_of_lading",
    "tracking_number", "total_weight", "total_volume", "has_import_error", "has_soft_check_error", "has_alerts",
    "is_cogi_generated", "is_cancelled", "is_closed", "is_gift", "is_whse_transfer", "quality_audit_percent",
    "asn_priority", "schedule_appt", "created_source_type", "last_updated_source_type"]
  keys _ := rfl
  nodup := by decide
  normal := by decide +kernel
  ext x y h := by
    cases x
    cases y
    simpa [report, JsonValue.members] using h

end Interchange
