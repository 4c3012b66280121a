import Mathlib.Data.List.Induction
import Mathlib.Data.List.Nodup
import Interchange.Proofs.Loading
import Interchange.Proofs.Naming
import Interchange.Proofs.Scanning
import Interchange.Transform

/-!
# What a name of a transform runs

A table takes in transforms one after another under their names. A name runs the last transform that came in under
it, up to case and the white space around the name that is looked up (`TransformTable.lookups_of_history`). White
space around the name under which a transform comes in is kept, and then no name runs it.
-/

namespace Interchange

open Text (Agree asciiLower trim trimChars)

/-! ## Names without white space around them -/

/-- A name has the lower case of a trimmed name just if it is trimmed itself and agrees with that name. -/
theorem Text.asciiLower_eq_iff {a b : String} : asciiLower a = asciiLower (trim b) ↔ trim a = a ∧ Agree a b := by
  rw [← Text.asciiLower_trim_eq_iff]
  refine ⟨fun h => ?_, fun ⟨htrim, h⟩ => by rwa [htrim] at h⟩
  have hchars : a.toList.map Char.toLower = (trimChars b.toList).map Char.toLower := by
    simpa only [asciiLower, trim, String.toList_ofList, String.ofList_inj] using h
  -- white space stays white space in lower case, so that the first name has none at its ends
  have hlower : (trimChars a.toList).map Char.toLower = a.toList.map Char.toLower := by
    rw [← Schema.trimChars_map Text.isBlank_toLower, hchars, Schema.trimChars_map Text.isBlank_toLower,
      Path.trimChars_trimChars]
  have htrim : trim a = a := by
    have hlength := congrArg List.length hlower
    rw [List.length_map, List.length_map] at hlength
    rw [trim, (Path.trimChars_sublist _).eq_of_length hlength, String.ofList_toList]
  exact ⟨htrim, by rwa [htrim]⟩

/-! ## Registrations -/

/-- A transform and the name under which it comes in. -/
structure NamedTransform where
  name : String
  transform : Transform

namespace NamedTransform

/-- Whether a name is answered by a transform: it agrees with the name of the transform, which has no white space
around it. -/
def Answers (entry : NamedTransform) (name : String) : Prop := trim entry.name = entry.name ∧ Agree entry.name name

theorem answers_iff {entry : NamedTransform} {name : String} :
    asciiLower entry.name = asciiLower (trim name) ↔ entry.Answers name := Text.asciiLower_eq_iff

instance (entry : NamedTransform) (name : String) : Decidable (entry.Answers name) :=
  decidable_of_iff _ answers_iff

/-- The last transform that answers a name. -/
def last? (entries : List NamedTransform) (name : String) : Option Transform :=
  ((entries.filter (·.Answers name)).getLast?).map (·.transform)

theorem last?_concat (entries : List NamedTransform) (entry : NamedTransform) (name : String) :
    last? (entries ++ [entry]) name =
      if entry.Answers name then some entry.transform else last? entries name := by
  unfold last?
  by_cases h : entry.Answers name <;> simp [List.filter_append, h]

/-- Where each transform has a name of its own, the last one that answers a name is the only one. -/
theorem last?_eq_find? {entries : List NamedTransform} (h : (entries.map (asciiLower ·.name)).Nodup)
    (name : String) : last? entries name = (entries.find? (·.Answers name)).map (·.transform) := by
  induction entries with
  | nil => rfl
  | cons entry rest ih =>
      rw [List.map_cons, List.nodup_cons] at h
      by_cases hentry : entry.Answers name
      · have hrest : rest.filter (·.Answers name) = [] := by
          refine List.filter_eq_nil_iff.2 fun other hother hanswers => h.1 ?_
          have hother' : other.Answers name := of_decide_eq_true hanswers
          exact List.mem_map.2 ⟨other, hother, (answers_iff.2 hother').trans (answers_iff.2 hentry).symm⟩
        simp [last?, hentry, hrest]
      · simpa [last?, hentry] using ih h.2

end NamedTransform

namespace TransformTable

open NamedTransform (last?)

variable {t : TransformTable} {name : String} {f : Transform} {found : Option Transform}

/-- A table with more transforms, one after another. -/
def registerAll (t : TransformTable) (entries : List NamedTransform) : TransformTable :=
  entries.foldl (fun t entry => t.register entry.name entry.transform) t

/-- The transforms that every table starts with, by name. -/
def builtIns : List NamedTransform := [
  ⟨"uppercase", fun v => .ok (Text.upper v)⟩,
  ⟨"lowercase", fun v => .ok (Text.lower v)⟩,
  ⟨"trim", fun v => .ok (trim v)⟩,
  ⟨"date_format", Transform.date⟩,
  ⟨"format_date", Transform.date⟩,
  ⟨"time_format", Transform.time⟩,
  ⟨"format_time", Transform.time⟩,
  ⟨"remove_leading_zeros", Transform.integer⟩,
  ⟨"parse_integer", Transform.integer⟩,
  ⟨"decimal_format", Transform.decimal⟩,
  ⟨"format_decimal", Transform.decimal⟩,
  ⟨"status_code", Transform.status⟩,
  ⟨"map_status", Transform.status⟩,
  ⟨"date", Transform.reorderDate⟩,
  ⟨"number", Transform.amount⟩]

/-! ## Lookups -/

theorem find_register (t : TransformTable) (entry : NamedTransform) (name : String) :
    (t.register entry.name entry.transform).find name =
      if entry.Answers name then some entry.transform else t.find name := by
  have hkey : asciiLower entry.name = asciiLower (trim name) ↔ entry.Answers name := NamedTransform.answers_iff
  simp only [find, register, find?_replace t.entries (asciiLower entry.name, entry.transform), hkey]
  split <;> rfl

/-- Behind any registrations, the last one that answers a name is found, or else what was found before. -/
theorem find_registerAll (t : TransformTable) (entries : List NamedTransform) (name : String) :
    (t.registerAll entries).find name = (last? entries name).or (t.find name) := by
  induction entries using List.reverseRecOn with
  | nil => simp [registerAll, last?]
  | append_singleton entries entry ih =>
      have hlast : t.registerAll (entries ++ [entry]) =
          (t.registerAll entries).register entry.name entry.transform := by
        simp [registerAll, List.foldl_append]
      rw [hlast, find_register, NamedTransform.last?_concat, ih]
      by_cases h : entry.Answers name
      · rw [if_pos h, if_pos h, Option.some_or]
      · rw [if_neg h, if_neg h]

theorem nodup_builtIns : (builtIns.map (asciiLower ·.name)).Nodup := by decide +kernel

theorem trim_builtIns : ∀ entry ∈ builtIns, trim entry.name = entry.name := by decide

theorem find_standard (name : String) :
    standard.find name = (builtIns.find? (·.Answers name)).map (·.transform) := by
  have hstandard : standard = empty.registerAll builtIns := by
    simp only [standard, registerAll, builtIns, List.foldl_cons, List.foldl_nil]
  rw [hstandard, find_registerAll, NamedTransform.last?_eq_find? nodup_builtIns]
  exact Option.or_none ..

/-- A built-in transform is found under its own name. -/
theorem find_builtIn (h : ⟨name, f⟩ ∈ builtIns) : standard.find name = some f := by
  have htrim : trim name = name := trim_builtIns ⟨name, f⟩ h
  have hself : NamedTransform.Answers ⟨name, f⟩ name :=
    NamedTransform.answers_iff.1 (congrArg asciiLower htrim.symm)
  rw [find_standard]
  cases hfind : builtIns.find? (·.Answers name) with
  | none => exact absurd hself (by simpa using List.find?_eq_none.1 hfind ⟨name, f⟩ h)
  | some other =>
      have hanswers : other.Answers name := by simpa using List.find?_some hfind
      have hsame : asciiLower other.name = asciiLower name :=
        (NamedTransform.answers_iff.2 hanswers).trans (congrArg asciiLower htrim)
      obtain rfl := List.inj_on_of_nodup_map nodup_builtIns (List.mem_of_find?_eq_some hfind) h hsame
      rfl

/-- What the lookups of a name give where there is this transform for it, or none: the name is contained, and runs
a function on every value, just if the function is that transform. -/
structure Gives (t : TransformTable) (name : String) (found : Option Transform) : Prop where
  contains_eq : t.contains name = found.isSome
  tryApply_eq : ∀ value, t.tryApply name value = found.map fun f => f value
  runs_iff : ∀ f, (t.contains name = true ∧ ∀ value, t.tryApply name value = some (f value)) ↔ found = some f

theorem gives_find (t : TransformTable) (name : String) : t.Gives name (t.find name) where
  contains_eq := rfl
  tryApply_eq _ := rfl
  runs_iff f := by
    rw [contains]
    cases hfind : t.find name with
    | none => simp
    | some g => simp [tryApply, hfind, funext_iff]

/-! ## Whole histories -/

/-- However transforms came into a table, a name gives the last one that answers it. In a table that started with
the built-in ones, a name that none of the later ones answers gives the built-in one that answers it. One more
transform changes what a name gives just if it answers the name. -/
theorem lookups_of_history (entries : List NamedTransform) (name : String) :
    (empty.registerAll entries).Gives name (last? entries name) ∧
    (standard.registerAll entries).Gives name
      ((last? entries name).or ((builtIns.find? (·.Answers name)).map (·.transform))) ∧
    ∀ (t : TransformTable) (entry : NamedTransform), (t.register entry.name entry.transform).Gives name
      (if entry.Answers name then some entry.transform else t.find name) := by
  refine ⟨?_, ?_, fun t entry => ?_⟩
  · have hfind : (empty.registerAll entries).find name = last? entries name :=
      (find_registerAll empty entries name).trans (Option.or_none ..)
    exact hfind ▸ gives_find _ name
  · rw [← find_standard, ← find_registerAll]
    exact gives_find _ name
  · rw [← find_register]
    exact gives_find _ name

/-- A transform whose name has white space around it. -/
def spacedReverse : NamedTransform := ⟨" reverse ", fun v => .ok (String.ofList v.toList.reverse)⟩

/-- It is the last one that came in under its name, and the name is not contained, with or without the white
space. -/
theorem spacedReverse_lost : Agree spacedReverse.name "reverse" ∧ Agree spacedReverse.name " reverse " ∧
    (standard.registerAll [spacedReverse]).contains "reverse" = false ∧
    (standard.registerAll [spacedReverse]).contains " reverse " = false ∧
    (standard.registerAll [spacedReverse]).tryApply "reverse" "abc" = none ∧
    (standard.registerAll [spacedReverse]).apply "reverse" "abc" = "abc" := by
  have hspaced : Agree " reverse " "reverse" ∧ Agree " reverse " " reverse " := by
    unfold Agree
    decide
  have hnone : (standard.registerAll [spacedReverse]).contains "reverse" = false := by decide
  have hfind : (standard.registerAll [spacedReverse]).find "reverse" = none := by
    simpa only [contains, Option.isSome_eq_false_iff, Option.isNone_iff_eq_none] using hnone
  have htry : (standard.registerAll [spacedReverse]).tryApply "reverse" "abc" = none := by
    rw [tryApply, hfind, Option.map_none]
  have hvalue : Text.isBlankText "abc" = false := by decide
  exact ⟨hspaced.1, hspaced.2, hnone, by decide, htry, by rw [apply, hvalue, htry]; rfl⟩

end TransformTable

end Interchange
