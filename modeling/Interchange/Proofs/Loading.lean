import Mathlib.Data.List.Induction
import Interchange.Proofs.Splitting
import Interchange.Schema.Loader

/-!
# Loading schemas

A loader is called again and again while files come, change and go. What it knows under a reference is what the
last load or registration kept there; a load that finds nothing known goes to the first file among the places
for the reference, and only what it describes there is kept (`Loader.loads_of_history`).
-/

namespace Interchange

/-! ## Names of files -/

namespace Files.Location

/-- The components of a location: the top or the folder at hand, if it starts there, and the names. -/
def components (p : Location) : List String :=
  (if isAbsolute p then ["/"] else if (pieces p).head? = some "." then ["."] else []) ++ names p

/-- The last name of a location that is more than this name. -/
def innerName? (p : Location) : Option String :=
  (lastName p).filter fun name => components name != components p

variable {p : Location} {name : String}

theorem slash_notMem_of_mem_splitOn {cs piece : List Char} (h : piece ∈ cs.splitOn '/') : '/' ∉ piece := by
  induction cs generalizing piece with
  | nil =>
      rw [List.splitOn_nil, List.mem_singleton] at h
      rw [h]
      exact List.not_mem_nil
  | cons c cs ih =>
      rw [List.splitOn_cons_eq_if_modifyHead] at h
      split at h
      · rcases List.mem_cons.1 h with rfl | h
        · exact List.not_mem_nil
        · exact ih h
      · rename_i hc
        obtain ⟨first, rest, hpieces⟩ := List.exists_cons_of_ne_nil (List.splitOn_ne_nil '/' cs)
        rw [hpieces, List.modifyHead_cons] at h
        rcases List.mem_cons.1 h with rfl | h
        · have hfirst : '/' ∉ first := ih (by simp [hpieces])
          simp [hfirst, Ne.symm (by simpa using hc : c ≠ '/')]
        · exact ih (by simp [hpieces, h])

theorem lastName_eq_some (h : lastName p = some name) :
    (names p).getLast? = some name ∧ '/' ∉ name.toList ∧ isIdle name = false := by
  obtain ⟨hlast, _⟩ := Option.filter_eq_some_iff.1 h
  obtain ⟨hpiece, hidle⟩ := List.mem_filter.1 (List.mem_of_getLast? hlast)
  obtain ⟨cs, hcs, rfl⟩ := List.mem_map.1 hpiece
  refine ⟨hlast, ?_, by simpa using hidle⟩
  rw [String.toList_ofList]
  exact slash_notMem_of_mem_splitOn hcs

theorem components_of_name (hslash : '/' ∉ name.toList) (hidle : isIdle name = false) :
    components name = [name] := by
  have habsolute : isAbsolute name = false := by
    rw [isAbsolute, beq_eq_false_iff_ne]
    exact fun hfirst => hslash (List.mem_of_mem_head? hfirst)
  have hpieces : pieces name = [name] := by
    rw [pieces, List.splitOn_eq_singleton hslash, List.map_singleton, String.ofList_toList]
  have hhead : name ≠ "." := by
    rintro rfl
    cases hidle
  rw [components, names, hpieces, habsolute]
  simp [hhead, hidle]

/-- A location is bare when it is nothing else than its last name. -/
theorem isBare_eq (h : lastName p = some name) : isBare p = (components name == components p) := by
  obtain ⟨hlast, hslash, hidle⟩ := lastName_eq_some h
  rw [components_of_name hslash hidle, components, isBare]
  have hnames : ((names p).length == 1) = ([name] == names p) := by
    rw [Bool.eq_iff_iff, beq_iff_eq, beq_iff_eq, List.length_eq_one_iff]
    constructor
    · rintro ⟨only, honly⟩
      rw [honly] at hlast ⊢
      cases hlast
      rfl
    · rintro hnames
      exact ⟨name, hnames.symm⟩
  cases habsolute : isAbsolute p with
  | true =>
      have htop : name ≠ "/" := by
        rintro rfl
        exact hslash (by decide)
      simp [htop]
  | false =>
      by_cases hhead : (pieces p).head? = some "."
      · have hpoint : name ≠ "." := by
          rintro rfl
          cases hidle
        simp [hhead, hpoint]
      · simp [hhead, hnames]

end Files.Location

namespace Schema

open Files (Access Location)
open Text (isBlank trimChars)

/-! ## References -/

theorem trimChars_map {f : Char → Char} (hf : ∀ c, isBlank (f c) = isBlank c) (cs : List Char) :
    trimChars (cs.map f) = (trimChars cs).map f := by
  have hblank : isBlank ∘ f = isBlank := funext hf
  rw [trimChars, trimChars, Text.trimRight, Text.trimRight, Text.dropTail, Text.dropTail, Text.trimLeft,
    Text.trimLeft, List.dropWhile_map, hblank, ← List.map_reverse, List.dropWhile_map, hblank, List.map_reverse]

/-- A reference stays as it is once it is normalized. -/
theorem normalizeReference_normalized {reference key : String} (h : normalizeReference reference = .ok key) :
    normalizeReference key = .ok key := by
  dsimp only [normalizeReference] at h
  split at h
  · cases h
  · rename_i hblank
    cases h
    have hslashes : ∀ c, isBlank (if c = '\\' then '/' else c) = isBlank c := by
      intro c
      split
      · rename_i hc
        rw [hc]
        decide
      · rfl
    rw [normalizeReference, String.toList_ofList, trimChars_map hslashes, Path.trimChars_trimChars,
      if_neg (by simpa using hblank), List.map_map]
    refine congrArg (Except.ok ∘ String.ofList) (List.map_congr_left fun c _ => ?_)
    by_cases hc : c = '\\'
    · simp [hc]
    · simp [hc]

/-- The places for a reference: the reference itself, the reference below each search path, and below each
search path its last name, if this is not the whole reference. -/
def places (paths : List Location) (reference : String) : List Location :=
  reference :: paths.map (Location.join · reference) ++
    (Location.innerName? reference).elim [] fun name => paths.map (Location.join · name)

theorem candidates_eq (paths : List Location) (reference : String) :
    candidates paths reference = places paths reference := by
  rw [candidates, places, Location.innerName?]
  refine congrArg (reference :: paths.map (Location.join · reference) ++ ·) ?_
  cases hname : Location.lastName reference with
  | none => rfl
  | some name =>
      simp only [Location.isBare_eq hname, Option.filter_some, bne, Bool.not_eq_true']
      cases Location.components name == Location.components reference <;> rfl

example : places [".", "in/"] "a/b.xsd" =
    ["a/b.xsd", "./a/b.xsd", "in/a/b.xsd", "./b.xsd", "in/b.xsd"] := by decide

namespace Loader

variable {files : Access Id} {l : Loader} {reference key : String} {entries : List Entry}

/-! ## One load -/

theorem run_firstFile (files : Access Id) (tried : List Location) :
    (firstFile files tried).run = tried.find? fun p => (files.isFile p).run := by
  induction tried with
  | nil => rfl
  | cons p rest ih =>
      rw [firstFile, List.find?_cons, ← ih, Id.run_bind]
      cases (files.isFile p).run <;> rfl

theorem run_resolve (files : Access Id) (l : Loader) (reference : String) :
    (l.resolve files reference).run =
      match (places l.paths reference).find? fun p => (files.isFile p).run with
      | some p => .ok p
      | none => .error (.notFound reference (places l.paths reference)) := by
  rw [resolve, Id.run_bind, run_firstFile, candidates_eq]
  cases (places l.paths reference).find? fun p => (files.isFile p).run <;> rfl

/-- What is answered when a reference has to be looked up. -/
def lookedUp (files : Access Id) (l : Loader) (key : String) : Except SchemaError (List Entry) :=
  match (places l.paths key).find? fun p => (files.isFile p).run with
  | none => .error (.notFound key (places l.paths key))
  | some p =>
    match (files.read p).run with
    | .error flaw => .error (.unreadable p flaw)
    | .ok octets => describeOctets octets

theorem run_ask (h : normalizeReference reference = .ok key) :
    (l.ask files describeOctets reference).run = lookedUp files l key := by
  rw [ask, h]
  simp only [Id.run_bind, run_resolve, lookedUp]
  cases (places l.paths key).find? fun p => (files.isFile p).run with
  | none => rfl
  | some p =>
      simp only [Id.run_bind]
      cases (files.read p).run <;> rfl

/-- What a load answers, and the loader behind it. -/
def loaded (files : Access Id) (l : Loader) (reference : String) : Except SchemaError (List Entry) × Loader :=
  (l.load files reference).run

theorem loaded_of_cached (h : normalizeReference reference = .ok key) (hcached : l.cached key = some entries) :
    l.loaded files reference = (.ok entries, l) := by
  rw [loaded, load, h]
  simp only [hcached]
  rfl

theorem loaded_of_miss (h : normalizeReference reference = .ok key) (hcached : l.cached key = none) :
    l.loaded files reference =
      match lookedUp files l key with
      | .error e => (.error e, l)
      | .ok entries => (.ok entries, l.register key entries) := by
  rw [loaded, load, h]
  simp only [hcached, Id.run_bind, run_ask (normalizeReference_normalized h)]
  cases lookedUp files l key <;> rfl

/-- The courses that a load can take: what it answers, and the loader behind it. -/
inductive Course (files : Access Id) (l : Loader) (reference : String) :
    Except SchemaError (List Entry) × Loader → Prop
  | blank {e : SchemaError} (hblank : normalizeReference reference = .error e) :
      Course files l reference (.error e, l)
  | known {key : String} {entries : List Entry} (hkey : normalizeReference reference = .ok key)
      (hcached : l.cached key = some entries) : Course files l reference (.ok entries, l)
  | failed {key : String} {e : SchemaError} (hkey : normalizeReference reference = .ok key)
      (hcached : l.cached key = none) (hfailed : lookedUp files l key = .error e) :
      Course files l reference (.error e, l)
  | described {key : String} {entries : List Entry} (hkey : normalizeReference reference = .ok key)
      (hcached : l.cached key = none) (hfound : lookedUp files l key = .ok entries) :
      Course files l reference (.ok entries, l.register key entries)

theorem course (files : Access Id) (l : Loader) (reference : String) :
    Course files l reference (l.loaded files reference) := by
  cases hkey : normalizeReference reference with
  | error e =>
      have hloaded : l.loaded files reference = (.error e, l) := by
        rw [loaded, load, hkey]
        rfl
      exact hloaded ▸ .blank hkey
  | ok key =>
      cases hcached : l.cached key with
      | some entries => exact (loaded_of_cached hkey hcached).symm ▸ .known hkey hcached
      | none =>
          rw [loaded_of_miss hkey hcached]
          cases hfound : lookedUp files l key with
          | error e => exact .failed hkey hcached hfound
          | ok entries => exact .described hkey hcached hfound

theorem Course.loader_eq {e : SchemaError} {answer : Except SchemaError (List Entry) × Loader}
    (h : Course files l reference answer) (herror : answer.1 = .error e) : answer.2 = l := by
  cases h with
  | blank | failed => rfl
  | known | described => cases herror

theorem Course.paths_eq {answer : Except SchemaError (List Entry) × Loader}
    (h : Course files l reference answer) : answer.2.paths = l.paths := by
  cases h <;> rfl

theorem lookedUp_eq_ok : lookedUp files l key = .ok entries ↔
    ∃ p octets, (places l.paths key).find? (fun p => (files.isFile p).run) = some p ∧
      (files.read p).run = .ok octets ∧ describeOctets octets = .ok entries := by
  unfold lookedUp
  cases (places l.paths key).find? fun p => (files.isFile p).run with
  | none => simp
  | some p => cases hread : (files.read p).run <;> simp [hread]

theorem lookedUp_of_missing (h : ∀ p ∈ places l.paths key, (files.isFile p).run = false) :
    lookedUp files l key = .error (.notFound key (places l.paths key)) := by
  have hnone : (places l.paths key).find? (fun p => (files.isFile p).run) = none :=
    List.find?_eq_none.2 fun p hp => by simp [h p hp]
  rw [lookedUp, hnone]

/-! ## What is kept -/

theorem cached_register (l : Loader) (known key : String) (entries : List Entry) :
    (l.register known entries).cached key = if key = known then some entries else l.cached key := by
  rw [cached, register, List.lookup_cons]
  by_cases hkey : key = known
  · simp [hkey]
  · rw [beq_false_of_ne hkey, if_neg hkey, cached]
    induction l.structures with
    | nil => rfl
    | cons entry rest ih =>
        by_cases hentry : entry.1 = known
        · rw [List.filter_cons_of_neg (by simp [hentry]), List.lookup_cons, hentry, beq_false_of_ne hkey]
          exact ih
        · rw [List.filter_cons_of_pos (by simp [hentry]), List.lookup_cons, List.lookup_cons]
          cases key == entry.1 with
          | true => rfl
          | false => exact ih

theorem Course.cached_eq {answer : Except SchemaError (List Entry) × Loader}
    (h : Course files l reference answer) : answer.2.cached key = some entries ↔
      (normalizeReference reference = .ok key ∧ l.cached key = none ∧ answer.1 = .ok entries) ∨
        l.cached key = some entries := by
  cases h with
  | blank hblank => simp [hblank]
  | @known known found hkey hcached =>
      refine (or_iff_right ?_).symm
      rintro ⟨hknown, hmiss, -⟩
      rw [hkey] at hknown
      cases hknown
      simp [hcached] at hmiss
  | failed => simp
  | @described known found hkey hcached =>
      simp only [cached_register, hkey]
      by_cases heq : key = known
      · simp [heq, hcached]
      · simp [heq, Ne.symm heq]

theorem register_of_miss (hcached : l.cached key = none) :
    l.register key entries = ⟨l.paths, (key, entries) :: l.structures⟩ := by
  rw [register, List.filter_eq_self.2 fun entry hentry => ?_]
  have hne := List.lookup_eq_none_iff.1 hcached entry hentry
  rw [bne_iff_ne] at hne ⊢
  exact hne.symm

/-! ## Histories -/

/-- A call of a loader. -/
inductive Call where
  | load (reference : String)
  | rootElement (reference : String)
  | uri (reference : String)
  | resolve (reference : String)
  | addPath (path : Location)
  | register (reference : String) (entries : List Entry)

/-- The search path that a call adds. -/
def Call.path? : Call → Option Location
  | addPath path => some path
  | _ => none

/-- What a call is answered. -/
inductive Answer where
  | entries (result : Except SchemaError (List Entry))
  | name (result : Except SchemaError String)
  | uri (result : Except SchemaError (Option String))
  | location (result : Except SchemaError Location)
  | done

/-- A call, and the files that it meets. -/
structure Visit where
  files : Access Id
  call : Call

namespace Visit

/-- The answer to a visit, and the loader behind it. -/
def run (v : Visit) (l : Loader) : Answer × Loader :=
  match v.call with
  | .load reference => ((.entries (l.loaded v.files reference).1), (l.loaded v.files reference).2)
  | .rootElement reference => (.name (l.rootElement v.files reference).run, l)
  | .uri reference => (.uri (l.uri v.files reference).run, l)
  | .resolve reference => (.location (l.resolve v.files reference).run, l)
  | .addPath path => (.done, l.addPath path)
  | .register reference entries => (.done, l.register reference entries)

/-- A visit puts a structure under a key: it registers it, or it loads a reference for which nothing is known
and is answered with it. -/
def Keeps (v : Visit) (l : Loader) (key : String) (entries : List Entry) : Prop :=
  v.call = .register key entries ∨
    ∃ reference, v.call = .load reference ∧ normalizeReference reference = .ok key ∧ l.cached key = none ∧
      (v.run l).1 = .entries (.ok entries)

variable {v : Visit}

theorem keeps_register {known : String} {kept : List Entry} (h : v.call = .register known kept) :
    v.Keeps l key entries ↔ known = key ∧ kept = entries := by
  simp [Keeps, h]

theorem keeps_load (h : v.call = .load reference) : v.Keeps l key entries ↔
    normalizeReference reference = .ok key ∧ l.cached key = none ∧
      (l.loaded v.files reference).1 = .ok entries := by
  simp [Keeps, run, h]

/-- What is known behind a visit: what it put there, or what was known before and has not been replaced. -/
theorem cached_run (v : Visit) (l : Loader) (key : String) (entries : List Entry) :
    (v.run l).2.cached key = some entries ↔ v.Keeps l key entries ∨
      l.cached key = some entries ∧ ∀ other, v.call ≠ .register key other := by
  cases hcall : v.call with
  | register known kept =>
      have hrun : (v.run l).2 = l.register known kept := by rw [run, hcall]
      rw [hrun, cached_register, keeps_register hcall]
      by_cases hkey : key = known
      · simp [hkey]
      · simp [hkey, Ne.symm hkey]
  | load reference =>
      have hrun : (v.run l).2 = (l.loaded v.files reference).2 := by rw [run, hcall]
      rw [hrun, keeps_load hcall]
      simp only [ne_eq, reduceCtorEq, not_false_eq_true, implies_true, and_true]
      exact (course v.files l reference).cached_eq
  | rootElement | uri | resolve | addPath => simp [Keeps, run, hcall, cached, addPath]

/-- Only registrations and loads that succeed change what is known. -/
theorem structures_run (v : Visit) (l : Loader) : (v.run l).2.structures = l.structures ∨
    (∃ known kept, v.call = .register known kept) ∨
      ∃ reference kept, v.call = .load reference ∧ (v.run l).1 = .entries (.ok kept) := by
  cases hcall : v.call with
  | register known kept => exact Or.inr (Or.inl ⟨known, kept, rfl⟩)
  | load reference =>
      cases hanswer : (l.loaded v.files reference).1 with
      | error e =>
          refine Or.inl ?_
          simp only [run, hcall, (course v.files l reference).loader_eq hanswer]
      | ok kept => exact Or.inr (Or.inr ⟨reference, kept, rfl, by simp only [run, hcall, hanswer]⟩)
  | rootElement | uri | resolve | addPath => exact Or.inl (by simp only [run, hcall, addPath])

theorem paths_run (v : Visit) (l : Loader) : (v.run l).2.paths = l.paths ++ v.call.path?.toList := by
  cases hcall : v.call with
  | load reference =>
      simp [run, hcall, (course v.files l reference).paths_eq, Call.path?]
  | rootElement | uri | resolve | addPath | register =>
      simp [run, hcall, addPath, Loader.register, Call.path?]

end Visit

/-- The loader that starts with search paths, behind visits one after another. -/
def after (paths : List Location) (history : List Visit) : Loader :=
  history.foldl (fun l v => (v.run l).2) (.new paths)

variable {paths : List Location} {history : List Visit}

theorem after_concat (paths : List Location) (history : List Visit) (v : Visit) :
    after paths (history ++ [v]) = (v.run (after paths history)).2 := by
  simp [after, List.foldl_append]

theorem paths_after (paths : List Location) (history : List Visit) :
    (after paths history).paths = paths ++ history.filterMap (·.call.path?) := by
  induction history using List.reverseRecOn with
  | nil => simp [after, new]
  | append_singleton history v ih =>
      rw [after_concat, Visit.paths_run, ih, List.filterMap_append, List.append_assoc]
      cases hpath : v.call.path? <;> simp [hpath]

/-- A visit of a history puts a structure under a key, and no later one registers another. -/
def LastKept (paths : List Location) (history : List Visit) (key : String) (entries : List Entry) : Prop :=
  ∃ before v rest, history = before ++ v :: rest ∧ v.Keeps (after paths before) key entries ∧
    ∀ w ∈ rest, ∀ other, w.call ≠ .register key other

theorem lastKept_concat {v : Visit} : LastKept paths (history ++ [v]) key entries ↔
    v.Keeps (after paths history) key entries ∨
      LastKept paths history key entries ∧ ∀ other, v.call ≠ .register key other := by
  constructor
  · rintro ⟨before, w, rest, hsplit, hkeeps, hrest⟩
    rcases List.eq_nil_or_concat rest with rfl | ⟨rest, last, rfl⟩
    · obtain ⟨rfl, hlast⟩ := List.append_inj' hsplit rfl
      cases hlast
      exact Or.inl hkeeps
    · rw [List.concat_eq_append, ← List.cons_append, ← List.append_assoc] at hsplit
      obtain ⟨rfl, hlast⟩ := List.append_inj' hsplit rfl
      cases hlast
      exact Or.inr ⟨⟨before, w, rest, rfl, hkeeps, fun x hx => hrest x (by simp [hx])⟩, hrest v (by simp)⟩
  · rintro (hkeeps | ⟨⟨before, w, rest, rfl, hkeeps, hrest⟩, hv⟩)
    · exact ⟨history, v, [], rfl, hkeeps, by simp⟩
    · refine ⟨before, w, rest ++ [v], by simp, hkeeps, fun x hx => ?_⟩
      rcases List.mem_append.1 hx with hx | hx
      · exact hrest x hx
      · rw [List.mem_singleton.1 hx]
        exact hv

/-- What is known behind a history is what was put there last. -/
theorem cached_after (paths : List Location) (history : List Visit) (key : String) (entries : List Entry) :
    (after paths history).cached key = some entries ↔ LastKept paths history key entries := by
  induction history using List.reverseRecOn with
  | nil =>
      refine iff_of_false (by simp [after, new, cached]) ?_
      rintro ⟨before, v, rest, hsplit, -⟩
      simp at hsplit
  | append_singleton history v ih => rw [after_concat, Visit.cached_run, lastKept_concat, ih]

/-- Behind any visits of a loader, with whatever files each of them met: the search paths are those of the
start and those added. What is known under a key is what a load or a registration put there last. A load for a
key that is known answers with the structure, whatever the files and the search paths are. A load for one that
is not known succeeds just when the first of the places for the key at which there is a file can be read and
described; then it answers with what is described there and keeps just this in addition. If there is no file
at any of the places, the error lists them. A load that fails leaves the loader as it was, and nothing but
registrations and successful loads changes what is known. -/
theorem loads_of_history (paths : List Location) (history : List Visit) :
    let l := after paths history
    l.paths = paths ++ history.filterMap (·.call.path?) ∧
      (∀ key entries, l.cached key = some entries ↔ LastKept paths history key entries) ∧
      (∀ files reference key entries, normalizeReference reference = .ok key →
        l.cached key = some entries → l.loaded files reference = (.ok entries, l)) ∧
      (∀ files reference key, normalizeReference reference = .ok key → l.cached key = none →
        (∀ entries, (l.loaded files reference).1 = .ok entries ↔
          ∃ p octets, (places l.paths key).find? (fun p => (files.isFile p).run) = some p ∧
            (files.read p).run = .ok octets ∧ describeOctets octets = .ok entries) ∧
        (∀ entries, (l.loaded files reference).1 = .ok entries →
          (l.loaded files reference).2 = ⟨l.paths, (key, entries) :: l.structures⟩) ∧
        ((∀ p ∈ places l.paths key, (files.isFile p).run = false) →
          (l.loaded files reference).1 = .error (.notFound key (places l.paths key)))) ∧
      (∀ files reference e, (l.loaded files reference).1 = .error e → (l.loaded files reference).2 = l) ∧
      ∀ v : Visit, (v.run l).2.structures = l.structures ∨ (∃ known kept, v.call = .register known kept) ∨
        ∃ reference kept, v.call = .load reference ∧ (v.run l).1 = .entries (.ok kept) := by
  intro l
  refine ⟨paths_after paths history, cached_after paths history, fun files reference key entries hkey hcached =>
    loaded_of_cached hkey hcached, fun files reference key hkey hcached => ?_,
    fun files reference e => (course files l reference).loader_eq, (·.structures_run l)⟩
  rw [loaded_of_miss hkey hcached]
  refine ⟨fun entries => ?_, fun entries h => ?_, fun hmissing => ?_⟩
  · rw [← lookedUp_eq_ok]
    cases lookedUp files l key <;> simp
  · rw [← register_of_miss hcached]
    cases hfound : lookedUp files l key with
    | error e =>
        rw [hfound] at h
        cases h
    | ok found =>
        rw [hfound] at h
        cases h
        rfl
  · rw [lookedUp_of_missing hmissing]

end Loader

end Schema

end Interchange
