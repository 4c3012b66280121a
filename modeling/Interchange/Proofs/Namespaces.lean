import Mathlib.Logic.Function.Basic
import Interchange.Proofs.Numbering

/-!
# Namespaces

The namespace of a node is what its prefix is bound to where the way down from the document has come to the node:
each element on the way binds what it declares, in place of what was bound outside, and takes away what it declares to
be empty (`Document.namespaceOf_eq_bound`).
-/

namespace Interchange.Xml

/-- The namespaces to which prefixes are bound; without a prefix it is the default. -/
abbrev Bindings : Type := Option String → Option String

/-- The prefix that an attribute of a name binds, if it declares a namespace. -/
def boundPrefix (name : String) : Option (Option String) :=
  if name = "xmlns" then some none
  else if prefixPart name = some "xmlns" then some (some (localPart name))
  else none

namespace Bindings

/-- A declaration comes in place of what its prefix was bound to; an empty one only takes it away. -/
def declare (b : Bindings) (pair : String × String) : Bindings :=
  match boundPrefix pair.1 with
  | some p => Function.update b p (if pair.2.isEmpty then none else some pair.2)
  | none => b

def declareAll (b : Bindings) (pairs : List (String × String)) : Bindings := pairs.foldl declare b

end Bindings

/-- The name of an attribute that binds a prefix. -/
def declarationName : Option String → String
  | some p => "xmlns:" ++ p
  | none => "xmlns"

/-! ## Qualified names -/

section

variable {name p q : String}

theorem splitOnce_qualified (h : ':' ∉ p.toList) :
    Text.splitOnce ':' (p ++ ":" ++ q).toList = some (p.toList, q.toList) := by
  have hchars : (p ++ ":" ++ q).toList = p.toList ++ ':' :: q.toList := by simp
  rw [hchars, Text.splitOnce_append h]

theorem prefixPart_append (h : ':' ∉ p.toList) : prefixPart (p ++ ":" ++ q) = some p := by
  rw [prefixPart, splitOnce_qualified h]
  exact congrArg some String.ofList_toList

theorem localPart_append (h : ':' ∉ p.toList) : localPart (p ++ ":" ++ q) = q := by
  rw [localPart, splitOnce_qualified h]
  exact String.ofList_toList

theorem eq_of_prefixPart (h : prefixPart name = some p) : name = p ++ ":" ++ localPart name := by
  obtain ⟨⟨before, after⟩, hsplit, rfl⟩ := Option.map_eq_some_iff.1 h
  have hchars := (Text.splitOnce_eq_some hsplit).1
  rw [localPart, hsplit]
  apply String.toList_injective
  simpa using hchars

end

/-! ## Declarations -/

section

variable {name : String} {p : Option String} {b : Bindings} {pair : String × String} {pairs : List (String × String)}

theorem boundPrefix_eq_some : boundPrefix name = some p ↔ name = declarationName p := by
  have hprefix : ':' ∉ "xmlns".toList := by decide
  unfold boundPrefix
  cases p with
  | none =>
      constructor
      · intro h
        split at h
        · assumption
        · split at h <;> cases h
      · exact fun h => if_pos h
  | some q =>
      constructor
      · intro h
        split at h
        · cases h
        · split at h
          · rename_i hname
            cases h
            exact eq_of_prefixPart hname
          · cases h
      · intro h
        have hname : name = "xmlns" ++ ":" ++ q := h
        have hne : name ≠ "xmlns" := by
          intro heq
          have hlength := congrArg String.length (hname.symm.trans heq)
          rw [String.length_append, String.length_append] at hlength
          have : ":".length = 1 := rfl
          omega
        rw [if_neg hne, hname, if_pos (prefixPart_append hprefix), localPart_append hprefix]

theorem declare_apply : b.declare pair p =
    if pair.1 = declarationName p then if pair.2.isEmpty then none else some pair.2 else b p := by
  unfold Bindings.declare
  cases hbound : boundPrefix pair.1 with
  | none =>
      have hname : pair.1 ≠ declarationName p := fun hname => by
        rw [boundPrefix_eq_some.2 hname] at hbound
        cases hbound
      rw [if_neg hname]
  | some q =>
      have hname : pair.1 = declarationName p ↔ p = q := by
        rw [← boundPrefix_eq_some, hbound, Option.some.injEq, eq_comm]
      simp only [hname, Function.update_apply]

/-- Of pairs with different names only one can bind a prefix. -/
theorem declareAll_apply (h : (pairs.map (·.1)).Nodup) : b.declareAll pairs p =
    match pairs.find? (·.1 = declarationName p) with
    | some pair => if pair.2.isEmpty then none else some pair.2
    | none => b p := by
  induction pairs generalizing b with
  | nil => rfl
  | cons pair pairs ih =>
      obtain ⟨hnew, hrest⟩ := List.nodup_cons.1 h
      have htail : b.declareAll (pair :: pairs) p = (b.declare pair).declareAll pairs p := rfl
      rw [htail, ih hrest, declare_apply]
      by_cases hname : pair.1 = declarationName p
      · have hnone : pairs.find? (·.1 = declarationName p) = none := by
          refine List.find?_eq_none.2 fun other hother hsame => hnew ?_
          have hkey : other.1 = pair.1 := (of_decide_eq_true hsame).trans hname.symm
          exact List.mem_map.2 ⟨other, hother, hkey⟩
        simp [hnone, hname]
      · simp [hname]

end

namespace Document

variable {d : Document} {i c turns : Nat} {path other : List Nat} {p : Option String} {name : String}

/-- The way down from the document, through its outermost element, to a node. -/
inductive Leads (d : Document) : List Nat → Nat → Prop
  | root : Leads d [] rootId
  | step {path : List Nat} {i c : Nat} (h : Leads d path i)
      (hlisted : c ∈ (d.node i).attributes ++ (d.node i).children) : Leads d (path ++ [c]) c

/-- What is bound at the end of a way down. -/
def boundAlong (d : Document) (path : List Nat) : Bindings :=
  path.foldl (fun b i => b.declareAll (d.attributePairs i)) fun _ => none

/-- The search for a declaration, from a node upwards. There is no answer if it does not end in so many turns. -/
def searchUp (d : Document) (name : String) : Nat → Option Nat → Option (Option Nat)
  | _, none => some none
  | 0, some _ => none
  | turns + 1, some i =>
    match (d.node i).attributes.find? fun a => (d.node a).name == name with
    | some a => some (some a)
    | none => d.searchUp name turns (d.node i).parent

/-- The namespace of a node, if the search for it ends in so many turns. -/
def namespaceWithin (d : Document) (turns i : Nat) : Option (Option String) :=
  (d.searchUp (declarationName (prefixPart (d.node i).name)) turns (some i)).map fun found =>
    (found.bind fun a => (d.node a).value).filter fun uri => !uri.isEmpty

/-! ## The way down -/

theorem Leads.unique (hd : d.Arranged) (h : d.Leads path i) (hother : d.Leads other i) : path = other := by
  have hfirst : ∀ {p}, rootId ∉ (d.node p).attributes ++ (d.node p).children := fun hmem =>
    absurd (parent_lt (hd.parent_eq_some.2 hmem)) (Nat.not_lt_zero _)
  induction h generalizing other with
  | root =>
      cases hother with
      | root => rfl
      | step _ hlisted => exact absurd hlisted hfirst
  | step _ hlisted ih =>
      cases hother with
      | root => exact absurd hlisted hfirst
      | step hother hlisted' =>
          cases (hd.parent_eq_some.2 hlisted).symm.trans (hd.parent_eq_some.2 hlisted')
          rw [ih hother]

/-- A way leads to every node. -/
theorem exists_leads (hd : d.Arranged) (hw : d.WellFormed) {i : Nat} (hi : i < d.size) : ∃ path, d.Leads path i := by
  by_cases hroot : i = rootId
  · exact ⟨[], hroot ▸ .root⟩
  · obtain ⟨p, hlt, hparent, _⟩ := hw.hangsOn i hi hroot
    obtain ⟨path, hpath⟩ := exists_leads hd hw (Nat.lt_trans hlt hi)
    exact ⟨path ++ [i], hpath.step (hd.parent_eq_some.1 hparent)⟩

/-- Every way but that to the document itself begins with the outermost element. -/
theorem Leads.head? (hd : d.Arranged) (hw : d.WellFormed) (h : d.Leads path i) (hi : i ≠ rootId) :
    path.head? = d.documentElement := by
  obtain ⟨c, hroot, helement⟩ := hw.root
  have houtermost : d.documentElement = some c := by
    rw [documentElement, hroot]
    simp [helement]
  rw [houtermost]
  induction h with
  | root => exact absurd rfl hi
  | @step path p i h hlisted ih =>
      rw [List.head?_append]
      by_cases hp : p = rootId
      · subst hp
        rw [hroot] at hlisted
        rw [h.unique hd .root, List.mem_singleton.1 hlisted]
        rfl
      · rw [ih hp, Option.some_or]

/-! ## The way up -/

/-- The pair of an attribute tells what the attribute binds. -/
theorem filter_value {a : Nat} : ((d.node a).value.filter fun uri => !uri.isEmpty) =
    if (d.node a).pair.2.isEmpty then none else some (d.node a).pair.2 := by
  unfold Node.pair
  cases (d.node a).value with
  | none => rfl
  | some value => simp [Option.filter, Bool.not_eq_eq_eq_not, apply_ite, ite_not]

theorem declareAll_attributePairs {b : Bindings} (h : ((d.attributePairs i).map (·.1)).Nodup) :
    b.declareAll (d.attributePairs i) p =
      match (d.node i).attributes.find? fun a => (d.node a).name == declarationName p with
      | some a => (d.node a).value.filter fun uri => !uri.isEmpty
      | none => b p := by
  have hfind : (d.attributePairs i).find? (·.1 = declarationName p) =
      ((d.node i).attributes.find? fun a => (d.node a).name == declarationName p).map fun a => (d.node a).pair :=
    List.find?_map ..
  rw [declareAll_apply h, hfind]
  cases (d.node i).attributes.find? fun a => (d.node a).name == declarationName p with
  | none => rfl
  | some a => exact filter_value.symm

theorem declarationOf_eq : d.declarationOf name i =
    match (d.node i).attributes.find? fun a => (d.node a).name == name with
    | some a => some a
    | none => (d.node i).parent.bind (d.declarationOf name) := by
  rw [declarationOf]
  cases (d.node i).attributes.find? fun a => (d.node a).name == name with
  | some a => rfl
  | none =>
      dsimp only
      split <;> rename_i hparent
      · rw [hparent]
        rfl
      · simp only [hparent, Option.bind_some]

theorem namespaceOf_eq : d.namespaceOf i =
    ((d.declarationOf (declarationName (prefixPart (d.node i).name)) i).bind fun a => (d.node a).value).filter
      fun uri => !uri.isEmpty := by
  rw [namespaceOf]
  cases prefixPart (d.node i).name <;> rfl

/-- The search upwards takes no more turns than there are nodes on the way down. -/
theorem Leads.searchUp (hd : d.Arranged) (hw : d.WellFormed) (h : d.Leads path i) (hturns : path.length < turns) :
    d.searchUp name turns (some i) = some (d.declarationOf name i) := by
  induction h generalizing turns with
  | root =>
      obtain ⟨c, hroot, _⟩ := hw.root
      obtain ⟨turns, rfl⟩ := Nat.exists_eq_succ_of_ne_zero (Nat.ne_of_gt hturns)
      rw [declarationOf_eq, Document.searchUp, hroot]
      cases turns <;> rfl
  | @step path p i _ hlisted ih =>
      rw [List.length_append, List.length_singleton] at hturns
      obtain ⟨turns, rfl⟩ := Nat.exists_eq_succ_of_ne_zero (show turns ≠ 0 by omega)
      rw [declarationOf_eq, Document.searchUp, hd.parent_eq_some.2 hlisted, ih (by omega)]
      cases (d.node i).attributes.find? fun a => (d.node a).name == name <;> rfl

/-- What the nearest declaration binds is what is bound at the end of the way down. -/
theorem Leads.bound (hd : d.Arranged) (hw : d.WellFormed) (hnames : ∀ i, ((d.attributePairs i).map (·.1)).Nodup)
    (h : d.Leads path i) : ((d.declarationOf (declarationName p) i).bind fun a => (d.node a).value).filter
      (fun uri => !uri.isEmpty) = d.boundAlong path p := by
  induction h with
  | root =>
      obtain ⟨c, hroot, _⟩ := hw.root
      rw [declarationOf_eq, hroot]
      rfl
  | @step path q i _ hlisted ih =>
      rw [boundAlong, List.foldl_append, List.foldl_cons, List.foldl_nil, declareAll_attributePairs (hnames i),
        declarationOf_eq, hd.parent_eq_some.2 hlisted, ← boundAlong, ← ih]
      cases (d.node i).attributes.find? fun a => (d.node a).name == declarationName p <;> rfl

/-! ## Documents that were read -/

open Text.Utf8 (Octets encodeText)

/-- The attributes of a node have different names. -/
theorem nodup_attributePairs {octets : Octets} (h : Document.parse octets = .ok d) (i : Nat) :
    ((d.attributePairs i).map (·.1)).Nodup := by
  obtain ⟨hw, hdeclares⟩ := wellFormed_of_parse h
  by_cases hnone : (d.node i).attributes = []
  · rw [attributePairs, hnone]
    exact .nil
  · have hi : i < d.size := Nat.lt_of_not_le fun hle => hnone (by rw [node_of_le hle])
    have hmem : i ∈ d.elements := List.mem_filter.2 ⟨List.mem_range.2 hi, hw.isElement_of_attributes i hnone⟩
    obtain ⟨tag, -, name, -, -, hpairs⟩ := exists_of_forall₂ hdeclares hmem
    exact nodup_readPairs hpairs

/-- To each node of a document that was read there is one way down, from the outermost element to the node. The
namespace of the node is what its prefix, or the default, is bound to along this way, and the search for it from
the node upwards ends within as many turns as there are nodes on the way, and one. -/
theorem namespaceOf_eq_bound {octets : Octets} (h : Document.parse octets = .ok d) (hi : i < d.size) :
    ∃ path, (∀ other, d.Leads other i ↔ other = path) ∧ (i ≠ rootId → path.head? = d.documentElement) ∧
      d.namespaceOf i = d.boundAlong path (prefixPart (d.node i).name) ∧
      ∀ turns, path.length < turns → d.namespaceWithin turns i = some (d.namespaceOf i) := by
  have hd := Arranged.of_parse h
  obtain ⟨hw, -⟩ := wellFormed_of_parse h
  obtain ⟨path, hpath⟩ := exists_leads hd hw hi
  refine ⟨path, fun other => ⟨fun hother => hother.unique hd hpath, fun heq => heq ▸ hpath⟩,
    hpath.head? hd hw, ?_, fun turns hturns => ?_⟩
  · rw [namespaceOf_eq, hpath.bound hd hw (nodup_attributePairs h)]
  · rw [namespaceWithin, hpath.searchUp hd hw hturns, namespaceOf_eq]
    rfl

theorem namespaceOf_eq_bound_shadowed : ∃ d, Document.parse
    (encodeText "<a xmlns='u' xmlns:p='v'><b xmlns='' xmlns:p='w'><p:c/><e/></b></a>") = .ok d ∧ 7 < d.size ∧
      d.namespaceOf 7 = some "w" ∧ d.namespaceOf 8 = none := by
  have hread : (Document.parse
      (encodeText "<a xmlns='u' xmlns:p='v'><b xmlns='' xmlns:p='w'><p:c/><e/></b></a>")).toOption.map
      (fun d => (d.size, [0, 1, 4].map fun i => (d.node i).children, [7, 8].map (d.namespaceWithin 4))) =
      some (9, [[1], [4], [7, 8]], [some (some "w"), some none]) := by
    decide +kernel
  cases hd : Document.parse
      (encodeText "<a xmlns='u' xmlns:p='v'><b xmlns='' xmlns:p='w'><p:c/><e/></b></a>") with
  | error m => simp [hd, Except.toOption] at hread
  | ok d =>
      simp only [hd, Except.toOption, Option.map_some, Option.some.injEq, Prod.mk.injEq, List.map_cons,
        List.map_nil, List.cons.injEq, and_true] at hread
      obtain ⟨hsize, ⟨hroot, ha, hb⟩, h7, h8⟩ := hread
      have hway : d.Leads [1, 4] 4 := .step (.step .root (by simp [rootId, hroot])) (by simp [ha])
      have hnamespace : ∀ i ∈ [7, 8], d.namespaceWithin 4 i = some (d.namespaceOf i) := by
        intro i hi
        have hlt : i < d.size := by
          simp only [List.mem_cons, List.not_mem_nil, or_false] at hi
          omega
        obtain ⟨path, hpath, -, -, hturns⟩ := namespaceOf_eq_bound hd hlt
        refine hturns 4 ?_
        rw [← (hpath _).1 (hway.step (by simp [hb, hi]))]
        exact Nat.lt_succ_self 3
      refine ⟨d, rfl, by omega, ?_, ?_⟩
      · rw [hnamespace 7 (by simp)] at h7
        exact Option.some.inj h7
      · rw [hnamespace 8 (by simp)] at h8
        exact Option.some.inj h8

end Document

end Interchange.Xml
