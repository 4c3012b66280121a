import Interchange.Proofs.Numbering
import Interchange.Proofs.Writing

/-!
# What a walk visits

A walk visits a node and the nodes below it in their order, as far as its limit goes, each at its distance from the
start, and it leaves what it has entered. A stack of nodes whose top gives way to its children lists the same nodes
(`Document.walk_visits`).
-/

namespace Interchange.Xml.Document

variable {d : Document} {depth limit left next start stop i c n k : Nat} {cs : List Nat}
  {events more : List WalkEvent}

/-- Nodes, each with all nodes below it. -/
def inSubtrees (d : Document) (cs : List Nat) : List Nat := cs.flatMap fun c => c :: d.descendants c

theorem inSubtrees_cons : d.inSubtrees (c :: cs) = c :: (d.inSubtrees (d.node c).children ++ d.inSubtrees cs) := by
  rw [inSubtrees, List.flatMap_cons, descendants_eq]
  rfl

theorem inSubtrees_append {others : List Nat} :
    d.inSubtrees (cs ++ others) = d.inSubtrees cs ++ d.inSubtrees others := List.flatMap_append

theorem inSubtrees_children : d.inSubtrees (d.node i).children = d.descendants i := descendants_eq.symm

theorem inSubtrees_singleton : d.inSubtrees [i] = i :: d.descendants i := List.flatMap_singleton ..

/-! ## The course of a walk -/

/-- The course of a walk along nodes side by side: its events, and the visits that are left over. -/
inductive Walks (d : Document) : Nat → Nat → List Nat → List WalkEvent → Nat → Prop
  | done {depth limit : Nat} : Walks d depth limit [] [] limit
  | stopped {depth : Nat} {cs : List Nat} : Walks d depth 0 cs [] 0
  | leaf {depth limit c left : Nat} {cs : List Nat} {more : List WalkEvent} (hleaf : (d.node c).children = [])
      (hmore : Walks d depth limit cs more left) :
      Walks d depth (limit + 1) (c :: cs) (⟨.visit, c, depth⟩ :: more) left
  | inner {depth limit c between left : Nat} {cs : List Nat} {inside more : List WalkEvent}
      (hinner : (d.node c).children ≠ []) (hinside : Walks d (depth + 1) limit (d.node c).children inside between)
      (hmore : Walks d depth between cs more left) :
      Walks d depth (limit + 1) (c :: cs)
        (⟨.visit, c, depth⟩ :: ⟨.enter, c, depth⟩ :: (inside ++ ⟨.leave, c, depth⟩ :: more)) left

theorem Walks.cons {between : Nat} (h : d.Walks depth limit [c] events between)
    (hmore : d.Walks depth between cs more left) : d.Walks depth limit (c :: cs) (events ++ more) left := by
  cases h with
  | stopped =>
      cases hmore with
      | done | stopped => exact .stopped
  | leaf hleaf hnone =>
      cases hnone with
      | done | stopped => exact .leaf hleaf hmore
  | inner hinner hinside hnone =>
      cases hnone with
      | done | stopped => simpa using Walks.inner hinner hinside hmore

theorem walks_foldl (walked : List WalkEvent × Nat)
    (h : ∀ c ∈ cs, ∀ limit, d.Walks depth limit [c] (d.walkFrom depth limit c).1 (d.walkFrom depth limit c).2) :
    ∃ events, (cs.foldl (d.walkChild depth) walked).1 = walked.1 ++ events ∧
      d.Walks depth walked.2 cs events (cs.foldl (d.walkChild depth) walked).2 := by
  induction cs generalizing walked with
  | nil => exact ⟨[], (List.append_nil _).symm, .done⟩
  | cons c cs ih =>
      obtain ⟨more, hevents, hmore⟩ :=
        ih (d.walkChild depth walked c) fun x hx => h x (List.mem_cons_of_mem c hx)
      refine ⟨(d.walkFrom depth walked.2 c).1 ++ more, ?_, (h c List.mem_cons_self walked.2).cons hmore⟩
      rw [List.foldl_cons, hevents, walkChild, List.append_assoc]

theorem walks_walkFrom (d : Document) (depth limit i : Nat) :
    d.Walks depth limit [i] (d.walkFrom depth limit i).1 (d.walkFrom depth limit i).2 := by
  cases limit with
  | zero =>
      rw [walkFrom]
      exact .stopped
  | succ limit =>
      rw [walkFrom_succ]
      by_cases hleaf : (d.node i).children = []
      · rw [if_pos (List.isEmpty_iff.2 hleaf)]
        exact .leaf hleaf .done
      · rw [if_neg fun hempty => hleaf (List.isEmpty_iff.1 hempty)]
        have hwalk : ∀ c ∈ (d.node i).children, ∀ left,
            d.Walks (depth + 1) left [c] (d.walkFrom (depth + 1) left c).1 (d.walkFrom (depth + 1) left c).2 :=
          fun c hc left =>
            have := lt_of_mem_children hc
            walks_walkFrom d (depth + 1) left c
        obtain ⟨inside, hevents, hinside⟩ := walks_foldl ([], limit) hwalk
        dsimp only
        rw [hevents]
        exact .inner hleaf hinside .done
termination_by d.size - i
decreasing_by omega

/-! ## Visits -/

/-- At which nodes a walk does something, and how far below its start. -/
def places (action : WalkAction) (events : List WalkEvent) : List (Nat × Nat) :=
  (events.filter (·.action = action)).map fun e => (e.id, e.depth)

/-- The visits are of the nodes that are met, as many as may be visited. -/
theorem Walks.visits (h : d.Walks depth limit cs events left) :
    (places .visit events).map (·.1) = (d.inSubtrees cs).take limit ∧
      left = limit - (d.inSubtrees cs).length := by
  induction h with
  | done => simp [places, inSubtrees]
  | stopped => simp [places]
  | leaf hleaf _ ih =>
      obtain ⟨hvisits, hleft⟩ := ih
      rw [inSubtrees_cons, hleaf]
      refine ⟨?_, ?_⟩
      · simpa [places, inSubtrees] using hvisits
      · simpa [inSubtrees] using hleft
  | inner _ _ _ ihInside ihMore =>
      obtain ⟨hinside, hbetween⟩ := ihInside
      obtain ⟨hmore, hleft⟩ := ihMore
      rw [inSubtrees_cons, List.take_succ_cons, List.take_append, ← hinside, ← hbetween, ← hmore,
        List.length_cons, List.length_append]
      refine ⟨by simp [places], by omega⟩

/-- What is entered are the visited nodes that have children. -/
theorem Walks.enters (h : d.Walks depth limit cs events left) :
    places .enter events = (places .visit events).filter fun place => (d.node place.1).children ≠ [] := by
  induction h with
  | done | stopped => rfl
  | leaf hleaf _ ih => simpa [places, hleaf] using ih
  | inner hinner _ _ ihInside ihMore =>
      simp only [places] at ihInside ihMore
      simp [places, hinner, ihInside, ihMore]

/-! ## Brackets -/

/-- Each node that is entered is left again, at the same depth, behind what has happened inside. -/
inductive Bracketed : List WalkEvent → Prop
  | nil : Bracketed []
  | visit {id depth : Nat} {more : List WalkEvent} (hmore : Bracketed more) :
      Bracketed (⟨.visit, id, depth⟩ :: more)
  | pair {id depth : Nat} {inside more : List WalkEvent} (hinside : Bracketed inside) (hmore : Bracketed more) :
      Bracketed (⟨.enter, id, depth⟩ :: (inside ++ ⟨.leave, id, depth⟩ :: more))

theorem Walks.bracketed (h : d.Walks depth limit cs events left) : Bracketed events := by
  induction h with
  | done | stopped => exact .nil
  | leaf _ _ ih => exact .visit ih
  | inner _ _ _ ihInside ihMore => exact .visit (.pair ihInside ihMore)

theorem Bracketed.perm (h : Bracketed events) : (places .leave events).Perm (places .enter events) := by
  induction h with
  | nil => exact .nil
  | visit _ ih => simpa [places] using ih
  | @pair id depth inside more _ _ ihInside ihMore =>
      have hsplit : places .leave (⟨.enter, id, depth⟩ :: (inside ++ ⟨.leave, id, depth⟩ :: more)) =
          places .leave inside ++ (id, depth) :: places .leave more := by simp [places]
      have henters : places .enter (⟨.enter, id, depth⟩ :: (inside ++ ⟨.leave, id, depth⟩ :: more)) =
          (id, depth) :: (places .enter inside ++ places .enter more) := by simp [places]
      rw [hsplit, henters]
      exact List.perm_middle.trans ((ihInside.append ihMore).cons _)

/-! ## Distances -/

/-- Node `n` is so many children of children below node `s`. -/
inductive LevelsBelow (d : Document) (s : Nat) : Nat → Nat → Prop
  | start : LevelsBelow d s 0 s
  | child {k p c : Nat} (h : LevelsBelow d s k p) (hchild : c ∈ (d.node p).children) : LevelsBelow d s (k + 1) c

variable {s : Nat}

namespace LevelsBelow

theorem le (h : d.LevelsBelow s k n) : s ≤ n := by
  induction h with
  | start => exact Nat.le_refl s
  | child _ hchild ih => exact Nat.le_trans ih (Nat.le_of_lt (lt_of_mem_children hchild).1)

theorem zero_iff : d.LevelsBelow s 0 n ↔ n = s := by
  constructor
  · intro h
    cases h
    rfl
  · rintro rfl
    exact .start

/-- The way down from a node leads through one of its children. -/
theorem succ_iff : d.LevelsBelow s (k + 1) n ↔ ∃ c ∈ (d.node s).children, d.LevelsBelow c k n := by
  constructor
  · intro h
    induction k generalizing n with
    | zero =>
        cases h with
        | child hp hchild => exact ⟨n, zero_iff.1 hp ▸ hchild, .start⟩
    | succ k ih =>
        cases h with
        | child hp hchild =>
            obtain ⟨c, hc, hbelow⟩ := ih hp
            exact ⟨c, hc, hbelow.child hchild⟩
  · rintro ⟨c, hc, h⟩
    induction h with
    | start => exact .child .start hc
    | child _ hchild ih => exact ih.child hchild

/-- A node is on one level only. -/
theorem unique (hd : d.Arranged) {other : Nat} (h : d.LevelsBelow s k n) (hother : d.LevelsBelow s other n) :
    k = other := by
  induction h generalizing other with
  | start =>
      cases hother with
      | start => rfl
      | child hp hchild => exact absurd hp.le (Nat.not_le_of_lt (lt_of_mem_children hchild).1)
  | child hp hchild ih =>
      cases hother with
      | start => exact absurd hp.le (Nat.not_le_of_lt (lt_of_mem_children hchild).1)
      | child hq hlisted =>
          have hparent := hd.parent_eq_some.2 (List.mem_append_right _ hchild)
          cases hparent.symm.trans (hd.parent_eq_some.2 (List.mem_append_right _ hlisted))
          rw [ih hq]

theorem toBelow (hd : d.Arranged) (h : d.LevelsBelow s k n) : d.Below s n := by
  induction h with
  | start => exact .refl
  | child _ hchild ih => exact .tail ih (hd.parent_eq_some.2 (List.mem_append_right _ hchild))

end LevelsBelow

/-- The nodes below a node are those to which children of children lead. -/
theorem mem_subtree_iff {s : Nat} : n ∈ s :: d.descendants s ↔ ∃ k, d.LevelsBelow s k n := by
  have hchildren : (∃ c ∈ (d.node s).children, n ∈ c :: d.descendants c) ↔
      ∃ c ∈ (d.node s).children, ∃ k, d.LevelsBelow c k n :=
    exists_congr fun c => and_congr_right fun hc =>
      have := lt_of_mem_children hc
      mem_subtree_iff
  simp only [List.mem_cons] at hchildren
  rw [List.mem_cons, mem_descendants, hchildren]
  constructor
  · rintro (rfl | ⟨c, hc, k, hk⟩)
    · exact ⟨0, .start⟩
    · exact ⟨k + 1, LevelsBelow.succ_iff.2 ⟨c, hc, hk⟩⟩
  · rintro ⟨_ | k, hk⟩
    · exact Or.inl (LevelsBelow.zero_iff.1 hk)
    · obtain ⟨c, hc, hbelow⟩ := LevelsBelow.succ_iff.1 hk
      exact Or.inr ⟨c, hc, k, hbelow⟩
termination_by d.size - s
decreasing_by omega

/-- An event is as deep as its node is below one of those from which the walk starts. -/
theorem Walks.depths (h : d.Walks depth limit cs events left) {e : WalkEvent} (he : e ∈ events) :
    ∃ c ∈ cs, ∃ k, e.depth = depth + k ∧ d.LevelsBelow c k e.id := by
  induction h with
  | done | stopped => cases he
  | leaf _ _ ih =>
      rcases List.mem_cons.1 he with rfl | he
      · exact ⟨_, List.mem_cons_self, 0, rfl, .start⟩
      · obtain ⟨c, hc, hbelow⟩ := ih he
        exact ⟨c, List.mem_cons_of_mem _ hc, hbelow⟩
  | inner _ _ _ ihInside ihMore =>
      simp only [List.mem_cons, List.mem_append] at he
      rcases he with rfl | rfl | he | rfl | he
      · exact ⟨_, List.mem_cons_self, 0, rfl, .start⟩
      · exact ⟨_, List.mem_cons_self, 0, rfl, .start⟩
      · obtain ⟨c, hc, k, hdepth, hbelow⟩ := ihInside he
        exact ⟨_, List.mem_cons_self, k + 1, by omega, LevelsBelow.succ_iff.2 ⟨c, hc, hbelow⟩⟩
      · exact ⟨_, List.mem_cons_self, 0, rfl, .start⟩
      · obtain ⟨c, hc, hbelow⟩ := ihMore he
        exact ⟨c, List.mem_cons_of_mem _ hc, hbelow⟩

/-! ## The order of the nodes -/

theorem pairwise_inSubtrees (hd : d.Arranged) (h : d.Contiguous start cs stop)
    (hcs : ∀ c ∈ cs, (c :: d.descendants c).Pairwise (· < ·)) : (d.inSubtrees cs).Pairwise (· < ·) := by
  induction h with
  | nil => exact .nil
  | @cons root next stop rest hroot hrest ih =>
      rw [inSubtrees, List.flatMap_cons, List.pairwise_append]
      refine ⟨hcs root List.mem_cons_self, ih fun c hc => hcs c (List.mem_cons_of_mem root hc), ?_⟩
      intro m hm n hn
      obtain ⟨k, hk⟩ := mem_subtree_iff.1 hm
      obtain ⟨c, hc, hbelow⟩ := List.mem_flatMap.1 hn
      obtain ⟨j, hj⟩ := mem_subtree_iff.1 hbelow
      have hlt : m < next := ((hroot m).1 (hk.toBelow hd)).2
      exact Nat.lt_of_lt_of_le hlt ((hrest.exists_below_iff n).1 ⟨c, hc, hj.toBelow hd⟩).1

/-- The nodes below a node come in the order of their numbers. -/
theorem WellFormed.pairwise_descendants (hw : d.WellFormed) (hd : d.Arranged) {i : Nat} (hi : i < d.size) :
    (i :: d.descendants i).Pairwise (· < ·) := by
  obtain ⟨stop, -, -, hchildren⟩ := hw.laid i hi
  rw [← inSubtrees_children]
  refine List.pairwise_cons.2 ⟨fun n hn => ?_, pairwise_inSubtrees hd hchildren fun c hc => ?_⟩
  · exact (lt_of_mem_descendants (inSubtrees_children ▸ hn)).1
  · have := lt_of_mem_children hc
    exact hw.pairwise_descendants hd this.2
termination_by d.size - i
decreasing_by omega

/-! ## Listing with a stack -/

/-- The nodes below those of a stack: the one on top is listed, and its children are put in its place. There is no
list if this does not come to an end in so many turns. -/
def listBelow (d : Document) : Nat → List Nat → List Nat → Option (List Nat)
  | _, [], listed => some listed
  | 0, _ :: _, _ => none
  | turns + 1, i :: stack, listed => d.listBelow turns ((d.node i).children ++ stack) (listed ++ [i])

/-- The stack runs out behind as many turns as there are nodes, and lists them as they come. -/
theorem listBelow_eq (d : Document) (turns : Nat) (stack listed : List Nat) : d.listBelow turns stack listed =
    if (d.inSubtrees stack).length ≤ turns then some (listed ++ d.inSubtrees stack) else none := by
  induction turns generalizing stack listed with
  | zero =>
      cases stack with
      | nil => simp [listBelow, inSubtrees]
      | cons i stack => simp [listBelow, inSubtrees_cons]
  | succ turns ih =>
      cases stack with
      | nil => simp [listBelow, inSubtrees]
      | cons i stack =>
          rw [listBelow, ih, inSubtrees_append, inSubtrees_cons]
          simp

/-! ## Walks of documents that were read -/

/-- A walk of a document that was read comes to an end. It visits its start and the nodes below it, as many as its
limit allows, one after the other in their order; these are listed by a stack in as many turns as they are, each of
them once. Every event is at the distance of its node from the start. The nodes with children that are visited are
entered, and what is entered is left again at its depth, behind all that happened inside it, also where the limit cuts
the walk short. -/
theorem walk_visits {octets : Text.Utf8.Octets} (h : Document.parse octets = .ok d) (hs : s < d.size)
    (limit : Nat) :
    let visits := places .visit (d.walk s limit)
    d.Walks 0 limit [s] (d.walk s limit) (limit - ((d.descendants s).length + 1)) ∧
    visits.map (·.1) = (s :: d.descendants s).take limit ∧ (visits.map (·.1)).Pairwise (· < ·) ∧
    (∀ e ∈ d.walk s limit, ∀ k, d.LevelsBelow s k e.id ↔ k = e.depth) ∧
    Bracketed (d.walk s limit) ∧
    places .enter (d.walk s limit) = visits.filter (fun place => (d.node place.1).children ≠ []) ∧
    (places .leave (d.walk s limit)).Perm (places .enter (d.walk s limit)) ∧
    (∀ turns, d.listBelow turns (d.node s).children [] =
      if (d.descendants s).length ≤ turns then some (d.descendants s) else none) ∧
    (s :: d.descendants s).Nodup ∧ ∀ n, n ∈ s :: d.descendants s ↔ ∃ k, d.LevelsBelow s k n := by
  intro visits
  have hd := Arranged.of_parse h
  have hwalks := walks_walkFrom d 0 limit s
  obtain ⟨hvisits, hleft⟩ := hwalks.visits
  rw [inSubtrees_singleton] at hvisits hleft
  rw [List.length_cons] at hleft
  rw [hleft] at hwalks
  have hordered := (wellFormed_of_parse h).1.pairwise_descendants hd hs
  refine ⟨hwalks, hvisits, ?_, ?_, hwalks.bracketed, hwalks.enters, hwalks.bracketed.perm, ?_,
    hordered.imp Nat.ne_of_lt, fun n => mem_subtree_iff⟩
  · exact hvisits ▸ hordered.sublist (List.take_sublist ..)
  · intro e he k
    obtain ⟨c, hc, j, hdepth, hbelow⟩ := hwalks.depths he
    cases List.mem_singleton.1 hc
    rw [hdepth, Nat.zero_add]
    exact ⟨fun hk => hk.unique hd hbelow, fun hk => hk ▸ hbelow⟩
  · intro turns
    rw [listBelow_eq, inSubtrees_children, List.nil_append]

open Text.Utf8 (encodeText) in
theorem walk_visits_cut_short : ∃ d, Document.parse (encodeText "<a x='1'><b>t<c/></b><e/></a>") = .ok d ∧
    1 < d.size ∧ (places .visit (d.walk 1 3)).map (·.1) = [1, 3, 4] := by
  have hread : (Document.parse (encodeText "<a x='1'><b>t<c/></b><e/></a>")).toOption.map
      (fun d => (d.size, d.listBelow 4 (d.node 1).children [])) = some (7, some [3, 4, 5, 6]) := by
    decide +kernel
  cases hd : Document.parse (encodeText "<a x='1'><b>t<c/></b><e/></a>") with
  | error m => simp [hd, Except.toOption] at hread
  | ok d =>
      simp only [hd, Except.toOption, Option.map_some, Option.some.injEq, Prod.mk.injEq] at hread
      obtain ⟨hsize, hlisted⟩ := hread
      obtain ⟨-, hvisits, -, -, -, -, -, hstack, -⟩ := walk_visits hd (s := 1) (by omega) 3
      refine ⟨d, rfl, by omega, ?_⟩
      rw [hstack] at hlisted
      split at hlisted
      · rw [hvisits, Option.some.inj hlisted]
        rfl
      · cases hlisted

end Interchange.Xml.Document
