import Mathlib.Data.List.Induction
import Interchange.Proofs.Memory

/-!
# Histories of calls

Calls are made one after another on tables in memory, each with faults of its own. What is said of one call
on the tables behind any history is said of every call that can be made.
-/

namespace Interchange.Engine

open Strategy (start)

variable {H L : Type}

/-- A call: the strategy, the faults of the tables, the document and its interface. -/
structure Call (H L : Type) where
  strategy : Strategy H L
  faults : Faults H L
  document : Inbound
  interface : Interface

namespace Call

/-- The tables as they answer during a call. -/
def storage (c : Call H L) : Storage (Store H L) H L := Store.storage.failing c.faults

/-- Opens the attempt of a call. -/
def opened (c : Call H L) (s : Store H L) : Except StoreError (Attempt × Store H L) :=
  start c.storage c.document.filename c.interface s

/-- Runs the attempt of a call. -/
def ran (c : Call H L) (a : Attempt) (s : Store H L) : Attempt × Store H L :=
  c.strategy.run c.storage c.interface.client c.document.octets a s

/-- The answer to a call, and the tables behind it. -/
def answer (c : Call H L) (s : Store H L) : Except EngineError Attempt × Store H L :=
  c.strategy.process c.storage c.document c.interface s

/-- The call opens the attempt of number `i`. -/
def Opens (c : Call H L) (s : Store H L) (i : Nat) : Prop :=
  ∃ a t, c.opened s = .ok (a, t) ∧ a.id = some i

/-- The call opens the attempt of number `i`, cannot write it back, and says so. -/
def Loses (c : Call H L) (s : Store H L) (i : Nat) : Prop :=
  ∃ a t e, c.opened s = .ok (a, t) ∧ a.id = some i ∧ c.faults (.update (c.ran a t).1) = some e ∧
    (c.answer s).1 = .error (.store e)

end Call

/-- The tables behind calls that are made one after another. -/
def storeAfter (history : List (Call H L)) : Store H L :=
  history.foldl (fun s c => (c.answer s).2) .empty

theorem storeAfter_concat (history : List (Call H L)) (c : Call H L) :
    storeAfter (history ++ [c]) = (c.answer (storeAfter history)).2 := by
  simp [storeAfter, List.foldl_append]

namespace Call

/-! ## One call -/

/-- What a call answers and leaves behind of the attempts, case by case. -/
inductive Effect (c : Call H L) (s : Store H L) : Except EngineError Attempt → AttemptTable → Prop
  | closed {a b : Attempt} {t : Store H L} {n : Nat} {rows : AttemptTable}
      (hopen : c.opened s = .ok (a, t)) (hid : a.id = some n) (hended : b.Ended)
      (hplaced : s.attempts.Placed rows b n) (hrow : rows.get? n = some b) : Effect c s (.ok b) rows
  | lost {a b : Attempt} {t : Store H L} {e : StoreError} {n : Nat} {rows : AttemptTable}
      (hopen : c.opened s = .ok (a, t)) (hid : a.id = some n)
      (hfault : c.faults (.update (c.ran a t).1) = some e) (hplaced : s.attempts.Placed rows b n) :
      Effect c s (.error (.store e)) rows
  | recorded {b : Attempt} {cause : StoreError} {n : Nat} {rows : AttemptTable}
      (hopen : c.opened s = .error cause) (hended : b.Ended)
      (hplaced : s.attempts.Placed rows b n) (hrow : rows.get? n = some b) : Effect c s (.ok b) rows
  | unrecorded {cause e : StoreError} (hopen : c.opened s = .error cause)
      (hfault : c.faults
        (.create (c.strategy.critical c.document.filename c.interface cause)) = some e) :
      Effect c s (.error (.store e)) s.attempts

variable {c : Call H L} {s : Store H L}

theorem Effect.of_course {x : Except EngineError Attempt} {v : Store H L} (hs : s.attempts.Numbered)
    (h : c.strategy.Course c.storage c.document c.interface s x v) : c.Effect s x v.attempts := by
  cases h with
  | closed hopen hrun hupdate =>
      obtain ⟨n, hopened⟩ := Strategy.start_placed hs hopen
      obtain ⟨hended, hplaced⟩ := Strategy.run_placed (Strategy.start_open hopen) hopened hrun
      obtain ⟨_, rows, hrows, rfl⟩ := Store.update_eq_ok.1 hupdate
      exact .closed hopen hopened.id hended (hplaced.update hrows)
        (AttemptTable.get?_update hplaced.id hrows)
  | @lost a b t u e hopen hrun hupdate =>
      obtain ⟨n, hopened⟩ := Strategy.start_placed hs hopen
      obtain ⟨_, hplaced⟩ := Strategy.run_placed (Strategy.start_open hopen) hopened hrun
      obtain ⟨rows, hrows⟩ := hplaced.exists_update
      have hran : (c.ran a t).1 = b := congrArg (·.1) hrun
      exact .lost hopen hopened.id (hran ▸ (Store.update_eq_error hrows).1 hupdate) hplaced
  | recorded hopen hcreate =>
      obtain ⟨_, rfl, rfl⟩ := Store.create_eq_ok.1 hcreate
      exact .recorded hopen ⟨rfl, by simp [Strategy.critical, Attempt.fail]⟩ (hs.placed_create _)
        (AttemptTable.get?_create _ _)
  | unrecorded hopen hcreate => exact .unrecorded hopen (Store.create_eq_error.1 hcreate)

theorem effect (c : Call H L) (hs : s.attempts.Numbered) :
    c.Effect s (c.answer s).1 (c.answer s).2.attempts :=
  .of_course hs (Strategy.process_course _ _ _ _ _)

variable {x : Except EngineError Attempt} {rows : AttemptTable}

theorem Effect.numbered (hs : s.attempts.Numbered) (h : c.Effect s x rows) : rows.Numbered := by
  cases h with
  | closed _ _ _ hplaced | lost _ _ _ hplaced | recorded _ _ hplaced => exact hplaced.numbered
  | unrecorded => exact hs

theorem opens_iff {a : Attempt} {t : Store H L} {n i : Nat} (hopen : c.opened s = .ok (a, t))
    (hid : a.id = some n) : c.Opens s i ↔ i = n := by
  constructor
  · rintro ⟨b, u, hopen', hid'⟩
    rw [hopen] at hopen'
    cases hopen'
    exact Option.some.inj (hid'.symm.trans hid)
  · rintro rfl
    exact ⟨a, t, hopen, hid⟩

theorem not_opens {cause : StoreError} {i : Nat} (hopen : c.opened s = .error cause) :
    ¬ c.Opens s i := by
  rintro ⟨b, u, hopen', _⟩
  rw [hopen] at hopen'
  cases hopen'

/-- An attempt in processing behind a call is one that the call could not write back, or the call has not
opened it and it was there in front. -/
theorem Effect.processing {i : Nat} {a : Attempt} (h : c.Effect s x rows)
    (hx : (c.answer s).1 = x) (hi : rows.get? i = some a) (ha : a.status = .processing) :
    c.Loses s i ∨ ¬ c.Opens s i ∧ s.attempts.get? i = some a := by
  have hended : ¬ a.Ended := fun h => absurd h.terminal (by rw [ha]; decide)
  cases h with
  | @closed _ _ _ n _ hopen hid hclosed hplaced hrow =>
      by_cases hin : i = n
      · rw [hin, hrow] at hi
        exact absurd (Option.some.inj hi ▸ hclosed) hended
      · exact Or.inr ⟨mt (opens_iff hopen hid).1 hin, hplaced.others i hin ▸ hi⟩
  | @lost _ _ _ _ n _ hopen hid hfault hplaced =>
      by_cases hin : i = n
      · exact Or.inl ⟨_, _, _, hopen, hin ▸ hid, hfault, hx⟩
      · exact Or.inr ⟨mt (opens_iff hopen hid).1 hin, hplaced.others i hin ▸ hi⟩
  | @recorded _ _ n _ hopen hclosed hplaced hrow =>
      by_cases hin : i = n
      · rw [hin, hrow] at hi
        exact absurd (Option.some.inj hi ▸ hclosed) hended
      · exact Or.inr ⟨not_opens hopen, hplaced.others i hin ▸ hi⟩
  | unrecorded hopen _ => exact Or.inr ⟨not_opens hopen, hi⟩

/-- An attempt behind a call was there in front, or the call answers with it, or it stands there as the call
has opened it. -/
theorem row_cases {i : Nat} {b : Attempt} (hs : s.attempts.Numbered)
    (hb : (c.answer s).2.attempts.get? i = some b) :
    s.attempts.get? i = some b ∨ (c.answer s).1 = .ok b ∨ ∃ t, c.opened s = .ok (b, t) := by
  have hcourse : c.strategy.Course c.storage c.document c.interface s (c.answer s).1 (c.answer s).2 :=
    Strategy.process_course _ _ _ _ _
  generalize c.answer s = r at hcourse hb ⊢
  obtain ⟨x, v⟩ := r
  cases hcourse with
  | @closed a d t u _ hopen hrun hupdate =>
      obtain ⟨n, hopened⟩ := Strategy.start_placed hs hopen
      obtain ⟨_, hplaced⟩ := Strategy.run_placed (Strategy.start_open hopen) hopened hrun
      obtain ⟨_, rows, hrows, rfl⟩ := Store.update_eq_ok.1 hupdate
      by_cases hi : i = n
      · have hd : rows.get? n = some b := hi ▸ hb
        rw [AttemptTable.get?_update hplaced.id hrows] at hd
        exact Or.inr (Or.inl (congrArg Except.ok (Option.some.inj hd)))
      · exact Or.inl ((hplaced.update hrows).others i hi ▸ hb)
  | @lost a d t u e hopen hrun _ =>
      obtain ⟨e, w, hruns⟩ := Strategy.exists_runs c.strategy c.storage c.interface.client
        c.document.octets t
      rw [hruns.run_eq (Strategy.start_open hopen).content] at hrun
      obtain ⟨_, rfl⟩ := Prod.mk.inj hrun
      rw [hruns.attempts_eq] at hb
      rcases Strategy.start_row hopen hb with hold | rfl
      · exact Or.inl hold
      · exact Or.inr (Or.inr ⟨t, hopen⟩)
  | recorded hopen hcreate =>
      obtain ⟨_, rfl, rfl⟩ := Store.create_eq_ok.1 hcreate
      rcases AttemptTable.get?_create_cases hb with hold | rfl
      · exact Or.inl hold
      · exact Or.inr (Or.inl rfl)
  | unrecorded => exact Or.inl hb

end Call

/-! ## All calls of a history -/

theorem storeAfter_numbered (history : List (Call H L)) : (storeAfter history).attempts.Numbered := by
  induction history using List.reverseRecOn with
  | nil => exact .empty
  | append_singleton history c ih =>
      rw [storeAfter_concat]
      exact (c.effect ih).numbered ih

/-- The last call that opened the attempt of number `i` could not write it back. -/
def LastLost (history : List (Call H L)) (i : Nat) : Prop :=
  ∃ before d rest, history = before ++ d :: rest ∧ d.Loses (storeAfter before) i ∧
    ∀ mid c tail, rest = mid ++ c :: tail → ¬ c.Opens (storeAfter (before ++ d :: mid)) i

theorem LastLost.concat {history : List (Call H L)} {c : Call H L} {i : Nat} (h : LastLost history i)
    (hc : ¬ c.Opens (storeAfter history) i) : LastLost (history ++ [c]) i := by
  obtain ⟨before, d, rest, rfl, hlost, hrest⟩ := h
  refine ⟨before, d, rest ++ [c], by simp, hlost, fun mid c' tail hsplit => ?_⟩
  rcases List.eq_nil_or_concat tail with rfl | ⟨tail, last, rfl⟩
  · -- the call is the one at the end
    obtain ⟨rfl, hlast⟩ := List.append_inj' hsplit rfl
    cases hlast
    exact hc
  · rw [List.concat_eq_append, ← List.cons_append, ← List.append_assoc] at hsplit
    exact hrest mid c' tail (List.append_inj' hsplit rfl).1

theorem lastLost_of_processing (history : List (Call H L)) {i : Nat} {a : Attempt}
    (hi : (storeAfter history).attempts.get? i = some a) (ha : a.status = .processing) :
    LastLost history i := by
  induction history using List.reverseRecOn with
  | nil => cases i <;> cases hi
  | append_singleton history c ih =>
      rw [storeAfter_concat] at hi
      rcases (c.effect (storeAfter_numbered history)).processing rfl hi ha with hlost | ⟨hc, hold⟩
      · refine ⟨history, c, [], rfl, hlost, fun mid c' tail hsplit => ?_⟩
        simp at hsplit
      · exact (ih hold).concat hc

/-- Behind every history, whatever has failed on the way: a call that answers with an attempt has ended
it and has it in its place, with a message if and only if it ended in an error; a call answers with an
error only if its attempt could not be written back, or none could be opened and that could not be recorded
either; and an attempt is in processing only if the last call that opened it could not write it back. -/
theorem attempts_of_history (history : List (Call H L)) (c : Call H L) :
    (∀ b, (c.answer (storeAfter history)).1 = .ok b →
      b.status.isTerminal ∧
      (∃ i, b.id = some i ∧ (storeAfter (history ++ [c])).attempts.get? i = some b) ∧
      (b.errorMessage.isSome ↔ b.status = .error)) ∧
    (∀ x, (c.answer (storeAfter history)).1 = .error x →
      (∃ a t e, c.opened (storeAfter history) = .ok (a, t) ∧
        c.faults (.update (c.ran a t).1) = some e ∧ x = .store e) ∨
      ∃ cause e, c.opened (storeAfter history) = .error cause ∧
        c.faults (.create (c.strategy.critical c.document.filename c.interface cause)) = some e ∧
          x = .store e) ∧
    ∀ i a, (storeAfter history).attempts.get? i = some a → a.status = .processing →
      LastLost history i := by
  have heffect := c.effect (storeAfter_numbered history)
  rw [storeAfter_concat]
  generalize (c.answer (storeAfter history)).2.attempts = rows at heffect ⊢
  refine ⟨fun b hb => ?_, fun x hx => ?_, fun i a hi ha => lastLost_of_processing history hi ha⟩
  · rw [hb] at heffect
    cases heffect with
    | closed _ _ hended hplaced hrow | recorded _ hended hplaced hrow =>
        exact ⟨hended.terminal, ⟨_, hplaced.id, hrow⟩, hended.message⟩
  · rw [hx] at heffect
    cases heffect with
    | lost hopen _ hfault _ => exact Or.inl ⟨_, _, _, hopen, hfault, rfl⟩
    | unrecorded hopen hfault => exact Or.inr ⟨_, _, hopen, hfault, rfl⟩

/-! ## Operations that go out of service -/

/-- What happens to tables of which operations may be out of service. -/
inductive Action (H L : Type) where
  | switch (operation : Operation) (off : Bool)
  | process (strategy : Strategy H L) (document : Inbound) (interface : Interface)

def Action.apply : Action H L → Outage (Store H L) → Outage (Store H L)
  | switch operation off, o => o.switch operation off
  | process strategy document interface, o =>
    (strategy.process (Outage.storage Store.storage) document interface o).2

/-- The tables behind actions, at first with every operation in service. -/
def outageAfter (actions : List (Action H L)) : Outage (Store H L) :=
  actions.foldl (fun o action => action.apply o) ⟨[], .empty⟩

/-- Whatever is switched off and on between calls, the tables are those behind some history. -/
theorem exists_history (actions : List (Action H L)) :
    ∃ history, (outageAfter actions).state = storeAfter history := by
  induction actions using List.reverseRecOn with
  | nil => exact ⟨[], rfl⟩
  | append_singleton actions action ih =>
      obtain ⟨history, hhistory⟩ := ih
      have hlast : outageAfter (actions ++ [action]) = action.apply (outageAfter actions) := by
        simp [outageAfter, List.foldl_append]
      rw [hlast]
      cases action with
      | switch operation off => exact ⟨history, hhistory⟩
      | process strategy document interface =>
          refine ⟨history ++
            [⟨strategy, .ofDown (outageAfter actions).down, document, interface⟩], ?_⟩
          rw [storeAfter_concat, ← hhistory]
          exact congrArg (·.2.state) (Strategy.process_outage document)

end Interchange.Engine
