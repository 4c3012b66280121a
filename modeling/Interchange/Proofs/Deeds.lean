import Interchange.Proofs.Entries
import Interchange.Proofs.Uniqueness

/-!
# What calls do

Of all that the tables hold, a call asks for the last attempt of its key and for nothing else. By what it
finds it is settled what the call does (`Engine.Call.exists_deed`): it writes nothing, puts in a new attempt
or writes the one that it found, and stores an entry or none. Numbers come in only when that is done.
-/

namespace Interchange

variable {H L : Type}

/-- Faults that do not look at the numbers that the tables have given out. -/
structure Faults.Unnumbered (faults : Faults H L) : Prop where
  update : ∀ a id, faults (.update { a with id := id }) = faults (.update a)
  saveLines : ∀ id client records,
    faults (.saveLines id client records) = faults (.saveLines 0 client records)

theorem Faults.unnumbered_ofDown (down : List Operation) :
    (Faults.ofDown down : Faults H L).Unnumbered :=
  ⟨fun _ _ => rfl, fun _ _ _ => rfl⟩

/-- A filter does not see that an element it drops is written in the place of one it drops. -/
theorem filter_set {α : Type} {p : α → Bool} {x : α} {xs : List α} {n : Nat} (hx : ¬ p x)
    (hold : ∀ y, xs[n]? = some y → ¬ p y) : (xs.set n x).filter p = xs.filter p := by
  induction xs generalizing n with
  | nil => rfl
  | cons y rest ih =>
      cases n with
      | zero => simp [hx, hold y rfl]
      | succ n =>
          rw [List.set_cons_succ, List.filter_cons, List.filter_cons,
            ih fun z hz => hold z (by simpa using hz)]

namespace AttemptTable

variable {t : AttemptTable} {a b : Attempt} {n : Nat} {filename interfaceId : String}

/-- A new attempt that is written again might as well have been put in like that. -/
theorem update_create (t : AttemptTable) (a b : Attempt) :
    (t.create a).2.update { b with id := some (t.create a).1 } = .ok (t.create b).2 := by
  simp [update, create, get?]

theorem update_of_get? (hb : b.id = some n) (ha : t.get? n = some a) :
    t.update b = .ok ⟨t.rows.set (n - 1) b⟩ := by
  obtain ⟨u, hu⟩ := exists_update ha hb
  rw [hu, (update_eq_ok hb hu).2]

theorem find_eq_getLast? : t.find filename interfaceId =
    (t.rows.filter fun a => a.filename == filename && a.interfaceId == interfaceId).getLast? :=
  List.getLast?_filter.symm

end AttemptTable

namespace Engine

/-! ## Deeds on the attempts -/

/-- What a call does to the attempts: nothing, as it fails; it puts in an attempt, with which it answers
unless that is lost; or it writes an attempt at its number and answers with it. -/
inductive Deed where
  | nothing (e : EngineError)
  | insert (a : Attempt) (lost : Option EngineError)
  | replace (n : Nat) (a : Attempt)

namespace Deed

def apply (t : AttemptTable) : Deed → AttemptTable
  | nothing _ => t
  | insert a _ => (t.create a).2
  | replace n a => ⟨t.rows.set (n - 1) a⟩

def answer (t : AttemptTable) : Deed → Except EngineError Attempt
  | nothing e => .error e
  | insert _ (some e) => .error e
  | insert a none => .ok { a with id := some (t.create a).1 }
  | replace _ a => .ok a

/-- The deed is about a key: what it puts in is of the key, and what it writes takes the place of an attempt
of the key. -/
def On (key : String × String) (t : AttemptTable) : Deed → Prop
  | nothing _ => True
  | insert a _ => a.key = key
  | replace n a => a.id = some n ∧ a.key = key ∧ ∃ b, t.get? n = some b ∧ b.key = key

variable {t : AttemptTable} {key : String × String} {deed : Deed} {filename interfaceId : String}

/-- A deed makes no difference to a search for another key. -/
theorem find_apply (h : deed.On key t) (hne : key ≠ (filename, interfaceId)) :
    (deed.apply t).find filename interfaceId = t.find filename interfaceId := by
  have hother : ∀ a : Attempt, a.key = key →
      ¬ (a.filename == filename && a.interfaceId == interfaceId) = true := by
    intro a ha hsame
    simp only [Bool.and_eq_true, beq_iff_eq] at hsame
    exact hne (ha ▸ Prod.ext hsame.1 hsame.2)
  rw [AttemptTable.find_eq_getLast?, AttemptTable.find_eq_getLast?]
  cases deed with
  | nothing e => rfl
  | insert a lost =>
      have ha := hother a h
      simp [apply, AttemptTable.create, List.filter_append, ha]
  | replace n a =>
      obtain ⟨_, ha, b, hb, hkey⟩ := h
      cases n with
      | zero => cases hb
      | succ n =>
          have hold : ∀ y, t.rows[n]? = some y →
              ¬ (y.filename == filename && y.interfaceId == interfaceId) = true := by
            intro y hy
            have hyb : y = b := Option.some.inj (hy.symm.trans hb)
            exact hyb ▸ hother b hkey
          exact congrArg List.getLast? (filter_set (hother a ha) hold)

end Deed

/-! ## The deed of a call -/

namespace Call

variable {c : Call H L} {s t u v : Store H L} {a : Attempt} {cause x : StoreError} {id : Nat}
  {e : Strategy.Ending}

/-- The attempt of a call as the ending of its run leaves it. -/
def ended (c : Call H L) (e : Strategy.Ending) (a : Attempt) : Attempt :=
  e.close c.strategy { a with content := Strategy.contentOf c.document.octets }

theorem answer_of_closed (hopen : c.opened s = .ok (a, t))
    (hruns : c.strategy.Runs c.storage c.interface.client c.document.octets t e u)
    (hupdate : c.storage.update (c.ended e a) u = .ok v) : c.answer s = (.ok (c.ended e a), v) := by
  have hstart : Strategy.start c.storage c.document.filename c.interface s = .ok (a, t) := hopen
  unfold ended at hupdate ⊢
  simp only [answer, Strategy.process, hstart, hruns.run_eq (Strategy.start_open hopen).content, hupdate]

theorem answer_of_lost (hopen : c.opened s = .ok (a, t))
    (hruns : c.strategy.Runs c.storage c.interface.client c.document.octets t e u)
    (hupdate : c.storage.update (c.ended e a) u = .error x) : c.answer s = (.error (.store x), u) := by
  have hstart : Strategy.start c.storage c.document.filename c.interface s = .ok (a, t) := hopen
  unfold ended at hupdate
  simp only [answer, Strategy.process, hstart, hruns.run_eq (Strategy.start_open hopen).content, hupdate]

theorem answer_of_recorded (hopen : c.opened s = .error cause)
    (hcreate : c.storage.create (c.strategy.critical c.document.filename c.interface cause) s =
      .ok (id, t)) :
    c.answer s =
      (.ok { c.strategy.critical c.document.filename c.interface cause with id := some id }, t) := by
  have hstart : Strategy.start c.storage c.document.filename c.interface s = .error cause := hopen
  unfold Strategy.critical at hcreate ⊢
  simp only [answer, Strategy.process, hstart, Strategy.recordCritical, hcreate]

theorem answer_of_unrecorded (hopen : c.opened s = .error cause)
    (hcreate : c.storage.create (c.strategy.critical c.document.filename c.interface cause) s =
      .error x) : c.answer s = (.error (.store x), s) := by
  have hstart : Strategy.start c.storage c.document.filename c.interface s = .error cause := hopen
  unfold Strategy.critical at hcreate
  simp only [answer, Strategy.process, hstart, Strategy.recordCritical, hcreate]

/-! ### Opening -/

theorem opened_of_find_fault (h : c.faults (.find c.document.filename c.interface.id) = some cause) :
    c.opened s = .error cause := by
  simp [opened, Strategy.start, storage, Storage.failing, Faults.guard, h]

theorem opened_of_found (h : c.faults (.find c.document.filename c.interface.id) = none)
    (hfound : s.attempts.find c.document.filename c.interface.id = some a) :
    c.opened s = .ok (a.restart, s) := by
  simp [opened, Strategy.start, storage, Store.find_eq_ok.2 ⟨h, hfound⟩]

/-- The attempt that a call puts in for a new key. -/
def fresh (c : Call H L) : Attempt :=
  .new c.document.filename c.interface.id c.interface.client

theorem opened_of_create_fault (h : c.faults (.find c.document.filename c.interface.id) = none)
    (hfound : s.attempts.find c.document.filename c.interface.id = none)
    (hcreate : c.faults (.create c.fresh) = some cause) : c.opened s = .error cause := by
  have hrefused : (Store.storage.failing c.faults).create c.fresh s = .error cause :=
    Store.create_eq_error.2 hcreate
  rw [fresh] at hrefused
  simp [opened, Strategy.start, storage, Store.find_eq_ok.2 ⟨h, hfound⟩, hrefused]

theorem opened_of_fresh (h : c.faults (.find c.document.filename c.interface.id) = none)
    (hfound : s.attempts.find c.document.filename c.interface.id = none)
    (hcreate : c.faults (.create c.fresh) = none) :
    c.opened s = .ok ({ c.fresh with id := some (s.attempts.create c.fresh).1 },
      { s with attempts := (s.attempts.create c.fresh).2 }) := by
  have hcreated : (Store.storage.failing c.faults).create c.fresh s =
      .ok ((s.attempts.create c.fresh).1, { s with attempts := (s.attempts.create c.fresh).2 }) :=
    Store.create_eq_ok.2 ⟨hcreate, rfl, rfl⟩
  rw [fresh] at hcreated ⊢
  simp [opened, Strategy.start, storage, Store.find_eq_ok.2 ⟨h, hfound⟩, hcreated]

/-! ### Doing -/

/-- What a call does: a deed about its key, and an entry for its client. -/
def Does (c : Call H L) (s : Store H L) (deed : Deed) (entry : Option (Entry H L)) : Prop :=
  deed.On c.key s.attempts ∧ c.answer s = (deed.answer s.attempts,
    ⟨deed.apply s.attempts, s.records.enter c.interface.client entry⟩)

theorem exists_deed_of_not_opened (c : Call H L) (cause : StoreError) :
    ∃ deed, ∀ s, c.opened s = .error cause → c.Does s deed none := by
  cases hfault : c.faults (.create (c.strategy.critical c.document.filename c.interface cause)) with
  | some e =>
      refine ⟨.nothing (.store e), fun s hopen => ⟨trivial, ?_⟩⟩
      exact answer_of_unrecorded hopen (Store.create_eq_error.2 hfault)
  | none =>
      refine ⟨.insert (c.strategy.critical c.document.filename c.interface cause) none,
        fun s hopen => ⟨rfl, ?_⟩⟩
      exact answer_of_recorded hopen (Store.create_eq_ok.2 ⟨hfault, rfl, rfl⟩)

theorem ended_key : (c.ended e a).key = a.key := Strategy.Ending.close_key

theorem ended_numbered (n : Option Nat) : c.ended e { a with id := n } = { c.ended e a with id := n } := by
  cases e with
  | stopped cause => rfl
  | finished log =>
      simp only [ended, Strategy.Ending.close, Strategy.settle]
      split <;> rfl

theorem exists_deed_of_fresh (hfaults : c.faults.Unnumbered)
    (hfind : c.faults (.find c.document.filename c.interface.id) = none)
    (hcreate : c.faults (.create c.fresh) = none) :
    ∃ deed entry, ∀ s : Store H L, s.attempts.Numbered → s.records.Linked →
      s.attempts.find c.document.filename c.interface.id = none → c.Does s deed entry := by
  obtain ⟨e, entry, hruns⟩ := Strategy.exists_entry c.strategy c.faults c.interface.client
    c.document.octets fun lines => c.faults (.saveLines 0 c.interface.client lines)
  -- what the call writes back, on any tables
  have hfault : ∀ s : Store H L, c.faults (.update (c.ended e
      { c.fresh with id := some (s.attempts.create c.fresh).1 })) =
        c.faults (.update (c.ended e c.fresh)) := by
    intro s
    rw [ended_numbered, hfaults.update]
  have hrow : ∀ s : Store H L, (s.attempts.create c.fresh).2.update (c.ended e
      { c.fresh with id := some (s.attempts.create c.fresh).1 }) =
        .ok (s.attempts.create (c.ended e c.fresh)).2 := by
    intro s
    rw [ended_numbered, AttemptTable.update_create]
  cases hlost : c.faults (.update (c.ended e c.fresh)) with
  | some x =>
      refine ⟨.insert c.fresh (some (.store x)), entry, fun s _ hs hfound => ⟨rfl, ?_⟩⟩
      exact answer_of_lost (opened_of_fresh hfind hfound hcreate)
        (hruns _ hs fun _ => hfaults.saveLines _ _ _)
        ((Store.update_eq_error (hrow s)).2 ((hfault s).trans hlost))
  | none =>
      refine ⟨.insert (c.ended e c.fresh) none, entry, fun s _ hs hfound => ⟨ended_key, ?_⟩⟩
      rw [answer_of_closed (opened_of_fresh hfind hfound hcreate)
        (hruns _ hs fun _ => hfaults.saveLines _ _ _)
        (Store.update_eq_ok.2 ⟨(hfault s).trans hlost, _, hrow s, rfl⟩), ended_numbered]
      rfl

theorem exists_deed_of_found (hfaults : c.faults.Unnumbered)
    (hfind : c.faults (.find c.document.filename c.interface.id) = none) (a : Attempt) :
    ∃ deed entry, ∀ s : Store H L, s.attempts.Numbered → s.records.Linked →
      s.attempts.find c.document.filename c.interface.id = some a → c.Does s deed entry := by
  obtain ⟨e, entry, hruns⟩ := Strategy.exists_entry c.strategy c.faults c.interface.client
    c.document.octets fun lines => c.faults (.saveLines 0 c.interface.client lines)
  cases hlost : c.faults (.update (c.ended e a.restart)) with
  | some x =>
      refine ⟨.nothing (.store x), entry, fun s hnumbered hs hfound => ⟨trivial, ?_⟩⟩
      obtain ⟨n, hid, hget, _⟩ := hnumbered.find hfound
      have hrow := AttemptTable.update_of_get? (b := c.ended e a.restart)
        (Strategy.Ending.close_id.trans hid) hget
      exact answer_of_lost (opened_of_found hfind hfound) (hruns s hs fun _ => hfaults.saveLines _ _ _)
        ((Store.update_eq_error (s := s.enter c.interface.client entry) hrow).2 hlost)
  | none =>
      refine ⟨.replace (a.id.getD 0) (c.ended e a.restart), entry, fun s hnumbered hs hfound => ?_⟩
      obtain ⟨n, hid, hget, hfile, hinterface⟩ := hnumbered.find hfound
      have hkey : a.key = c.key := Prod.ext hfile hinterface
      have hended : (c.ended e a.restart).id = some n := Strategy.Ending.close_id.trans hid
      have hrow := AttemptTable.update_of_get? hended hget
      rw [hid]
      refine ⟨⟨hended, ended_key.trans hkey, a, hget, hkey⟩, ?_⟩
      exact answer_of_closed (opened_of_found hfind hfound) (hruns s hs fun _ => hfaults.saveLines _ _ _)
        (Store.update_eq_ok.2 ⟨hlost, _, hrow, rfl⟩)

/-- By the attempt of its key that is found it is settled what a call does. -/
theorem exists_deed (c : Call H L) (hfaults : c.faults.Unnumbered) (found : Option Attempt) :
    ∃ deed entry, ∀ s : Store H L, s.attempts.Numbered → s.records.Linked →
      s.attempts.find c.document.filename c.interface.id = found → c.Does s deed entry := by
  cases hfind : c.faults (.find c.document.filename c.interface.id) with
  | some cause =>
      obtain ⟨deed, hdeed⟩ := exists_deed_of_not_opened c cause
      exact ⟨deed, none, fun s _ _ _ => hdeed s (opened_of_find_fault hfind)⟩
  | none =>
      cases found with
      | some a => exact exists_deed_of_found hfaults hfind a
      | none =>
          cases hcreate : c.faults (.create c.fresh) with
          | some cause =>
              obtain ⟨deed, hdeed⟩ := exists_deed_of_not_opened c cause
              exact ⟨deed, none, fun s _ _ hfound =>
                hdeed s (opened_of_create_fault hfind hfound hcreate)⟩
          | none => exact exists_deed_of_fresh hfaults hfind hcreate

end Call

end Engine

end Interchange
