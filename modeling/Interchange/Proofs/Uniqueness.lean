import Mathlib.Data.List.Induction
import Interchange.Engine.Dispatcher
import Interchange.Engine.Notices
import Interchange.Proofs.History
import Interchange.Proofs.Naming

/-!
# One attempt for a file and an interface

No table forbids two attempts of one key. That there are none follows from how attempts are opened: the one
that is found is opened again, and a new one is put in only where none was found
(`Engine.attempts_by_key`).
-/

namespace Interchange

/-- What an attempt is found by: its file and its interface. -/
def Attempt.key (a : Attempt) : String × String := (a.filename, a.interfaceId)

namespace AttemptTable

variable {t u v : AttemptTable} {a b : Attempt} {n j : Nat} {key : String × String}
  {filename interfaceId : String}

/-- No two attempts have one key. -/
def Unique (t : AttemptTable) : Prop :=
  ∀ i j a b, t.get? i = some a → t.get? j = some b → a.key = b.key → i = j

theorem Unique.empty : AttemptTable.empty.Unique := by
  intro i j a b ha
  cases i <;> cases ha

/-- At most number `n` is written, and `n` is the number of the key: no other attempt has it. -/
structure Writes (t u : AttemptTable) (key : String × String) (n : Nat) : Prop where
  others : ∀ j, j ≠ n → u.get? j = t.get? j
  old : ∀ a, t.get? n = some a → a.key = key
  new : ∀ a, u.get? n = some a → a.key = key
  own : ∀ j a, t.get? j = some a → a.key = key → j = n

theorem Writes.unique (h : t.Writes u key n) (ht : t.Unique) : u.Unique := by
  have hown : ∀ j a, u.get? j = some a → a.key = key → j = n := by
    intro j a hj ha
    by_cases hjn : j = n
    · exact hjn
    · exact h.own j a (h.others j hjn ▸ hj) ha
  intro i j a b hi hj hab
  by_cases hin : i = n
  · exact hin.trans (hown j b hj (hab ▸ h.new a (hin ▸ hi))).symm
  · by_cases hjn : j = n
    · exact (hown i a hi (hab ▸ h.new b (hjn ▸ hj))).trans hjn.symm
    · exact ht i j a b (h.others i hin ▸ hi) (h.others j hjn ▸ hj) hab

theorem Writes.other_key (h : t.Writes u key n) (ha : a.key ≠ key) :
    u.get? j = some a ↔ t.get? j = some a := by
  by_cases hjn : j = n
  · rw [hjn]
    exact ⟨fun hu => absurd (h.new a hu) ha, fun ht => absurd (h.old a ht) ha⟩
  · rw [h.others j hjn]

theorem isSome_get?_succ : (t.get? (j + 1)).isSome ↔ j < t.rows.length := by
  simp [get?]

theorem Writes.length_le (h : t.Writes u key n) : u.rows.length ≤ t.rows.length + 1 := by
  by_contra hlt
  -- two numbers are new, and only one of them is written
  have hnew : ∀ j, t.rows.length ≤ j → j < u.rows.length → j + 1 = n := by
    intro j hle hj
    by_contra hjn
    have hsome := isSome_get?_succ.2 hj
    rw [h.others _ hjn, isSome_get?_succ] at hsome
    omega
  have hfirst := hnew t.rows.length (by omega) (by omega)
  have hsecond := hnew (t.rows.length + 1) (by omega) (by omega)
  omega

theorem Writes.trans (h : t.Writes u key n) (h' : u.Writes v key n) : t.Writes v key n where
  others j hj := (h'.others j hj).trans (h.others j hj)
  old := h.old
  new := h'.new
  own := h.own

/-! ## Finding, creating and updating -/

theorem ne_key_of_find_eq_none (h : t.find filename interfaceId = none) (ha : t.get? j = some a) :
    a.key ≠ (filename, interfaceId) := by
  cases j with
  | zero => cases ha
  | succ i =>
      intro hkey
      refine List.find?_eq_none.1 h a (List.mem_reverse.2 (List.mem_of_getElem? ha)) ?_
      obtain ⟨hfile, hinterface⟩ := Prod.mk.inj hkey
      rw [hfile, hinterface]
      simp

theorem writes_find (ht : t.Numbered) (hu : t.Unique) (h : t.find filename interfaceId = some a) :
    ∃ n, a.id = some n ∧ a.key = (filename, interfaceId) ∧ t.Writes t (filename, interfaceId) n := by
  obtain ⟨n, hid, hn, rfl, rfl⟩ := ht.find h
  have hkey : ∀ b, t.get? n = some b → b.key = a.key := by
    intro b hb
    rw [hn] at hb
    cases hb
    rfl
  exact ⟨n, hid, rfl, fun _ _ => rfl, hkey, hkey, fun j b hj hb => hu j n b a hj hn hb⟩

/-- Where no attempt has the key, the next number is its number, whether it is written or not. -/
theorem writes_next (h : t.find filename interfaceId = none)
    (hothers : ∀ j, j ≠ t.rows.length + 1 → u.get? j = t.get? j)
    (hnew : ∀ b, u.get? (t.rows.length + 1) = some b → b.key = (filename, interfaceId)) :
    t.Writes u (filename, interfaceId) (t.rows.length + 1) where
  others := hothers
  old b hb := by
    have hlt := isSome_get?_succ.1 (hb ▸ rfl : (t.get? (t.rows.length + 1)).isSome)
    omega
  new := hnew
  own j b hj hb := absurd hb (ne_key_of_find_eq_none h hj)

theorem writes_none (h : t.find filename interfaceId = none) :
    t.Writes t (filename, interfaceId) (t.rows.length + 1) :=
  writes_next h (fun _ _ => rfl) fun b hb => by
    have hlt := isSome_get?_succ.1 (hb ▸ rfl : (t.get? (t.rows.length + 1)).isSome)
    omega

theorem writes_create (h : t.find filename interfaceId = none) (ha : a.key = (filename, interfaceId)) :
    t.Writes (t.create a).2 (filename, interfaceId) (t.rows.length + 1) := by
  refine writes_next h (fun j hj => get?_create_of_ne hj) fun b hb => ?_
  have hcreated : (t.create a).2.get? (t.rows.length + 1) = some { a with id := _ } := get?_create t a
  rw [hcreated] at hb
  cases hb
  exact ha

theorem Writes.update (h : t.Writes u key n) (hid : a.id = some n) (ha : a.key = key)
    (hv : u.update a = .ok v) : t.Writes v key n := by
  refine h.trans ⟨fun j hj => get?_update_of_ne hid hv hj, h.new, fun b hb => ?_, fun j b hj hb => ?_⟩
  · rw [get?_update hid hv] at hb
    cases hb
    exact ha
  · by_contra hjn
    exact hjn (h.own j b (h.others j hjn ▸ hj) hb)

end AttemptTable

namespace Engine

open Strategy (start)

variable {H L : Type}

/-! ## One call -/

namespace Strategy

variable {faults : Faults H L} {s t u : Store H L} {a b : Attempt} {st : Strategy H L} {e : Ending}
  {filename client : String} {i : Interface} {octets : Text.Utf8.Octets}

theorem Ending.close_key : (e.close st a).key = a.key := by
  obtain ⟨_, _, hclose⟩ := e.exists_close st a
  rw [hclose]
  rfl

theorem run_writes (ha : a.content = none)
    (hrun : st.run (Store.storage.failing faults) client octets a t = (b, u)) :
    b.id = a.id ∧ b.key = a.key ∧ u.attempts = t.attempts := by
  obtain ⟨e, v, hruns⟩ := exists_runs st (Store.storage.failing faults) client octets t
  rw [hruns.run_eq ha] at hrun
  obtain ⟨rfl, rfl⟩ := Prod.mk.inj hrun
  exact ⟨Ending.close_id, Ending.close_key, hruns.attempts_eq⟩

theorem start_writes (hs : s.attempts.Numbered) (hu : s.attempts.Unique)
    (h : start (Store.storage.failing faults) filename i s = .ok (a, t)) :
    ∃ n, a.id = some n ∧ a.key = (filename, i.id) ∧
      s.attempts.Writes t.attempts (filename, i.id) n := by
  rcases start_cases h with ⟨b, hfound, rfl, rfl⟩ | ⟨hnone, rfl, rfl⟩
  · obtain ⟨n, hid, hkey, hwrites⟩ := AttemptTable.writes_find hs hu hfound
    exact ⟨n, hid, hkey, hwrites⟩
  · exact ⟨_, rfl, rfl, AttemptTable.writes_create hnone rfl⟩

/-- An attempt that cannot be opened, although it can be looked for, is one of a new key. -/
theorem find_eq_none_of_start {cause : StoreError}
    (hfind : faults (.find filename i.id) = none)
    (h : start (Store.storage.failing faults) filename i s = .error cause) :
    s.attempts.find filename i.id = none := by
  have hfound : (Store.storage.failing faults).find filename i.id s =
      .ok (s.attempts.find filename i.id) := Store.find_eq_ok.2 ⟨hfind, rfl⟩
  unfold start at h
  rw [hfound] at h
  cases hkey : s.attempts.find filename i.id with
  | none => rfl
  | some a =>
      rw [hkey] at h
      cases h

end Strategy

namespace Call

variable {c : Call H L} {s : Store H L}

def key (c : Call H L) : String × String := (c.document.filename, c.interface.id)

/-- A call writes at most the number of its key, and that is the number it answers with. -/
theorem answer_writes (hs : s.attempts.Numbered) (hu : s.attempts.Unique)
    (hfind : c.faults (.find c.document.filename c.interface.id) = none) :
    ∃ n, s.attempts.Writes (c.answer s).2.attempts c.key n ∧
      ∀ b, (c.answer s).1 = .ok b → b.id = some n := by
  have hcourse : c.strategy.Course c.storage c.document c.interface s (c.answer s).1 (c.answer s).2 :=
    Strategy.process_course _ _ _ _ _
  generalize c.answer s = r at hcourse ⊢
  obtain ⟨x, v⟩ := r
  cases hcourse with
  | @closed a b t u _ hopen hrun hupdate =>
      obtain ⟨n, hid, hkey, hwrites⟩ := Strategy.start_writes hs hu hopen
      obtain ⟨hid', hkey', hrows⟩ := Strategy.run_writes (Strategy.start_open hopen).content hrun
      obtain ⟨_, rows, hupdated, rfl⟩ := Store.update_eq_ok.1 hupdate
      rw [hrows] at hupdated
      refine ⟨n, hwrites.update (hid'.trans hid) (hkey'.trans hkey) hupdated, fun _ hb => ?_⟩
      cases hb
      exact hid'.trans hid
  | lost hopen hrun _ =>
      obtain ⟨n, _, _, hwrites⟩ := Strategy.start_writes hs hu hopen
      obtain ⟨_, _, hrows⟩ := Strategy.run_writes (Strategy.start_open hopen).content hrun
      refine ⟨n, hrows ▸ hwrites, fun _ hb => ?_⟩
      cases hb
  | recorded hopen hcreate =>
      have hnone := Strategy.find_eq_none_of_start hfind hopen
      obtain ⟨_, rfl, rfl⟩ := Store.create_eq_ok.1 hcreate
      refine ⟨_, AttemptTable.writes_create hnone rfl, fun _ hb => ?_⟩
      cases hb
      rfl
  | unrecorded hopen _ =>
      refine ⟨_, AttemptTable.writes_none (Strategy.find_eq_none_of_start hfind hopen), fun _ hb => ?_⟩
      cases hb

theorem answer_numbered (hs : s.attempts.Numbered) : (c.answer s).2.attempts.Numbered :=
  (c.effect hs).numbered hs

theorem not_isConfiguration {e : EngineError} (h : (c.answer s).1 = .error e) :
    ¬ e.isConfiguration := by
  have hcourse : c.strategy.Course c.storage c.document c.interface s (c.answer s).1 (c.answer s).2 :=
    Strategy.process_course _ _ _ _ _
  rw [h] at hcourse
  generalize (c.answer s).2 = v at hcourse
  cases hcourse <;> simp [EngineError.isConfiguration]

end Call

/-! ## Dispatching -/

namespace Dispatcher

/-- A dispatcher at which strategies are registered one after another; one of a type that is taken is
refused, and the dispatcher stays as it is. -/
def ofStrategies (strategies : List (Strategy H L)) : Dispatcher H L :=
  strategies.foldl (fun d st =>
    match d.register st with
    | .ok d => d
    | .error _ => d) .empty

theorem lookup_ofStrategies (strategies : List (Strategy H L)) (key : String) :
    (ofStrategies strategies).strategies.lookup key =
      strategies.find? fun st => typeKey st.documentType == key := by
  induction strategies using List.reverseRecOn with
  | nil => rfl
  | append_singleton strategies st ih =>
      have hlast : ofStrategies (strategies ++ [st]) =
          match (ofStrategies strategies).register st with
          | .ok d => d
          | .error _ => ofStrategies strategies := by
        simp [ofStrategies, List.foldl_append]
      rw [hlast, List.find?_append]
      unfold register
      cases htaken : (ofStrategies strategies).strategies.lookup (typeKey st.documentType) with
      | some other =>
          simp only [htaken, Option.isSome_some, if_true, ih]
          by_cases hkey : typeKey st.documentType = key
          · rw [← ih, ← hkey, htaken, Option.some_or]
          · simp [hkey]
      | none =>
          simp only [htaken, Option.isSome_none, Bool.false_eq_true, if_false, List.lookup_append, ih]
          by_cases hkey : typeKey st.documentType = key
          · simp [hkey]
          · simp [List.lookup_cons, hkey, beq_eq_false_iff_ne.2 (Ne.symm hkey)]

end Dispatcher

/-- How a document reaches a strategy: straight, or by a dispatcher at which strategies are registered. -/
inductive Route (H L : Type) where
  | straight (strategy : Strategy H L)
  | dispatched (strategies : List (Strategy H L))

/-- A document that is handed over, with the faults of the tables meanwhile. -/
structure Delivery (H L : Type) where
  route : Route H L
  faults : Faults H L
  document : Inbound
  interface : Interface

namespace Delivery

def key (d : Delivery H L) : String × String := (d.document.filename, d.interface.id)

/-- The answer to a delivery, and the tables behind it. -/
def answer (d : Delivery H L) (s : Store H L) : Except EngineError Attempt × Store H L :=
  match d.route with
  | .straight strategy =>
    strategy.process (Store.storage.failing d.faults) d.document d.interface s
  | .dispatched strategies =>
    (Dispatcher.ofStrategies strategies).dispatch (Store.storage.failing d.faults) d.document
      d.interface s

/-- The attempts can be looked for. -/
def Finds (d : Delivery H L) : Prop := d.faults (.find d.document.filename d.interface.id) = none

/-- The dispatcher has no strategy for the delivery, or the interface is not active. -/
def Refused (d : Delivery H L) : Prop :=
  ∃ strategies, d.route = .dispatched strategies ∧ (d.interface.active = false ∨
    ∀ st ∈ strategies, ¬ Text.Agree st.documentType d.interface.documentType)

variable {d : Delivery H L} {s : Store H L}

/-- A delivery is refused and leaves the tables alone, or it is a call. -/
theorem answer_cases (d : Delivery H L) (s : Store H L) :
    (d.Refused ∧ ∃ e, d.answer s = (.error e, s) ∧ e.isConfiguration) ∨
      ¬ d.Refused ∧ ∃ st, d.answer s = (Call.mk st d.faults d.document d.interface).answer s := by
  obtain ⟨route, faults, document, interface⟩ := d
  cases route with
  | straight st =>
      refine Or.inr ⟨?_, st, rfl⟩
      rintro ⟨_, hroute, _⟩
      cases hroute
  | dispatched strategies =>
      simp only [answer, Dispatcher.dispatch, Dispatcher.strategy, Dispatcher.lookup_ofStrategies]
      cases hactive : interface.active with
      | false => exact Or.inl ⟨⟨strategies, rfl, Or.inl hactive⟩, _, rfl, rfl⟩
      | true =>
          have hkey : ∀ st : Strategy H L, typeKey st.documentType = typeKey interface.documentType ↔
              Text.Agree st.documentType interface.documentType :=
            fun _ => Text.asciiUpper_trim_eq_iff
          cases hfound : strategies.find? fun st =>
              typeKey st.documentType == typeKey interface.documentType with
          | none =>
              refine Or.inl ⟨⟨strategies, rfl, Or.inr fun st hst hagree => ?_⟩, _, rfl, rfl⟩
              exact List.find?_eq_none.1 hfound st hst (beq_iff_eq.2 ((hkey st).2 hagree))
          | some st =>
              refine Or.inr ⟨?_, st, rfl⟩
              rintro ⟨_, hroute, hinactive | hnone⟩
              · rw [hactive] at hinactive
                cases hinactive
              · cases hroute
                have htype := List.find?_some hfound
                exact hnone st (List.mem_of_find?_eq_some hfound) ((hkey st).1 (beq_iff_eq.1 htype))

theorem isConfiguration_iff_refused :
    (∃ e, (d.answer s).1 = .error e ∧ e.isConfiguration) ↔ d.Refused := by
  rcases d.answer_cases s with ⟨hrefused, e, hanswer, he⟩ | ⟨hnot, st, hanswer⟩
  · exact iff_of_true ⟨e, by rw [hanswer], he⟩ hrefused
  · rw [hanswer]
    exact iff_of_false (fun ⟨_, herror, he⟩ => Call.not_isConfiguration herror he) hnot

theorem answer_of_refused (h : d.Refused) : (d.answer s).2 = s := by
  rcases d.answer_cases s with ⟨_, _, hanswer, _⟩ | ⟨hnot, _⟩
  · rw [hanswer]
  · exact absurd h hnot

theorem answer_numbered (hs : s.attempts.Numbered) : (d.answer s).2.attempts.Numbered := by
  rcases d.answer_cases s with ⟨hrefused, _⟩ | ⟨_, st, hanswer⟩
  · rw [answer_of_refused hrefused]
    exact hs
  · rw [hanswer]
    exact Call.answer_numbered hs

/-- What a delivery writes, if it is not refused. -/
theorem answer_writes (hs : s.attempts.Numbered) (hu : s.attempts.Unique) (hfind : d.Finds) :
    (d.answer s).2 = s ∧ (∀ b, (d.answer s).1 ≠ .ok b) ∨
      ∃ n, s.attempts.Writes (d.answer s).2.attempts d.key n ∧
        ∀ b, (d.answer s).1 = .ok b → b.id = some n := by
  rcases d.answer_cases s with ⟨_, e, hanswer, _⟩ | ⟨_, st, hanswer⟩
  · rw [hanswer]
    exact Or.inl ⟨rfl, fun b hb => by cases hb⟩
  · rw [hanswer]
    exact Or.inr (Call.answer_writes (c := ⟨st, d.faults, d.document, d.interface⟩) hs hu hfind)

end Delivery

/-! ## All deliveries of a history -/

/-- The tables behind deliveries that are made one after another. -/
def deliveredAfter (history : List (Delivery H L)) : Store H L :=
  history.foldl (fun s d => (d.answer s).2) .empty

theorem deliveredAfter_concat (history : List (Delivery H L)) (d : Delivery H L) :
    deliveredAfter (history ++ [d]) = (d.answer (deliveredAfter history)).2 := by
  simp [deliveredAfter, List.foldl_append]

theorem deliveredAfter_numbered (history : List (Delivery H L)) :
    (deliveredAfter history).attempts.Numbered := by
  induction history using List.reverseRecOn with
  | nil => exact .empty
  | append_singleton history d ih =>
      rw [deliveredAfter_concat]
      exact Delivery.answer_numbered ih

theorem deliveredAfter_unique (history : List (Delivery H L)) (hfind : ∀ d ∈ history, d.Finds) :
    (deliveredAfter history).attempts.Unique := by
  induction history using List.reverseRecOn with
  | nil => exact .empty
  | append_singleton history d ih =>
      have hu := ih fun x hx => hfind x (List.mem_append_left _ hx)
      rw [deliveredAfter_concat]
      rcases Delivery.answer_writes (deliveredAfter_numbered history) hu (hfind d (by simp)) with
        ⟨hsame, _⟩ | ⟨n, hwrites, _⟩
      · rw [hsame]
        exact hu
      · exact hwrites.unique hu

/-- As long as attempts can be looked for, there is one attempt for a file and an interface, whatever else
fails: a delivery for a key that has one answers with its number, a delivery for a new key puts in at most
one, and attempts of other keys stay as they are. Deliveries are refused for an interface that is not
active or of which no strategy has the type, and then leave all tables as they are. -/
theorem attempts_by_key (history : List (Delivery H L)) (d : Delivery H L)
    (hfind : ∀ x ∈ history ++ [d], x.Finds) :
    let s := deliveredAfter history
    let v := deliveredAfter (history ++ [d])
    s.attempts.Unique ∧ v.attempts.Unique ∧
    (∀ i a b, s.attempts.get? i = some a → a.key = d.key → (d.answer s).1 = .ok b → b.id = some i) ∧
    ((∀ i a, s.attempts.get? i = some a → a.key ≠ d.key) →
      v.attempts.rows.length ≤ s.attempts.rows.length + 1) ∧
    (∀ i a, a.key ≠ d.key → (v.attempts.get? i = some a ↔ s.attempts.get? i = some a)) ∧
    ((∃ e, (d.answer s).1 = .error e ∧ e.isConfiguration) ↔ d.Refused) ∧
    (d.Refused → v = s) := by
  intro s v
  have hs : s.attempts.Numbered := deliveredAfter_numbered history
  have hu : s.attempts.Unique :=
    deliveredAfter_unique history fun x hx => hfind x (List.mem_append_left _ hx)
  have hv : v = (d.answer s).2 := deliveredAfter_concat history d
  refine ⟨hu, deliveredAfter_unique _ hfind, ?_⟩
  rw [hv]
  rcases Delivery.answer_writes hs hu (hfind d (by simp)) with ⟨hsame, hnot⟩ | ⟨n, hwrites, hid⟩
  · rw [hsame]
    exact ⟨fun i a b _ _ hb => absurd hb (hnot b), fun _ => Nat.le_succ _, fun i a _ => Iff.rfl,
      Delivery.isConfiguration_iff_refused, fun _ => rfl⟩
  · exact ⟨fun i a b hi ha hb => hwrites.own i a hi ha ▸ hid b hb, fun _ => hwrites.length_le,
      fun i a ha => hwrites.other_key ha, Delivery.isConfiguration_iff_refused,
      Delivery.answer_of_refused⟩

theorem attempts_by_key_notice :
    let strategy := noticeStrategy "2024-03-01" fun _ _ => []
    let interface := Interface.new "7" "ACME" "notices" "ASN"
    let lost : Delivery _ _ :=
      ⟨.dispatched [strategy], .ofDown [.update], ⟨"a.xml", []⟩, interface⟩
    let again : Delivery _ _ := ⟨.straight strategy, .ofDown [.create], ⟨"a.xml", []⟩, interface⟩
    (∀ x ∈ [lost] ++ [again], x.Finds) ∧
      ((deliveredAfter [lost]).attempts.get? 1).map Attempt.key = some again.key ∧
      (deliveredAfter ([lost] ++ [again])).attempts.Unique ∧
      ∀ b, (again.answer (deliveredAfter [lost])).1 = .ok b → b.id = some 1 := by
  intro strategy interface lost again
  have hfind : ∀ x ∈ [lost] ++ [again], x.Finds := by
    intro x hx
    rcases List.mem_cons.1 hx with rfl | hx
    · rfl
    · rcases List.mem_singleton.1 hx with rfl
      rfl
  have hkey : ((deliveredAfter [lost]).attempts.get? 1).map Attempt.key = some again.key := by
    decide +kernel
  obtain ⟨a, ha, hkey'⟩ := Option.map_eq_some_iff.1 hkey
  obtain ⟨_, hunique, hsame, _⟩ := attempts_by_key [lost] again hfind
  exact ⟨hfind, hkey, hunique, fun b hb => hsame 1 a b ha hkey' hb⟩

end Engine

end Interchange
