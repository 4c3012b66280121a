import Interchange.Engine.Strategy
import Interchange.Proofs.Tables

/-!
# Storages that fail

A fault answers a request with an error and leaves the state as it was. Each request has a fault of its
own, so that a storage may fail at any point of any call; operations that are out of service are the case
in which all requests for them fail alike (`Engine.Strategy.process_outage`).
-/

namespace Interchange

variable {σ H L : Type}

/-- What a storage is asked for. -/
inductive Request (H L : Type) where
  | find (filename interfaceId : String)
  | create (a : Attempt)
  | update (a : Attempt)
  | saveHeader (client : String) (record : H)
  | saveLines (header : Nat) (client : String) (records : List L)

def Request.operation : Request H L → Operation
  | find _ _ => .find
  | create _ => .create
  | update _ => .update
  | saveHeader _ _ => .saveHeader
  | saveLines _ _ _ => .saveLines

/-- The requests that fail, with their errors. -/
abbrev Faults (H L : Type) := Request H L → Option StoreError

namespace Faults

/-- Answers a request that does not fail. -/
def guard {α : Type} (faults : Faults H L) (q : Request H L) (answer : Except StoreError α) :
    Except StoreError α :=
  match faults q with
  | some e => .error e
  | none => answer

variable {α : Type} {faults : Faults H L} {q : Request H L} {answer : Except StoreError α}

theorem guard_eq_ok {x : α} :
    faults.guard q answer = .ok x ↔ faults q = none ∧ answer = .ok x := by
  unfold guard
  cases faults q <;> simp

theorem guard_eq_error {e : StoreError} : faults.guard q answer = .error e ↔
    faults q = some e ∨ faults q = none ∧ answer = .error e := by
  unfold guard
  cases faults q <;> simp

theorem guard_map {β : Type} {f : α → β} :
    faults.guard q (answer.map f) = (faults.guard q answer).map f := by
  unfold guard
  cases faults q <;> rfl

end Faults

/-- A storage that fails at some requests. -/
def Storage.failing (inner : Storage σ H L) (faults : Faults H L) : Storage σ H L where
  find filename interfaceId s :=
    faults.guard (.find filename interfaceId) (inner.find filename interfaceId s)
  create a s := faults.guard (.create a) (inner.create a s)
  update a s := faults.guard (.update a) (inner.update a s)
  saveHeader client record s :=
    faults.guard (.saveHeader client record) (inner.saveHeader client record s)
  saveLines id client records s :=
    faults.guard (.saveLines id client records) (inner.saveLines id client records s)

/-! ## Tables in memory that fail -/

namespace Store

variable {faults : Faults H L} {s t : Store H L} {a : Attempt} {client : String} {record : H}
  {records : List L} {id : Nat} {e : StoreError} {h : StoredHeader H}

theorem create_eq_ok : (storage.failing faults).create a s = .ok (id, t) ↔
    faults (.create a) = none ∧ (s.attempts.create a).1 = id ∧
      t = { s with attempts := (s.attempts.create a).2 } := by
  simp only [Storage.failing, Faults.guard_eq_ok, storage, Except.ok.injEq, Prod.mk.injEq]
  exact ⟨fun ⟨hf, hid, ht⟩ => ⟨hf, hid, ht.symm⟩, fun ⟨hf, hid, ht⟩ => ⟨hf, hid, ht.symm⟩⟩

theorem create_eq_error :
    (storage.failing faults).create a s = .error e ↔ faults (.create a) = some e := by
  simp [Storage.failing, Faults.guard_eq_error, storage]

theorem find_eq_ok {filename interfaceId : String} {found : Option Attempt} :
    (storage.failing faults).find filename interfaceId s = .ok found ↔
      faults (.find filename interfaceId) = none ∧ s.attempts.find filename interfaceId = found := by
  simp only [Storage.failing, Faults.guard_eq_ok, storage, Except.ok.injEq]

theorem update_eq_ok : (storage.failing faults).update a s = .ok t ↔ faults (.update a) = none ∧
    ∃ rows, s.attempts.update a = .ok rows ∧ t = { s with attempts := rows } := by
  simp only [Storage.failing, Faults.guard_eq_ok, storage]
  cases s.attempts.update a <;> simp [eq_comm]

theorem update_eq_error {rows : AttemptTable} (h : s.attempts.update a = .ok rows) :
    (storage.failing faults).update a s = .error e ↔ faults (.update a) = some e := by
  simp [Storage.failing, Faults.guard_eq_error, storage, h]

theorem saveHeader_eq_ok : (storage.failing faults).saveHeader client record s = .ok (id, t) ↔
    faults (.saveHeader client record) = none ∧ s.records.headers.length + 1 = id ∧
      t = { s with records := (s.records.saveHeader client record).2 } := by
  simp only [Storage.failing, Faults.guard_eq_ok, storage, Except.ok.injEq, Prod.mk.injEq]
  exact ⟨fun ⟨hf, hid, ht⟩ => ⟨hf, hid, ht.symm⟩, fun ⟨hf, hid, ht⟩ => ⟨hf, hid, ht.symm⟩⟩

theorem saveHeader_eq_error : (storage.failing faults).saveHeader client record s = .error e ↔
    faults (.saveHeader client record) = some e := by
  simp [Storage.failing, Faults.guard_eq_error, storage]

theorem saveLines_eq_ok (hid : s.records.header? id = some h) :
    (storage.failing faults).saveLines id client records s = .ok t ↔
      faults (.saveLines id client records) = none ∧
        t = { s with records := { s.records with
          lines := s.records.lines ++ records.map fun r => ⟨id, client, r⟩ } } := by
  simp only [Storage.failing, Faults.guard_eq_ok, storage, RecordTable.saveLines_of_header? hid,
    Except.ok.injEq]
  exact ⟨fun ⟨hf, ht⟩ => ⟨hf, ht.symm⟩, fun ⟨hf, ht⟩ => ⟨hf, ht.symm⟩⟩

theorem attempts_of_saveLines (h : (storage.failing faults).saveLines id client records s = .ok t) :
    t.attempts = s.attempts := by
  obtain ⟨_, hsave⟩ := Faults.guard_eq_ok.1 h
  simp only [storage] at hsave
  split at hsave
  · cases hsave
    rfl
  · cases hsave

theorem saveLines_eq_error (hid : s.records.header? id = some h) :
    (storage.failing faults).saveLines id client records s = .error e ↔
      faults (.saveLines id client records) = some e := by
  simp [Storage.failing, Faults.guard_eq_error, storage, RecordTable.saveLines_of_header? hid]

end Store

/-! ## Operations out of service -/

/-- The faults of operations that are out of service. -/
def Faults.ofDown (down : List Operation) : Faults H L := fun q =>
  if down.contains q.operation then some ⟨q.operation.name, "table unavailable"⟩ else none

namespace Outage

variable {inner : Storage σ H L} {down : List Operation} {s : σ}

theorem attempting_eq {α : Type} {o : Outage σ} (q : Request H L) {run : Except StoreError α} :
    o.attempting q.operation run = (Faults.ofDown o.down).guard q run := by
  unfold attempting Faults.guard Faults.ofDown
  split <;> rfl

theorem find_eq {filename interfaceId : String} :
    (storage inner).find filename interfaceId ⟨down, s⟩ =
      (inner.failing (.ofDown down)).find filename interfaceId s :=
  attempting_eq (H := H) (L := L) (.find filename interfaceId)

theorem create_eq {a : Attempt} : (storage inner).create a ⟨down, s⟩ =
    ((inner.failing (.ofDown down)).create a s).map fun (id, s) => (id, ⟨down, s⟩) :=
  (attempting_eq (H := H) (L := L) (.create a)).trans Faults.guard_map

theorem update_eq {a : Attempt} : (storage inner).update a ⟨down, s⟩ =
    ((inner.failing (.ofDown down)).update a s).map fun s => ⟨down, s⟩ :=
  (attempting_eq (H := H) (L := L) (.update a)).trans Faults.guard_map

theorem saveHeader_eq {client : String} {record : H} :
    (storage inner).saveHeader client record ⟨down, s⟩ =
      ((inner.failing (.ofDown down)).saveHeader client record s).map fun (id, s) =>
        (id, ⟨down, s⟩) :=
  (attempting_eq (H := H) (L := L) (.saveHeader client record)).trans Faults.guard_map

theorem saveLines_eq {id : Nat} {client : String} {records : List L} :
    (storage inner).saveLines id client records ⟨down, s⟩ =
      ((inner.failing (.ofDown down)).saveLines id client records s).map fun s => ⟨down, s⟩ :=
  (attempting_eq (H := H) (L := L) (.saveLines id client records)).trans Faults.guard_map

end Outage

namespace Engine.Strategy

open Outage (storage)

variable {inner : Storage σ H L} {down : List Operation} {s : σ} {st : Strategy H L}
  {filename client : String} {i : Interface} {d : Xml.Document} {header : Nat} {a : Attempt}
  {errors : List BindingError} {octets : Text.Utf8.Octets}

theorem start_outage : start (storage inner) filename i ⟨down, s⟩ =
    (start (inner.failing (.ofDown down)) filename i s).map fun (a, s) => (a, ⟨down, s⟩) := by
  unfold start
  rw [Outage.find_eq]
  cases (inner.failing (.ofDown down)).find filename i.id s with
  | error e => rfl
  | ok found =>
      cases found with
      | some a => rfl
      | none =>
          simp only [Outage.create_eq]
          cases (inner.failing (.ofDown down)).create (Attempt.new filename i.id i.client) s <;> rfl

theorem runLines_outage :
    st.runLines (storage inner) client d header errors a ⟨down, s⟩ =
      (st.runLines (inner.failing (.ofDown down)) client d header errors a s).map id
        (Outage.mk down) := by
  unfold runLines
  cases bindLines st.transforms st.line d (st.rules client st.settings.lineTable) with
  | error crash => rfl
  | ok binding =>
      simp only [Outage.saveLines_eq]
      cases (st.keptLines binding).isEmpty with
      | true => rfl
      | false =>
          cases (inner.failing (.ofDown down)).saveLines header client (st.keptLines binding) s <;> rfl

theorem run_outage : st.run (storage inner) client octets a ⟨down, s⟩ =
    (st.run (inner.failing (.ofDown down)) client octets a s).map id (Outage.mk down) := by
  unfold run
  cases Xml.Document.parse octets with
  | error m => rfl
  | ok d =>
      simp only [Outage.saveHeader_eq]
      cases bindHeader st.transforms st.header d (st.rules client st.settings.headerTable) with
      | error crash => rfl
      | ok bound =>
          obtain ⟨record, errors⟩ := bound
          simp only
          cases (inner.failing (.ofDown down)).saveHeader client record s with
          | error e => rfl
          | ok saved => exact runLines_outage

theorem recordCritical_outage {e : StoreError} :
    st.recordCritical (storage inner) filename i e ⟨down, s⟩ =
      (st.recordCritical (inner.failing (.ofDown down)) filename i e s).map id (Outage.mk down) := by
  unfold recordCritical
  simp only [Outage.create_eq]
  cases (inner.failing (.ofDown down)).create _ s <;> rfl

/-- Operations out of service are faults. -/
theorem process_outage (doc : Inbound) :
    st.process (storage inner) doc i ⟨down, s⟩ =
      (st.process (inner.failing (.ofDown down)) doc i s).map id (Outage.mk down) := by
  unfold process
  rw [start_outage]
  cases start (inner.failing (.ofDown down)) doc.filename i s with
  | error e => exact recordCritical_outage
  | ok opened =>
      obtain ⟨a, s⟩ := opened
      simp only [Except.map, run_outage, Prod.map, id, Outage.update_eq]
      cases (inner.failing (.ofDown down)).update _ _ <;> rfl

end Engine.Strategy

end Interchange
