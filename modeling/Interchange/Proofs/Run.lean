import Interchange.Engine.Strategy
import Interchange.Proofs.Mapping

/-!
# The ways a run can go

A run is stopped in one of five places or comes to its end. `Runs` lists the ways; `run` goes one of them
(`exists_runs`), and each determines what `run` makes of an attempt (`Runs.run_eq`).
-/

namespace Interchange

/-- An attempt that has just been opened. -/
structure Attempt.Open (a : Attempt) : Prop where
  status : a.status = .processing
  errorMessage : a.errorMessage = none
  content : a.content = none

/-- An attempt that has ended, with a message if and only if it ended in an error. -/
structure Attempt.Ended (a : Attempt) : Prop where
  terminal : a.status.isTerminal
  message : a.errorMessage.isSome ↔ a.status = .error

namespace Engine.Strategy

open Text.Utf8 (Octets)
open Xml (Document)
open LineGroup (parents)

variable {σ H L : Type}

/-! ## What a document gives -/

/-- The active rules for headers, each with its path. -/
def headerRules (st : Strategy H L) (client : String) : List (Rule × String) :=
  (activeRules (st.rules client st.settings.headerTable)).map fun r => (r, r.path)

/-- The active rules for lines. -/
def lineRules (st : Strategy H L) (client : String) : List Rule :=
  activeRules (st.rules client st.settings.lineTable)

/-- The header of a document: a new header, set by each rule in turn. -/
def headerOf (st : Strategy H L) (client : String) (d : Document) : Except Crash H :=
  st.header.bound st.transforms d Document.rootId (st.headerRules client)

/-- The errors of a header, rule by rule. -/
def headerErrors (st : Strategy H L) (client : String) (d : Document) : List BindingError :=
  st.header.flaws st.transforms d Document.rootId (st.headerRules client)

/-- The lines of a document, one for each place. -/
def linesOf (st : Strategy H L) (client : String) (d : Document) : Except Crash (List (BoundLine L)) :=
  (linePlaces d (st.lineRules client)).mapM (st.line.lineAt st.transforms d (st.lineRules client))

/-- The errors of groups, parent by parent. -/
def groupErrors (st : Strategy H L) (client : String) : List BindingError :=
  (parents (st.lineRules client)).flatMap (errorsUnder (st.lineRules client))

/-- The content of an attempt at a document. -/
def contentOf (octets : Octets) : Option String :=
  match Document.parse octets with
  | .ok d => some d.canonical
  | .error _ => none

theorem bindHeader_eq (st : Strategy H L) (client : String) (d : Document) :
    bindHeader st.transforms st.header d (st.rules client st.settings.headerTable) =
      (st.headerOf client d).map (·, st.headerErrors client d) :=
  bindRecord_eq st.header (st.headerRules client)

theorem bindLines_eq_linesOf (st : Strategy H L) (client : String) (d : Document) :
    bindLines st.transforms st.line d (st.rules client st.settings.lineTable) =
      (st.linesOf client d).map (⟨·, st.groupErrors client⟩) :=
  bindLines_eq _

/-! ## Runs -/

/-- How a run ends: stopped by a cause, or at its end with the errors that arose. -/
inductive Ending where
  | stopped (cause : String)
  | finished (log : ErrorLog)

/-- Closes an attempt by the ending of its run. -/
def Ending.close (st : Strategy H L) : Ending → Attempt → Attempt
  | stopped cause => st.stop cause
  | finished log => st.settle log

/-- The ways a run can go from a state of the storage, with the ending and the state behind it. -/
inductive Runs (st : Strategy H L) (storage : Storage σ H L) (client : String) (octets : Octets)
    (s : σ) : Ending → σ → Prop
  | malformed {m : Xml.Malformed} (hparse : Document.parse octets = .error m) :
      Runs st storage client octets s (.stopped m.message) s
  | headerCrash {d : Document} {crash : Crash} (hparse : Document.parse octets = .ok d)
      (hheader : st.headerOf client d = .error crash) :
      Runs st storage client octets s (.stopped crash.message) s
  | headerRefused {d : Document} {record : H} {e : StoreError}
      (hparse : Document.parse octets = .ok d) (hheader : st.headerOf client d = .ok record)
      (hsave : storage.saveHeader client record s = .error e) :
      Runs st storage client octets s (.stopped e.description) s
  | lineCrash {d : Document} {record : H} {id : Nat} {t : σ} {crash : Crash}
      (hparse : Document.parse octets = .ok d) (hheader : st.headerOf client d = .ok record)
      (hsave : storage.saveHeader client record s = .ok (id, t))
      (hlines : st.linesOf client d = .error crash) :
      Runs st storage client octets s (.stopped crash.message) t
  | linesRefused {d : Document} {record : H} {id : Nat} {t : σ} {lines : List (BoundLine L)}
      {e : StoreError}
      (hparse : Document.parse octets = .ok d) (hheader : st.headerOf client d = .ok record)
      (hsave : storage.saveHeader client record s = .ok (id, t))
      (hlines : st.linesOf client d = .ok lines)
      (hkept : st.keptLines ⟨lines, st.groupErrors client⟩ ≠ [])
      (hrefused : storage.saveLines id client (st.keptLines ⟨lines, st.groupErrors client⟩) t =
        .error e) :
      Runs st storage client octets s (.stopped e.description) t
  | noLines {d : Document} {record : H} {id : Nat} {t : σ} {lines : List (BoundLine L)}
      (hparse : Document.parse octets = .ok d) (hheader : st.headerOf client d = .ok record)
      (hsave : storage.saveHeader client record s = .ok (id, t))
      (hlines : st.linesOf client d = .ok lines)
      (hkept : st.keptLines ⟨lines, st.groupErrors client⟩ = []) :
      Runs st storage client octets s
        (.finished (errorLog (st.headerErrors client d) ⟨lines, st.groupErrors client⟩)) t
  | complete {d : Document} {record : H} {id : Nat} {t u : σ} {lines : List (BoundLine L)}
      (hparse : Document.parse octets = .ok d) (hheader : st.headerOf client d = .ok record)
      (hsave : storage.saveHeader client record s = .ok (id, t))
      (hlines : st.linesOf client d = .ok lines)
      (hkept : st.keptLines ⟨lines, st.groupErrors client⟩ ≠ [])
      (hsaved : storage.saveLines id client (st.keptLines ⟨lines, st.groupErrors client⟩) t = .ok u) :
      Runs st storage client octets s
        (.finished (errorLog (st.headerErrors client d) ⟨lines, st.groupErrors client⟩)) u

variable {st : Strategy H L} {storage : Storage σ H L} {client : String} {octets : Octets}
  {s t : σ} {e : Ending} {a : Attempt}

/-- `run` closes an attempt as the run ends, once the attempt has its content. -/
theorem Runs.run_eq (h : st.Runs storage client octets s e t) (ha : a.content = none) :
    st.run storage client octets a s = (e.close st { a with content := contentOf octets }, t) := by
  -- without a document the attempt keeps the content it has, which is none
  have hnone : { a with content := none } = a := by rw [← ha]
  unfold run contentOf
  cases h with
  | malformed hparse => simp only [hparse, hnone, Ending.close]
  | headerCrash hparse hheader => simp only [hparse, bindHeader_eq, hheader, Except.map, Ending.close]
  | headerRefused hparse hheader hsave =>
      simp only [hparse, bindHeader_eq, hheader, hsave, Except.map, Ending.close]
  | lineCrash hparse hheader hsave hlines =>
      simp only [hparse, bindHeader_eq, hheader, hsave, runLines, bindLines_eq_linesOf, hlines,
        Except.map, Ending.close]
  | linesRefused hparse hheader hsave hlines hkept hrefused =>
      simp only [hparse, bindHeader_eq, hheader, hsave, runLines, bindLines_eq_linesOf, hlines,
        List.isEmpty_iff, if_neg hkept, hrefused, Except.map, Ending.close]
  | noLines hparse hheader hsave hlines hkept =>
      simp only [hparse, bindHeader_eq, hheader, hsave, runLines, bindLines_eq_linesOf, hlines,
        List.isEmpty_iff, if_pos hkept, Except.map, Ending.close]
  | complete hparse hheader hsave hlines hkept hsaved =>
      simp only [hparse, bindHeader_eq, hheader, hsave, runLines, bindLines_eq_linesOf, hlines,
        List.isEmpty_iff, if_neg hkept, hsaved, Except.map, Ending.close]

theorem exists_runs (st : Strategy H L) (storage : Storage σ H L) (client : String) (octets : Octets)
    (s : σ) : ∃ e t, st.Runs storage client octets s e t := by
  cases hparse : Document.parse octets with
  | error m => exact ⟨_, _, .malformed hparse⟩
  | ok d =>
      cases hheader : st.headerOf client d with
      | error crash => exact ⟨_, _, .headerCrash hparse hheader⟩
      | ok record =>
          cases hsave : storage.saveHeader client record s with
          | error e => exact ⟨_, _, .headerRefused hparse hheader hsave⟩
          | ok saved =>
              cases hlines : st.linesOf client d with
              | error crash => exact ⟨_, _, .lineCrash hparse hheader hsave hlines⟩
              | ok lines =>
                  by_cases hkept : st.keptLines ⟨lines, st.groupErrors client⟩ = []
                  · exact ⟨_, _, .noLines hparse hheader hsave hlines hkept⟩
                  · cases hsaved : storage.saveLines saved.1 client
                      (st.keptLines ⟨lines, st.groupErrors client⟩) saved.2 with
                    | error e => exact ⟨_, _, .linesRefused hparse hheader hsave hlines hkept hsaved⟩
                    | ok u => exact ⟨_, _, .complete hparse hheader hsave hlines hkept hsaved⟩

/-! ## Opening and closing -/

theorem start_open {filename : String} {i : Interface}
    (h : start storage filename i s = .ok (a, t)) : a.Open := by
  unfold start at h
  split at h
  · cases h
  · cases h
    exact ⟨rfl, rfl, rfl⟩
  · simp only at h
    split at h
    · cases h
    · cases h
      exact ⟨rfl, rfl, rfl⟩

/-- Closing an attempt writes its status and its message, and nothing else. -/
theorem Ending.exists_close (e : Ending) (st : Strategy H L) (a : Attempt) : ∃ status message,
    e.close st a = { a with status := status, errorMessage := message } := by
  cases e with
  | stopped cause => exact ⟨_, _, rfl⟩
  | finished log =>
      simp only [close, settle]
      split <;> exact ⟨_, _, rfl⟩

theorem Ending.close_id : (e.close st a).id = a.id := by
  obtain ⟨_, _, hclose⟩ := e.exists_close st a
  rw [hclose]

theorem status_close_stopped {cause : String} : ((Ending.stopped cause).close st a).status = .error :=
  rfl

theorem errorMessage_close_stopped {cause : String} (ha : a.errorMessage = none) :
    ((Ending.stopped cause).close st a).errorMessage =
      some (truncateMessage ("Failed to process " ++ st.documentType ++ " document: " ++ cause)
        st.settings.messageLimit) := by
  simp [Ending.close, stop, Attempt.fail, ha]

theorem status_close_finished {log : ErrorLog} (ha : a.status = .processing) :
    ((Ending.finished log).close st a).status = if log = [] then .success else .error := by
  cases log <;> simp [Ending.close, settle, Attempt.succeed, Attempt.fail, ha]

theorem errorMessage_close_finished {log : ErrorLog} (ha : a.errorMessage = none) :
    ((Ending.finished log).close st a).errorMessage =
      if log = [] then none else some (truncateMessage
        (String.join (log.map fun e => e.message ++ "; ")) st.settings.messageLimit) := by
  cases log <;> simp [Ending.close, settle, Attempt.succeed, Attempt.fail, ErrorLog.render, ha]

theorem Ending.close_ended (hstatus : a.status = .processing) (hmessage : a.errorMessage = none) :
    (e.close st a).Ended := by
  cases e with
  | stopped cause =>
      exact ⟨rfl, by rw [errorMessage_close_stopped hmessage, status_close_stopped]; simp⟩
  | finished log =>
      constructor
      · rw [status_close_finished hstatus]
        split <;> rfl
      · rw [status_close_finished hstatus, errorMessage_close_finished hmessage]
        split <;> simp

/-! ## The ways processing can go -/

/-- The attempt that records why no other could be opened. -/
def critical (st : Strategy H L) (filename : String) (i : Interface) (cause : StoreError) : Attempt :=
  (Attempt.new filename i.id i.client).fail <| truncateMessage
    ("Critical error in " ++ st.documentType ++ " document processing: " ++ cause.description)
    st.settings.messageLimit

/-- The ways processing can go, with the answer and the state behind it. -/
inductive Course (st : Strategy H L) (storage : Storage σ H L) (doc : Inbound) (i : Interface) (s : σ) :
    Except EngineError Attempt → σ → Prop
  | closed {a b : Attempt} {t u v : σ} (hopen : start storage doc.filename i s = .ok (a, t))
      (hrun : st.run storage i.client doc.octets a t = (b, u))
      (hupdate : storage.update b u = .ok v) : Course st storage doc i s (.ok b) v
  | lost {a b : Attempt} {t u : σ} {e : StoreError}
      (hopen : start storage doc.filename i s = .ok (a, t))
      (hrun : st.run storage i.client doc.octets a t = (b, u))
      (hupdate : storage.update b u = .error e) : Course st storage doc i s (.error (.store e)) u
  | recorded {id : Nat} {t : σ} {cause : StoreError}
      (hopen : start storage doc.filename i s = .error cause)
      (hcreate : storage.create (st.critical doc.filename i cause) s = .ok (id, t)) :
      Course st storage doc i s (.ok { st.critical doc.filename i cause with id := some id }) t
  | unrecorded {cause e : StoreError} (hopen : start storage doc.filename i s = .error cause)
      (hcreate : storage.create (st.critical doc.filename i cause) s = .error e) :
      Course st storage doc i s (.error (.store e)) s

theorem process_course (st : Strategy H L) (storage : Storage σ H L) (doc : Inbound) (i : Interface)
    (s : σ) : st.Course storage doc i s (st.process storage doc i s).1 (st.process storage doc i s).2 := by
  unfold process
  cases hopen : start storage doc.filename i s with
  | error cause =>
      show st.Course storage doc i s (st.recordCritical storage doc.filename i cause s).1 _
      unfold recordCritical
      cases hcreate : storage.create (st.critical doc.filename i cause) s with
      | error e =>
          unfold critical at hcreate
          simp only [hcreate]
          exact .unrecorded hopen hcreate
      | ok created =>
          unfold critical at hcreate
          simp only [hcreate]
          exact .recorded hopen hcreate
  | ok opened =>
      obtain ⟨a, t⟩ := opened
      cases hrun : st.run storage i.client doc.octets a t with
      | mk b u =>
          cases hupdate : storage.update b u with
          | error e =>
              simp only [hrun, hupdate]
              exact .lost hopen hrun hupdate
          | ok v =>
              simp only [hrun, hupdate]
              exact .closed hopen hrun hupdate

end Engine.Strategy

end Interchange
