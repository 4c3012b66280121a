import Interchange.Proofs.Entries
import Interchange.Proofs.History
import Interchange.Proofs.Lines

/-!
# What calls store

A call stores nothing or one header with lines of its own (`Engine.records_of_history`). Headers and lines
that are there stay as they are, and every line has a header of its client.
-/

namespace Interchange.Engine

open Text.Utf8 (Octets)
open Xml (Document)
open LineGroup (parents)

variable {H L : Type}

/-- The lines that a policy keeps. -/
def LinePolicy.kept : LinePolicy → List (BoundLine L) → List L
  | .drop, lines => (lines.filter (·.isClean)).map (·.record)
  | .keep, lines => lines.map (·.record)

theorem Strategy.keptLines_eq (st : Strategy H L) (lines : List (BoundLine L))
    (errors : List BindingError) : st.keptLines ⟨lines, errors⟩ = st.settings.linePolicy.kept lines := by
  unfold keptLines LinePolicy.kept
  cases st.settings.linePolicy with
  | drop =>
      have hdrop : (LinePolicy.drop == .keep) = false := rfl
      simp only [hdrop, Bool.or_false]
  | keep => simp

theorem Strategy.linesOf_pairwise {st : Strategy H L} {client : String} {d : Document}
    {lines : List (BoundLine L)} (h : st.linesOf client d = .ok lines) :
    lines.Pairwise fun a b => Precedes d (parents (st.lineRules client)) a.node b.node := by
  rw [← List.pairwise_map, map_node_of_mapM h, List.pairwise_map]
  exact linePlaces_pairwise _

/-! ## Runs -/

namespace Strategy

variable {st : Strategy H L} {faults : Faults H L} {client : String} {octets : Octets}
  {s t : Store H L} {e : Ending} {d : Document} {record : H}

theorem Runs.linked (h : st.Runs (Store.storage.failing faults) client octets s e t)
    (hs : s.records.Linked) : t.records.Linked := by
  cases h with
  | malformed | headerCrash | headerRefused => exact hs
  | lineCrash _ _ hsave | linesRefused _ _ hsave | noLines _ _ hsave =>
      obtain ⟨_, _, rfl⟩ := Store.saveHeader_eq_ok.1 hsave
      exact hs.saveHeader
  | @complete _ record _ _ _ _ _ _ hsave _ _ hsaved =>
      obtain ⟨_, rfl, rfl⟩ := Store.saveHeader_eq_ok.1 hsave
      have hheader := RecordTable.header?_saveHeader hs client record
      obtain ⟨_, rfl⟩ := (Store.saveLines_eq_ok hheader).1 hsaved
      exact hs.saveHeader.saveLines hheader rfl (RecordTable.saveLines_of_header? hheader)

/-- A run without a header that can be bound and stored stores nothing. -/
theorem exists_runs_of_no_header (h : (∃ m, Document.parse octets = .error m) ∨
    (∃ d crash, Document.parse octets = .ok d ∧ st.headerOf client d = .error crash) ∨
    ∃ d record e, Document.parse octets = .ok d ∧ st.headerOf client d = .ok record ∧
      faults (.saveHeader client record) = some e) :
    ∃ e, st.Runs (Store.storage.failing faults) client octets s e s := by
  rcases h with ⟨m, hparse⟩ | ⟨d, crash, hparse, hheader⟩ | ⟨d, record, e, hparse, hheader, hfault⟩
  · exact ⟨_, .malformed hparse⟩
  · exact ⟨_, .headerCrash hparse hheader⟩
  · exact ⟨_, .headerRefused hparse hheader (Store.saveHeader_eq_error.2 hfault)⟩

/-- A run with a header that is stored puts the lines that are kept behind it. -/
theorem exists_runs_of_header (hs : s.records.Linked) (hparse : Document.parse octets = .ok d)
    (hheader : st.headerOf client d = .ok record) (hfault : faults (.saveHeader client record) = none) :
    ∃ e t kept, st.Runs (Store.storage.failing faults) client octets s e t ∧
      t.records.headers =
        s.records.headers ++ [⟨s.records.headers.length + 1, client, record⟩] ∧
      t.records.lines =
        s.records.lines ++ kept.map (⟨s.records.headers.length + 1, client, ·⟩) ∧
      (∀ crash, st.linesOf client d = .error crash → kept = []) ∧
      ∀ lines, st.linesOf client d = .ok lines →
        kept = if (faults (.saveLines (s.records.headers.length + 1) client
          (st.settings.linePolicy.kept lines))).isSome then [] else st.settings.linePolicy.kept lines := by
  have hruns : st.Runs (Store.storage.failing faults) client octets s _ _ :=
    runs_endingOf hparse hheader hfault hs fun _ => rfl
  refine ⟨_, _, _, hruns, rfl, rfl, fun crash hlines => ?_, fun lines hlines => ?_⟩
  · rw [storedLines, hlines]
  · rw [storedLines, hlines]
    simp only [keptLines_eq]

end Strategy

/-! ## Calls -/

namespace Call

variable {c : Call H L} {s : Store H L}

theorem records_of_not_opened {cause : StoreError} (h : c.opened s = .error cause) :
    (c.answer s).2.records = s.records := by
  have hopen : Strategy.start c.storage c.document.filename c.interface s = .error cause := h
  simp only [answer, Strategy.process, hopen, Strategy.recordCritical]
  split
  · rfl
  · rename_i hcreate
    obtain ⟨_, _, rfl⟩ := Store.create_eq_ok.1 hcreate
    rfl

theorem records_of_opened {a : Attempt} {t u : Store H L} {e : Strategy.Ending}
    (h : c.opened s = .ok (a, t))
    (hruns : c.strategy.Runs c.storage c.interface.client c.document.octets t e u) :
    (c.answer s).2.records = u.records := by
  have hopen : Strategy.start c.storage c.document.filename c.interface s = .ok (a, t) := h
  simp only [answer, Strategy.process, hopen, hruns.run_eq (Strategy.start_open hopen).content]
  split
  · rfl
  · rename_i hupdate
    obtain ⟨_, rows, _, rfl⟩ := Store.update_eq_ok.1 hupdate
    rfl

theorem answer_linked (hs : s.records.Linked) : (c.answer s).2.records.Linked := by
  cases hopen : c.opened s with
  | error cause =>
      rw [records_of_not_opened hopen]
      exact hs
  | ok opened =>
      obtain ⟨a, t⟩ := opened
      obtain ⟨e, u, hruns⟩ := Strategy.exists_runs c.strategy c.storage c.interface.client
        c.document.octets t
      rw [records_of_opened hopen hruns]
      have ht : t.records = s.records := Strategy.start_records hopen
      exact hruns.linked (ht ▸ hs)

end Call

theorem storeAfter_linked (history : List (Call H L)) : (storeAfter history).records.Linked := by
  induction history using List.reverseRecOn with
  | nil => exact .empty
  | append_singleton history c ih =>
      rw [storeAfter_concat]
      exact Call.answer_linked ih

/-- What a call stores behind any history. Without an attempt that is opened, a document, a header that is
bound and storage that takes it, the records stay as they are. Otherwise the header is put behind the
headers under a new number, and behind the lines those that the policy keeps, linked to that header; none
if a setter breaks down or the storage refuses them. Every line has a header of its client. -/
theorem records_of_history (history : List (Call H L)) (c : Call H L) :
    let s := storeAfter history
    let v := storeAfter (history ++ [c])
    let st := c.strategy
    let client := c.interface.client
    let id := s.records.headers.length + 1
    ((∃ cause, c.opened s = .error cause) ∨
        (∃ m, Document.parse c.document.octets = .error m) ∨
        (∃ d crash, Document.parse c.document.octets = .ok d ∧ st.headerOf client d = .error crash) ∨
        (∃ d record e, Document.parse c.document.octets = .ok d ∧ st.headerOf client d = .ok record ∧
          c.faults (.saveHeader client record) = some e) →
      v.records = s.records) ∧
    (∀ a t d record, c.opened s = .ok (a, t) → Document.parse c.document.octets = .ok d →
      st.headerOf client d = .ok record → c.faults (.saveHeader client record) = none →
      ∃ kept, v.records.headers = s.records.headers ++ [⟨id, client, record⟩] ∧
        v.records.lines = s.records.lines ++ kept.map (⟨id, client, ·⟩) ∧
        (∀ crash, st.linesOf client d = .error crash → kept = []) ∧
        ∀ lines, st.linesOf client d = .ok lines →
          (lines.Pairwise fun x y => Precedes d (parents (st.lineRules client)) x.node y.node) ∧
          kept = if (c.faults (.saveLines id client (st.settings.linePolicy.kept lines))).isSome then []
            else st.settings.linePolicy.kept lines) ∧
    (∀ h ∈ s.records.headers, h.id ≠ id) ∧
    ∀ line ∈ s.records.lines, ∃ h, s.records.header? line.headerId = some h ∧
      h.clientId = line.clientId := by
  intro s v st client id
  have hlinked : s.records.Linked := storeAfter_linked history
  have hv : v = (c.answer s).2 := storeAfter_concat history c
  refine ⟨fun hnone => ?_, fun a t d record hopen hparse hheader hfault => ?_,
    fun h hh => hlinked.fresh hh, hlinked.linked⟩
  · rw [hv]
    rcases hnone with ⟨cause, hopen⟩ | hnone
    · exact Call.records_of_not_opened hopen
    · cases hopen : c.opened s with
      | error cause => exact Call.records_of_not_opened hopen
      | ok opened =>
          obtain ⟨e, hruns⟩ := Strategy.exists_runs_of_no_header hnone
          rw [Call.records_of_opened hopen hruns]
          exact Strategy.start_records hopen
  · have ht : t.records = s.records := Strategy.start_records hopen
    obtain ⟨e, u, kept, hruns, hheaders, hlines, hcrash, hkept⟩ :=
      Strategy.exists_runs_of_header (ht ▸ hlinked) hparse hheader hfault
    rw [ht] at hheaders hlines hkept
    rw [hv, Call.records_of_opened hopen hruns]
    exact ⟨kept, hheaders, hlines, hcrash,
      fun lines h => ⟨Strategy.linesOf_pairwise h, hkept lines h⟩⟩

end Interchange.Engine
