import Interchange.Proofs.Memory

/-!
# Entries

What a run stores is an entry or nothing: a header under the next number, with lines of its own. What the
entry is does not depend on what the tables hold (`Engine.Strategy.exists_entry`).
-/

namespace Interchange

variable {H L : Type}

/-- A header with its lines. -/
structure Entry (H L : Type) where
  record : H
  lines : List L

namespace RecordTable

/-- Puts in the header of an entry under the next number, and its lines; or nothing. -/
def enter (t : RecordTable H L) (client : String) : Option (Entry H L) → RecordTable H L
  | none => t
  | some e =>
    ⟨t.headers ++ [⟨t.headers.length + 1, client, e.record⟩],
      t.lines ++ e.lines.map (⟨t.headers.length + 1, client, ·⟩)⟩

variable {t : RecordTable H L} {client : String} {record : H} {e : Entry H L} {id : Nat}

theorem enter_nil : t.enter client (some ⟨record, []⟩) = (t.saveHeader client record).2 := by
  simp [enter, saveHeader]

theorem enter_appends (t : RecordTable H L) (client : String) (entry : Option (Entry H L)) :
    ∃ headers lines, (t.enter client entry).headers = t.headers ++ headers ∧
      (t.enter client entry).lines = t.lines ++ lines ∧
      (∀ h ∈ headers, h.clientId = client) ∧ ∀ line ∈ lines, line.clientId = client := by
  cases entry with
  | none => exact ⟨[], [], (List.append_nil _).symm, (List.append_nil _).symm, by simp, by simp⟩
  | some e => exact ⟨_, _, rfl, rfl, by simp, by simp⟩

theorem Linked.enter {entry : Option (Entry H L)} (ht : t.Linked) : (t.enter client entry).Linked := by
  cases entry with
  | none => exact ht
  | some e =>
      have hheader := header?_saveHeader ht client e.record
      have hsaved : (t.saveHeader client e.record).2.Linked := ht.saveHeader
      exact hsaved.saveLines hheader rfl (saveLines_of_header? hheader)

theorem header?_enter (ht : t.Linked) : (t.enter client (some e)).header? id =
    if id = t.headers.length + 1 then some ⟨id, client, e.record⟩ else t.header? id := by
  split
  · rename_i hid
    rw [hid]
    exact header?_saveHeader ht client e.record
  · rename_i hid
    have hne : (t.headers.length + 1 == id) = false := beq_false_of_ne (Ne.symm hid)
    simp [header?, RecordTable.enter, List.find?_append, hne]

theorem linesOf_enter (ht : t.Linked) : (t.enter client (some e)).linesOf id =
    if id = t.headers.length + 1 then e.lines.map (⟨id, client, ·⟩) else t.linesOf id := by
  simp only [linesOf, RecordTable.enter, List.filter_append]
  split
  · rename_i hid
    -- no line has the next number
    have hold : t.lines.filter (·.headerId == id) = [] := by
      rw [List.filter_eq_nil_iff]
      intro line hline hheader
      obtain ⟨h, hfound, _⟩ := ht.linked line hline
      have hh : h.id = line.headerId := by simpa using List.find?_some hfound
      refine ht.fresh (List.mem_of_find?_eq_some hfound) ?_
      rw [hh, ← hid]
      simpa using hheader
    rw [hold, List.nil_append, List.filter_eq_self.2, hid]
    intro line hline
    obtain ⟨_, _, rfl⟩ := List.mem_map.1 hline
    simp [hid]
  · rename_i hid
    have hnew : (e.lines.map fun r => StoredLine.mk (t.headers.length + 1) client r).filter
        (·.headerId == id) = [] := by
      rw [List.filter_eq_nil_iff]
      intro line hline
      obtain ⟨_, _, rfl⟩ := List.mem_map.1 hline
      simpa using Ne.symm hid
    rw [hnew, List.append_nil]

end RecordTable

/-- Tables with the entry of a client. -/
def Store.enter (s : Store H L) (client : String) (entry : Option (Entry H L)) : Store H L :=
  { s with records := s.records.enter client entry }

namespace Engine.Strategy

open Xml (Document)

variable {st : Strategy H L} {faults : Faults H L} {client : String} {octets : Text.Utf8.Octets}

/-- The lines that are stored behind a header: none if a setter breaks down or they are refused. -/
def storedLines (st : Strategy H L) (client : String) (d : Document)
    (refusal : List L → Option StoreError) : List L :=
  match st.linesOf client d with
  | .error _ => []
  | .ok lines =>
    let kept := st.keptLines ⟨lines, st.groupErrors client⟩
    if (refusal kept).isSome then [] else kept

/-- How a run ends whose header is stored: its lines may meet a refusal if there are any. -/
def endingOf (st : Strategy H L) (client : String) (d : Document)
    (refusal : List L → Option StoreError) : Ending :=
  match st.linesOf client d with
  | .error crash => .stopped crash.message
  | .ok lines =>
    let kept := st.keptLines ⟨lines, st.groupErrors client⟩
    match if kept.isEmpty then none else refusal kept with
    | some e => .stopped e.description
    | none => .finished (errorLog (st.headerErrors client d) ⟨lines, st.groupErrors client⟩)

/-- A run of a header that is stored stores its lines behind it. How it ends depends on the refusals that it
meets, not on what the tables hold. -/
theorem runs_endingOf {d : Document} {record : H} {s : Store H L} (hparse : Document.parse octets = .ok d)
    (hheader : st.headerOf client d = .ok record) (hfault : faults (.saveHeader client record) = none)
    {refusal : List L → Option StoreError} (hs : s.records.Linked)
    (hrefusal : ∀ lines,
      faults (.saveLines (s.records.headers.length + 1) client lines) = refusal lines) :
    st.Runs (Store.storage.failing faults) client octets s (st.endingOf client d refusal)
      (s.enter client (some ⟨record, st.storedLines client d refusal⟩)) := by
  have hsave : (Store.storage.failing faults).saveHeader client record s =
      .ok (s.records.headers.length + 1, s.enter client (some ⟨record, []⟩)) := by
    rw [Store.enter, RecordTable.enter_nil]
    exact Store.saveHeader_eq_ok.2 ⟨hfault, rfl, rfl⟩
  have hsaved : (s.enter client (some ⟨record, []⟩)).records.header? (s.records.headers.length + 1) =
      some ⟨s.records.headers.length + 1, client, record⟩ := by
    rw [Store.enter, RecordTable.header?_enter hs, if_pos rfl]
  unfold storedLines endingOf
  cases hlines : st.linesOf client d with
  | error crash => exact .lineCrash hparse hheader hsave hlines
  | ok lines =>
      by_cases hkept : st.keptLines ⟨lines, st.groupErrors client⟩ = []
      · simp only [hkept, ite_self, List.isEmpty_nil, if_true]
        exact .noLines hparse hheader hsave hlines hkept
      · have hempty : (st.keptLines ⟨lines, st.groupErrors client⟩).isEmpty = false := by
          simpa using hkept
        cases hrefused : refusal (st.keptLines ⟨lines, st.groupErrors client⟩) with
        | some e =>
            simp only [hrefused, hempty, Option.isSome_some, Bool.false_eq_true, if_true, if_false]
            refine .linesRefused hparse hheader hsave hlines hkept ?_
            rw [Store.saveLines_eq_error hsaved, hrefusal, hrefused]
        | none =>
            simp only [hrefused, hempty, Option.isSome_none, Bool.false_eq_true, if_false]
            refine .complete hparse hheader hsave hlines hkept ?_
            rw [Store.saveLines_eq_ok hsaved, hrefusal]
            refine ⟨hrefused, ?_⟩
            simp [Store.enter, RecordTable.enter]

/-- On all tables on which it meets the same refusals, a run comes to the same and stores the same. -/
theorem exists_entry (st : Strategy H L) (faults : Faults H L) (client : String)
    (octets : Text.Utf8.Octets) (refusal : List L → Option StoreError) :
    ∃ e entry, ∀ s : Store H L, s.records.Linked →
      (∀ lines, faults (.saveLines (s.records.headers.length + 1) client lines) = refusal lines) →
      st.Runs (Store.storage.failing faults) client octets s e (s.enter client entry) := by
  cases hparse : Document.parse octets with
  | error m => exact ⟨_, none, fun s _ _ => .malformed hparse⟩
  | ok d =>
      cases hheader : st.headerOf client d with
      | error crash => exact ⟨_, none, fun s _ _ => .headerCrash hparse hheader⟩
      | ok record =>
          cases hfault : faults (.saveHeader client record) with
          | some e =>
              exact ⟨_, none, fun s _ _ =>
                .headerRefused hparse hheader (Store.saveHeader_eq_error.2 hfault)⟩
          | none => exact ⟨_, _, fun s hs hrefusal => runs_endingOf hparse hheader hfault hs hrefusal⟩

end Engine.Strategy

end Interchange
