import Interchange.Engine.Notices
import Interchange.Proofs.Deeds
import Interchange.Proofs.Records

/-!
# Policies for lines

What becomes of lines with errors is all that a policy decides. As long as no lines are refused, calls answer
the same under either policy and store the same headers, and a header has under `drop` those of its lines
under `keep` that have no errors (`Engine.policies_of_history`).
-/

namespace Interchange

open Text.Utf8 (Octets)
open Xml (Document)

variable {H L : Type}

/-- Faults that refuse no lines. -/
def Faults.SaveLines (faults : Faults H L) : Prop :=
  ∀ id client records, faults (.saveLines id client records) = none

namespace Engine

/-! ## What is bound -/

/-- A header and all the lines of a document, before a policy is applied. -/
structure Draft (H L : Type) where
  record : H
  lines : List (BoundLine L)

/-- What a policy keeps of a draft. -/
def Draft.entry (p : LinePolicy) (x : Draft H L) : Entry H L := ⟨x.record, p.kept x.lines⟩

namespace Strategy

/-- The strategy with another policy for lines. -/
def withPolicy (st : Strategy H L) (p : LinePolicy) : Strategy H L :=
  { st with settings := { st.settings with linePolicy := p } }

/-- The lines of a document; none if a setter breaks down. -/
def boundLines (st : Strategy H L) (client : String) (d : Document) : List (BoundLine L) :=
  match bindLines st.transforms st.line d (st.rules client st.settings.lineTable) with
  | .ok binding => binding.lines
  | .error _ => []

variable {st : Strategy H L} {p : LinePolicy} {client : String} {d : Document} {faults : Faults H L}
  {octets : Octets} {e : Ending} {a : Attempt}

theorem boundLines_eq : st.boundLines client d =
    match st.linesOf client d with
    | .ok lines => lines
    | .error _ => [] := by
  rw [boundLines, bindLines_eq_linesOf]
  cases st.linesOf client d <;> rfl

theorem storedLines_withPolicy : (st.withPolicy p).storedLines client d (fun _ => none) =
    p.kept (st.boundLines client d) := by
  have hsame : (st.withPolicy p).linesOf client d = st.linesOf client d := rfl
  rw [boundLines_eq, storedLines, hsame]
  cases st.linesOf client d with
  | error crash => cases p <;> rfl
  | ok lines =>
      simp only [Option.isSome_none, Bool.false_eq_true, if_false]
      exact keptLines_eq _ _ _

/-- Without refusals the policy makes no difference to how a run ends. -/
theorem endingOf_withPolicy :
    (st.withPolicy p).endingOf client d (fun _ => none) = st.endingOf client d fun _ => none := by
  have hsame : (st.withPolicy p).linesOf client d = st.linesOf client d := rfl
  rw [endingOf, endingOf, hsame]
  cases st.linesOf client d with
  | error crash => rfl
  | ok lines =>
      simp only [ite_self]
      rfl

theorem close_withPolicy : e.close (st.withPolicy p) a = e.close st a := by
  cases e with
  | stopped cause => rfl
  | finished log => rfl

/-- A run binds the same under every policy and ends the same; what it stores is what the policy keeps. -/
theorem exists_draft (st : Strategy H L) (client : String) (octets : Octets) (hfaults : faults.SaveLines) :
    ∃ (e : Ending) (draft : Option (Draft H L)),
      (∀ x ∈ draft, ∃ d, Document.parse octets = .ok d ∧ x.lines = st.boundLines client d) ∧
      ∀ p (s : Store H L), s.records.Linked →
        (st.withPolicy p).Runs (Store.storage.failing faults) client octets s e
          (s.enter client (draft.map (Draft.entry p))) := by
  cases hparse : Document.parse octets with
  | error m => exact ⟨_, none, by simp, fun p s _ => .malformed hparse⟩
  | ok d =>
      cases hheader : st.headerOf client d with
      | error crash => exact ⟨_, none, by simp, fun p s _ => .headerCrash hparse hheader⟩
      | ok record =>
          cases hfault : faults (.saveHeader client record) with
          | some e =>
              exact ⟨_, none, by simp, fun p s _ =>
                .headerRefused hparse hheader (Store.saveHeader_eq_error.2 hfault)⟩
          | none =>
              refine ⟨st.endingOf client d fun _ => none, some ⟨record, st.boundLines client d⟩,
                by simp, fun p s hs => ?_⟩
              have hkept : (st.withPolicy p).headerOf client d = .ok record := hheader
              have hruns := runs_endingOf hparse hkept hfault hs fun lines => hfaults _ client lines
              rw [endingOf_withPolicy, storedLines_withPolicy] at hruns
              exact hruns

end Strategy

/-! ## One call -/

namespace Call

/-- The call to the engine with another policy for lines. -/
def withPolicy (c : Call H L) (p : LinePolicy) : Call H L :=
  { c with strategy := c.strategy.withPolicy p }

/-- The lines of the document of a call; none if it cannot be read. -/
def boundLines (c : Call H L) : List (BoundLine L) :=
  match Document.parse c.document.octets with
  | .ok d => c.strategy.boundLines c.interface.client d
  | .error _ => []

variable {c : Call H L} {p : LinePolicy} {e : Strategy.Ending} {a : Attempt}

/-- The attempt that a call opens, and the attempts then. -/
def openedIn (c : Call H L) (rows : AttemptTable) : Except StoreError (Attempt × AttemptTable) :=
  (c.opened ⟨rows, .empty⟩).map fun (a, t) => (a, t.attempts)

/-- Records make no difference to opening, nor does opening make one to them. -/
theorem opened_eq (c : Call H L) (s : Store H L) :
    c.opened s = (c.openedIn s.attempts).map fun (a, rows) => (a, { s with attempts := rows }) := by
  simp only [openedIn, opened, Strategy.start, storage, Storage.failing, Store.storage, Faults.guard]
  cases c.faults (.find c.document.filename c.interface.id) with
  | some cause => rfl
  | none =>
      cases s.attempts.find c.document.filename c.interface.id with
      | some a => rfl
      | none =>
          simp only
          cases c.faults (.create (.new c.document.filename c.interface.id c.interface.client)) <;> rfl

theorem update_eq (c : Call H L) (a : Attempt) (s : Store H L) : c.storage.update a s =
    (c.faults.guard (.update a) ((s.attempts.update a).mapError (·.error))).map
      fun rows => { s with attempts := rows } := by
  simp only [storage, Storage.failing, Store.storage, Faults.guard]
  cases c.faults (.update a) with
  | some e => rfl
  | none => cases s.attempts.update a <;> rfl

theorem ended_withPolicy : (c.withPolicy p).ended e a = c.ended e a := Strategy.close_withPolicy

/-- By the attempts it is settled what a call answers, what attempts it leaves behind, and what it binds,
whatever the policy. -/
theorem exists_draft (c : Call H L) (hfaults : c.faults.SaveLines) (rows : AttemptTable) :
    ∃ (x : Except EngineError Attempt) (behind : AttemptTable) (draft : Option (Draft H L)),
      (∀ y ∈ draft, y.lines = c.boundLines) ∧
      ∀ p (s : Store H L), s.records.Linked → s.attempts = rows →
        (c.withPolicy p).answer s =
          (x, ⟨behind, s.records.enter c.interface.client (draft.map (Draft.entry p))⟩) := by
  have hopened : ∀ p (s : Store H L), s.attempts = rows → (c.withPolicy p).opened s =
      (c.openedIn rows).map fun (a, behind) => (a, { s with attempts := behind }) := by
    rintro p s rfl
    exact c.opened_eq s
  cases hopen : c.openedIn rows with
  | error cause =>
      have hnot : ∀ p (s : Store H L), s.attempts = rows → (c.withPolicy p).opened s = .error cause :=
        fun p s hs => by rw [hopened p s hs, hopen]; rfl
      obtain ⟨failed, hfailed⟩ : ∃ b, c.strategy.critical c.document.filename c.interface cause = b := ⟨_, rfl⟩
      cases hfault : c.faults (.create failed) with
      | some e =>
          refine ⟨.error (.store e), rows, none, by simp, fun p s _ hs => ?_⟩
          subst hfailed hs
          exact answer_of_unrecorded (hnot p s rfl) (Store.create_eq_error.2 hfault)
      | none =>
          refine ⟨.ok { failed with id := some (rows.create failed).1 }, (rows.create failed).2, none, by simp,
            fun p s _ hs => ?_⟩
          subst hfailed hs
          exact answer_of_recorded (hnot p s rfl) (Store.create_eq_ok.2 ⟨hfault, rfl, rfl⟩)
  | ok opened =>
      obtain ⟨a, opened⟩ := opened
      have hok : ∀ p (s : Store H L), s.attempts = rows →
          (c.withPolicy p).opened s = .ok (a, { s with attempts := opened }) :=
        fun p s hs => by rw [hopened p s hs, hopen]; rfl
      obtain ⟨e, draft, hdraft, hruns⟩ :=
        c.strategy.exists_draft c.interface.client c.document.octets hfaults
      have hlines : ∀ y ∈ draft, y.lines = c.boundLines := by
        intro y hy
        obtain ⟨d, hparse, hbound⟩ := hdraft y hy
        rw [hbound, boundLines, hparse]
      cases hupdate : c.faults.guard (.update (c.ended e a))
          ((opened.update (c.ended e a)).mapError (·.error)) with
      | error x =>
          refine ⟨.error (.store x), opened, draft, hlines, fun p s hs hrows => ?_⟩
          refine answer_of_lost (hok p s hrows) (hruns p _ hs) ?_
          rw [ended_withPolicy]
          exact (c.update_eq (c.ended e a) _).trans (congrArg _ hupdate)
      | ok behind =>
          refine ⟨.ok (c.ended e a), behind, draft, hlines, fun p s hs hrows => ?_⟩
          rw [answer_of_closed (v := ⟨behind, s.records.enter c.interface.client
            (draft.map (Draft.entry p))⟩) (hok p s hrows) (hruns p _ hs), ended_withPolicy]
          rw [ended_withPolicy]
          exact (c.update_eq (c.ended e a) _).trans (congrArg _ hupdate)

end Call

/-! ## All calls of a history -/

/-- The tables behind calls to an engine with a policy. -/
def storeUnder (p : LinePolicy) (history : List (Call H L)) : Store H L :=
  storeAfter (history.map (·.withPolicy p))

theorem storeUnder_concat (p : LinePolicy) (history : List (Call H L)) (c : Call H L) :
    storeUnder p (history ++ [c]) = ((c.withPolicy p).answer (storeUnder p history)).2 := by
  rw [storeUnder, List.map_append]
  exact storeAfter_concat _ _

theorem storeUnder_linked (p : LinePolicy) (history : List (Call H L)) :
    (storeUnder p history).records.Linked := storeAfter_linked _

/-- Under all policies the attempts and the headers are the same. -/
theorem storeUnder_eq {history : List (Call H L)} (hsaved : ∀ c ∈ history, c.faults.SaveLines)
    (p q : LinePolicy) : (storeUnder p history).attempts = (storeUnder q history).attempts ∧
      (storeUnder p history).records.headers = (storeUnder q history).records.headers := by
  induction history using List.reverseRecOn with
  | nil => exact ⟨rfl, rfl⟩
  | append_singleton history c ih =>
      obtain ⟨hrows, hheaders⟩ := ih fun d hd => hsaved d (List.mem_append_left _ hd)
      obtain ⟨x, behind, draft, _, hanswer⟩ := c.exists_draft (hsaved c (by simp)) (storeUnder q history).attempts
      rw [storeUnder_concat, storeUnder_concat, hanswer p _ (storeUnder_linked p history) hrows,
        hanswer q _ (storeUnder_linked q history) rfl]
      refine ⟨rfl, ?_⟩
      cases draft with
      | none => exact hheaders
      | some y => simp [RecordTable.enter, Draft.entry, hheaders]

/-- The call `c` behind the calls `before` stores the header `h`. -/
def Stores (before : List (Call H L)) (c : Call H L) (h : StoredHeader H) : Prop :=
  ∀ p, (storeUnder p (before ++ [c])).records.headers = (storeUnder p before).records.headers ++ [h]

/-- Under every policy a header has the lines that the policy keeps of those that the call which stored it
has bound. -/
theorem exists_stores {history : List (Call H L)} (hsaved : ∀ c ∈ history, c.faults.SaveLines)
    {p : LinePolicy} {h : StoredHeader H} (hh : h ∈ (storeUnder p history).records.headers) :
    ∃ before c rest, history = before ++ c :: rest ∧ Stores before c h ∧
      ∀ q, (storeUnder q history).records.linesOf h.id =
        (q.kept c.boundLines).map (⟨h.id, h.clientId, ·⟩) := by
  induction history using List.reverseRecOn with
  | nil => cases hh
  | append_singleton history c ih =>
      have hold := fun d hd => hsaved d (List.mem_append_left [c] hd)
      obtain ⟨x, behind, draft, hdraft, hanswer⟩ :=
        c.exists_draft (hsaved c (by simp)) (storeUnder p history).attempts
      have hrecords : ∀ q, (storeUnder q (history ++ [c])).records =
          (storeUnder q history).records.enter c.interface.client (draft.map (Draft.entry q)) := by
        intro q
        rw [storeUnder_concat, hanswer q _ (storeUnder_linked q history) (storeUnder_eq hold q p).1]
      have hbefore : h ∈ (storeUnder p history).records.headers →
          (∀ q, (storeUnder q (history ++ [c])).records.linesOf h.id =
            (storeUnder q history).records.linesOf h.id) →
          ∃ before d rest, history ++ [c] = before ++ d :: rest ∧ Stores before d h ∧
            ∀ q, (storeUnder q (history ++ [c])).records.linesOf h.id =
              (q.kept d.boundLines).map (⟨h.id, h.clientId, ·⟩) := by
        intro hmem hsame
        obtain ⟨before, d, rest, rfl, hstores, hlines⟩ := ih hold hmem
        exact ⟨before, d, rest ++ [c], by simp, hstores, fun q => by rw [hsame, hlines]⟩
      cases draft with
      | none =>
          rw [hrecords p] at hh
          exact hbefore hh fun q => by rw [hrecords q]; rfl
      | some y =>
          have hlength : ∀ q, (storeUnder q history).records.headers.length =
              (storeUnder p history).records.headers.length := fun q => by rw [(storeUnder_eq hold q p).2]
          rw [hrecords p] at hh
          rcases List.mem_append.1 hh with hmem | hnew
          · have hid := (storeUnder_linked p history).fresh hmem
            refine hbefore hmem fun q => ?_
            rw [hrecords q, Option.map_some, RecordTable.linesOf_enter (storeUnder_linked q history), hlength q,
              if_neg hid]
          · rw [List.mem_singleton.1 hnew]
            refine ⟨history, c, [], rfl, fun q => ?_, fun q => ?_⟩
            · rw [hrecords q]
              simp [RecordTable.enter, Draft.entry, hlength q]
            · rw [hrecords q, Option.map_some, RecordTable.linesOf_enter (storeUnder_linked q history), hlength q,
                if_pos rfl]
              simp only [Draft.entry, hdraft y rfl]

/-- Two engines that differ in their policy for lines get the same calls, of which none has its lines
refused. Each call gets the same answer from both, and both hold the same attempts and the same headers. For
each header one engine holds the lines that the call which stored it has bound from its document, and the
other those of them, in the same order, that have no errors. -/
theorem policies_of_history (history : List (Call H L)) (hsaved : ∀ c ∈ history, c.faults.SaveLines) :
    let dropping := storeUnder (H := H) (L := L) .drop
    let keeping := storeUnder (H := H) (L := L) .keep
    (∀ before c rest, history = before ++ c :: rest →
      ((c.withPolicy .drop).answer (dropping before)).1 = ((c.withPolicy .keep).answer (keeping before)).1) ∧
    (dropping history).attempts = (keeping history).attempts ∧
    (dropping history).records.headers = (keeping history).records.headers ∧
    ∀ h ∈ (keeping history).records.headers, ∃ before c rest, history = before ++ c :: rest ∧
      Stores before c h ∧
      (keeping history).records.linesOf h.id = c.boundLines.map (⟨h.id, h.clientId, ·.record⟩) ∧
      (dropping history).records.linesOf h.id =
        (c.boundLines.filter (·.isClean)).map (⟨h.id, h.clientId, ·.record⟩) := by
  intro dropping keeping
  obtain ⟨hrows, hheaders⟩ := storeUnder_eq hsaved .drop .keep
  refine ⟨fun before c rest hsplit => ?_, hrows, hheaders, fun h hh => ?_⟩
  · have hbefore : ∀ d ∈ before, d.faults.SaveLines := fun d hd => hsaved d (by simp [hsplit, hd])
    obtain ⟨x, behind, draft, _, hanswer⟩ :=
      c.exists_draft (hsaved c (by simp [hsplit])) (keeping before).attempts
    rw [hanswer .drop _ (storeUnder_linked _ _) (storeUnder_eq hbefore .drop .keep).1,
      hanswer .keep _ (storeUnder_linked _ _) rfl]
  · obtain ⟨before, c, rest, hsplit, hstores, hlines⟩ := exists_stores hsaved hh
    refine ⟨before, c, rest, hsplit, hstores, ?_, ?_⟩
    · rw [hlines .keep]
      simp [LinePolicy.kept]
    · rw [hlines .drop]
      simp [LinePolicy.kept]

theorem policies_of_history_notice :
    let rules : RuleSource := fun _ table =>
      if table = ShippingNotice.lineTable then
        [{ Rule.new table "/ASN/Line/@item" "item_name" with required := true }]
      else []
    let octets := Text.Utf8.encodeText "<ASN><Line item='a'/><Line/><Line item='b'/></ASN>"
    let c : Call _ _ := ⟨noticeStrategy "2024-03-01" rules, .ofDown [.update], ⟨"a.xml", octets⟩,
      .new "7" "ACME" "notices" "ASN"⟩
    let dropping := storeUnder .drop [c, c]
    let keeping := storeUnder .keep [c, c]
    (∀ d ∈ [c, c], d.faults.SaveLines) ∧
      (dropping.records.linesOf 2).map (·.record.itemName) = [some "a", some "b"] ∧
      (keeping.records.linesOf 2).map (·.record.itemName) = [some "a", none, some "b"] ∧
      dropping.attempts = keeping.attempts ∧ dropping.records.headers = keeping.records.headers := by
  intro rules octets c dropping keeping
  have hsaved : ∀ d ∈ [c, c], d.faults.SaveLines := by
    simp only [List.mem_cons, List.not_mem_nil, or_false, or_self, forall_eq]
    exact fun _ _ _ => rfl
  obtain ⟨_, hattempts, hheaders, _⟩ := policies_of_history [c, c] hsaved
  exact ⟨hsaved, by decide +kernel, by decide +kernel, hattempts, hheaders⟩

end Engine

end Interchange
