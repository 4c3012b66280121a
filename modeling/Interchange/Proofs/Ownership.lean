import Interchange.Engine.Notices
import Interchange.Proofs.Entries
import Interchange.Proofs.Records
import Interchange.Proofs.Uniqueness

/-!
# Clients of attempts and records

An attempt belongs to the client of the call that put it in, and keeps it when it is opened again; headers
and lines belong to the client of the call that stores them (`Engine.clients_of_history`). The two agree as
long as a file and an interface are those of one client.
-/

namespace Interchange

/-- What an attempt keeps when it is opened again and closed: its number, its key and its client. -/
def Attempt.identity (a : Attempt) : Option Nat × (String × String) × String :=
  (a.id, a.key, a.clientId)

namespace Engine

variable {H L : Type}

theorem Strategy.Ending.close_identity {e : Strategy.Ending} {st : Strategy H L} {a : Attempt} :
    (e.close st a).identity = a.identity := by
  obtain ⟨_, _, hclose⟩ := e.exists_close st a
  rw [hclose]
  rfl

namespace Call

/-! ## One call -/

variable {c : Call H L} {s t : Store H L} {a b : Attempt} {i : Nat}

/-- An attempt goes back to the one of its key, or it is new and of the client of the call. -/
def Origin (c : Call H L) (s : Store H L) (b : Attempt) : Prop :=
  (∃ a, s.attempts.find c.document.filename c.interface.id = some a ∧ b.identity = a.identity) ∨
    b.identity = (some (s.attempts.rows.length + 1), c.key, c.interface.client)

theorem origin_of_opened (h : c.opened s = .ok (a, t)) : c.Origin s a := by
  rcases Strategy.start_cases h with ⟨b, hfound, rfl, _⟩ | ⟨_, rfl, _⟩
  · exact Or.inl ⟨b, hfound, rfl⟩
  · exact Or.inr rfl

theorem origin_of_answer (h : (c.answer s).1 = .ok b) : c.Origin s b := by
  have hcourse : c.strategy.Course c.storage c.document c.interface s (c.answer s).1 (c.answer s).2 :=
    Strategy.process_course _ _ _ _ _
  rw [h] at hcourse
  cases hcourse with
  | @closed a b t u _ hopen hrun _ =>
      obtain ⟨e, v, hruns⟩ := Strategy.exists_runs c.strategy c.storage c.interface.client
        c.document.octets t
      rw [hruns.run_eq (Strategy.start_open hopen).content] at hrun
      obtain ⟨rfl, _⟩ := Prod.mk.inj hrun
      have hsame : (e.close c.strategy
          { a with content := Strategy.contentOf c.document.octets }).identity = a.identity :=
        Strategy.Ending.close_identity
      rw [Origin, hsame]
      exact origin_of_opened hopen
  | recorded hopen hcreate =>
      obtain ⟨_, rfl, _⟩ := Store.create_eq_ok.1 hcreate
      exact Or.inr rfl

/-- An attempt behind a call has the key and the client of the one that stood at its number; a new one has
those of the call. -/
theorem identity_of_row (hs : s.attempts.Numbered) (hb : (c.answer s).2.attempts.get? i = some b) :
    (∃ a, s.attempts.get? i = some a ∧ b.identity = a.identity) ∨
      s.attempts.get? i = none ∧ b.key = c.key ∧ b.clientId = c.interface.client := by
  have hid : b.id = some i := answer_numbered hs i b hb
  have horigin : s.attempts.get? i = some b ∨ c.Origin s b := by
    rcases row_cases hs hb with hold | hanswer | ⟨t, hopen⟩
    · exact Or.inl hold
    · exact Or.inr (origin_of_answer hanswer)
    · exact Or.inr (origin_of_opened hopen)
  rcases horigin with hold | ⟨a, hfound, hsame⟩ | hnew
  · exact Or.inl ⟨b, hold, rfl⟩
  · obtain ⟨n, hn, ha, _⟩ := hs.find hfound
    have hnumber : b.id = a.id := congrArg (·.1) hsame
    have hin : i = n := Option.some.inj (hid.symm.trans (hnumber.trans hn))
    exact Or.inl ⟨a, hin ▸ ha, hsame⟩
  · obtain ⟨hnumber, hrest⟩ := Prod.mk.inj hnew
    obtain ⟨hkey, hclient⟩ := Prod.mk.inj hrest
    have hi : i = s.attempts.rows.length + 1 := Option.some.inj (hid.symm.trans hnumber)
    refine Or.inr ⟨?_, hkey, hclient⟩
    rw [hi, AttemptTable.get?, List.getElem?_eq_none (Nat.le_refl _)]

theorem row_of_answer (hs : s.attempts.Numbered) (h : (c.answer s).1 = .ok b) :
    ∃ i, b.id = some i ∧ (c.answer s).2.attempts.get? i = some b := by
  have heffect := c.effect hs
  rw [h] at heffect
  generalize (c.answer s).2.attempts = rows at heffect ⊢
  cases heffect with
  | closed _ _ _ hplaced hrow | recorded _ _ hplaced hrow => exact ⟨_, hplaced.id, hrow⟩

theorem key_of_answer (hs : s.attempts.Numbered) (h : (c.answer s).1 = .ok b) : b.key = c.key := by
  rcases origin_of_answer h with ⟨a, hfound, hsame⟩ | hnew
  · obtain ⟨_, _, _, hfile, hinterface⟩ := hs.find hfound
    have hkey : b.key = a.key := congrArg (·.2.1) hsame
    exact hkey.trans (Prod.ext hfile hinterface)
  · exact congrArg (·.2.1) hnew

/-- A call stores at most one entry, and that for its own client. -/
theorem exists_entry (c : Call H L) (hs : s.records.Linked) :
    ∃ entry, (c.answer s).2.records = s.records.enter c.interface.client entry := by
  cases hopen : c.opened s with
  | error cause => exact ⟨none, records_of_not_opened hopen⟩
  | ok opened =>
      obtain ⟨a, t⟩ := opened
      obtain ⟨e, entry, hruns⟩ := Strategy.exists_entry c.strategy c.faults c.interface.client
        c.document.octets fun lines =>
          c.faults (.saveLines (t.records.headers.length + 1) c.interface.client lines)
      have ht : t.records = s.records := Strategy.start_records hopen
      refine ⟨entry, ?_⟩
      rw [records_of_opened hopen (hruns t (ht ▸ hs) fun _ => rfl), Store.enter, ht]

end Call

/-! ## All calls of a history -/

/-- The call that put in the attempt of number `i`. -/
def PutsIn (history : List (Call H L)) (i : Nat) (d : Call H L) : Prop :=
  ∃ before rest, history = before ++ d :: rest ∧ (storeAfter before).attempts.get? i = none ∧
    ((storeAfter (before ++ [d])).attempts.get? i).isSome

theorem PutsIn.mem {history : List (Call H L)} {d : Call H L} {i : Nat} (h : PutsIn history i d) :
    d ∈ history := by
  obtain ⟨before, rest, rfl, _⟩ := h
  simp

/-- Every attempt has the key and the client of the call that put it in. -/
theorem exists_putsIn (history : List (Call H L)) {i : Nat} {a : Attempt}
    (hi : (storeAfter history).attempts.get? i = some a) :
    ∃ d, PutsIn history i d ∧ a.key = d.key ∧ a.clientId = d.interface.client := by
  induction history using List.reverseRecOn generalizing a with
  | nil => cases i <;> cases hi
  | append_singleton history c ih =>
      have hrow := hi
      rw [storeAfter_concat] at hrow
      rcases Call.identity_of_row (storeAfter_numbered history) hrow with ⟨b, hb, hsame⟩ | ⟨hnone, hown⟩
      · obtain ⟨d, ⟨before, rest, rfl, hput⟩, hkey, hclient⟩ := ih hb
        refine ⟨d, ⟨before, rest ++ [c], by simp, hput⟩, ?_, ?_⟩
        · exact (congrArg (·.2.1) hsame).trans hkey
        · exact (congrArg (·.2.2) hsame).trans hclient
      · exact ⟨c, ⟨history, [], rfl, hnone, by rw [hi]; rfl⟩, hown⟩

/-- Behind every history: an attempt that a call answers with is the one that is stored at its number, and it
has the client of the call that put it in, a call for the same file and interface. That is the client of the
call that answers if all earlier calls for the file and the interface were made for that client. Headers
and lines that a call stores have the client of the call. -/
theorem clients_of_history (history : List (Call H L)) (c : Call H L) :
    let s := storeAfter history
    let v := storeAfter (history ++ [c])
    (∀ b, (c.answer s).1 = .ok b → ∃ i d, b.id = some i ∧ v.attempts.get? i = some b ∧
      PutsIn (history ++ [c]) i d ∧ d.key = c.key ∧ b.clientId = d.interface.client) ∧
    (∀ b, (c.answer s).1 = .ok b →
      (∀ d ∈ history, d.key = c.key → d.interface.client = c.interface.client) →
      b.clientId = c.interface.client) ∧
    ∃ headers lines, v.records.headers = s.records.headers ++ headers ∧
      v.records.lines = s.records.lines ++ lines ∧
      (∀ h ∈ headers, h.clientId = c.interface.client) ∧
      ∀ line ∈ lines, line.clientId = c.interface.client := by
  intro s v
  have hs : s.attempts.Numbered := storeAfter_numbered history
  have hv : v = (c.answer s).2 := storeAfter_concat history c
  have hputsIn : ∀ b, (c.answer s).1 = .ok b → ∃ i d, b.id = some i ∧ v.attempts.get? i = some b ∧
      PutsIn (history ++ [c]) i d ∧ d.key = c.key ∧ b.clientId = d.interface.client := by
    intro b hb
    obtain ⟨i, hid, hrow⟩ := Call.row_of_answer hs hb
    rw [← hv] at hrow
    obtain ⟨d, hput, hkey, hclient⟩ := exists_putsIn (history ++ [c]) hrow
    exact ⟨i, d, hid, hrow, hput, hkey.symm.trans (Call.key_of_answer hs hb), hclient⟩
  refine ⟨hputsIn, fun b hb hsame => ?_, ?_⟩
  · obtain ⟨i, d, _, _, hput, hkey, hclient⟩ := hputsIn b hb
    rcases List.mem_append.1 hput.mem with hd | hd
    · rw [hclient, hsame d hd hkey]
    · rw [hclient, List.mem_singleton.1 hd]
  · obtain ⟨entry, hentry⟩ := c.exists_entry (storeAfter_linked history)
    rw [hv, hentry]
    exact RecordTable.enter_appends _ _ _

/-- Two calls for one file and one number of an interface, but for two clients: the second answers with an
attempt of the first client, and stores a header of its own. -/
theorem client_of_reopened_attempt :
    let strategy := noticeStrategy "2024-05-01" fun _ _ => []
    let document : Inbound := ⟨"a.xml", Text.Utf8.encode ['<', 'A', '/', '>']⟩
    let first : Call _ _ := ⟨strategy, fun _ => none, document, .new "7" "ACME" "Notices" "ASN"⟩
    let second : Call _ _ := ⟨strategy, fun _ => none, document, .new "7" "GLOBEX" "Notices" "ASN"⟩
    ∃ b h, (second.answer (storeAfter [first])).1 = .ok b ∧ b.clientId ≠ second.interface.client ∧
      (storeAfter [first, second]).records.header? 2 = some h ∧
      h.clientId = second.interface.client := by
  intro strategy document first second
  have hanswer : (second.answer (storeAfter [first])).1.map (·.clientId) = .ok "ACME" := by
    decide +kernel
  have hheader : ((storeAfter [first, second]).records.header? 2).map (·.clientId) =
      some "GLOBEX" := by
    decide +kernel
  obtain ⟨b, hb, hacme⟩ := map_eq_ok hanswer
  obtain ⟨h, hh, hglobex⟩ := Option.map_eq_some_iff.1 hheader
  refine ⟨b, h, hb, ?_, hh, hglobex⟩
  rw [← hacme]
  decide

end Engine

end Interchange
