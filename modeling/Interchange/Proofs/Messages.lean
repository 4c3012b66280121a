import Interchange.Engine.Notices
import Interchange.Proofs.History

/-!
# Messages under their limit

An attempt that ends in an error keeps one message: why it could not be opened, what stopped its run, or the
errors that its run met. The message is kept whole if the limit has room for it and is cut to a front and
three points otherwise (`Engine.messages_of_history`). The points are not cut, so that a limit below three
is no bound (`Engine.message_beyond_limit`).
-/

namespace Interchange

/-- How a message is kept under a limit in characters. -/
structure Fitted (limit : Nat) (full kept : String) : Prop where
  whole : full.length ≤ limit → kept = full
  cut : limit < full.length →
    ∃ front : String, front.toList <+: full.toList ∧ front.length = limit - 3 ∧ kept = front ++ "..."
  length_le_iff : kept.length ≤ limit ↔ full.length ≤ limit ∨ 3 ≤ limit

theorem exists_front_of_lt {message : String} {limit : Nat} (h : limit < message.length) :
    ∃ front : String, front.toList <+: message.toList ∧ front.length = limit - 3 ∧
      truncateMessage message limit = front ++ "..." := by
  have hlt : limit < message.toList.length := h
  refine ⟨.ofList (message.toList.take (limit - 3)), ?_, ?_, ?_⟩
  · rw [String.toList_ofList]
    exact List.take_prefix _ _
  · rw [String.length_ofList, List.length_take]
    omega
  · rw [truncateMessage, truncateChars, if_neg (by omega), String.ofList_append]

theorem fitted_truncateMessage (message : String) (limit : Nat) :
    Fitted limit message (truncateMessage message limit) where
  whole h := truncateMessage_of_le h
  cut := exists_front_of_lt
  length_le_iff := by
    by_cases h : message.length ≤ limit
    · rw [truncateMessage_of_le h]
      exact iff_of_true h (Or.inl h)
    · obtain ⟨front, _, hlength, hcut⟩ := exists_front_of_lt (Nat.lt_of_not_le h)
      have hpoints : "...".length = 3 := rfl
      rw [hcut, String.length_append, hlength, hpoints]
      omega

namespace Engine

variable {H L : Type}

namespace Call

/-- The full messages that a call has for its attempt: it cannot be opened, its run is stopped, or its run
comes to its end with errors. -/
inductive Reports (c : Call H L) (s : Store H L) : String → Prop
  | critical {cause : StoreError} (hopen : c.opened s = .error cause) :
      Reports c s ("Critical error in " ++ c.strategy.documentType ++ " document processing: " ++
        cause.description)
  | stopped {a : Attempt} {t u : Store H L} {cause : String} (hopen : c.opened s = .ok (a, t))
      (hruns : c.strategy.Runs c.storage c.interface.client c.document.octets t (.stopped cause) u) :
      Reports c s ("Failed to process " ++ c.strategy.documentType ++ " document: " ++ cause)
  | finished {a : Attempt} {t u : Store H L} {log : ErrorLog} (hopen : c.opened s = .ok (a, t))
      (hruns : c.strategy.Runs c.storage c.interface.client c.document.octets t (.finished log) u)
      (hlog : log ≠ []) : Reports c s (String.join (log.map fun e => e.message ++ "; "))

/-- A message is one that the call reports, under the limit of its settings. -/
def Keeps (c : Call H L) (s : Store H L) (m : String) : Prop :=
  ∃ full, c.Reports s full ∧ Fitted c.strategy.settings.messageLimit full m

variable {c : Call H L} {s : Store H L} {b : Attempt} {m : String}

theorem keeps_of_ran {a : Attempt} {t : Store H L} (hopen : c.opened s = .ok (a, t))
    (hm : (c.ran a t).1.errorMessage = some m) : c.Keeps s m := by
  have ha : a.Open := Strategy.start_open hopen
  obtain ⟨e, u, hruns⟩ := Strategy.exists_runs c.strategy c.storage c.interface.client
    c.document.octets t
  have hmessage : { a with content := Strategy.contentOf c.document.octets }.errorMessage = none :=
    ha.errorMessage
  rw [ran, hruns.run_eq ha.content] at hm
  cases e with
  | stopped cause =>
      rw [Strategy.errorMessage_close_stopped hmessage] at hm
      obtain rfl := Option.some.inj hm
      exact ⟨_, .stopped hopen hruns, fitted_truncateMessage _ _⟩
  | finished log =>
      rw [Strategy.errorMessage_close_finished hmessage] at hm
      split at hm
      · cases hm
      · rename_i hlog
        obtain rfl := Option.some.inj hm
        exact ⟨_, .finished hopen hruns hlog, fitted_truncateMessage _ _⟩

theorem keeps_of_answer (hb : (c.answer s).1 = .ok b) (hm : b.errorMessage = some m) :
    c.Keeps s m := by
  have hcourse : c.strategy.Course c.storage c.document c.interface s (c.answer s).1 (c.answer s).2 :=
    Strategy.process_course _ _ _ _ _
  rw [hb] at hcourse
  cases hcourse with
  | closed hopen hrun _ => exact keeps_of_ran hopen ((congrArg (·.1.errorMessage) hrun).trans hm)
  | recorded hopen _ =>
      obtain rfl := Option.some.inj hm
      exact ⟨_, .critical hopen, fitted_truncateMessage _ _⟩

theorem keeps_of_row {i : Nat} (hs : s.attempts.Numbered)
    (hb : (c.answer s).2.attempts.get? i = some b) (hm : b.errorMessage = some m) :
    s.attempts.get? i = some b ∨ c.Keeps s m := by
  rcases row_cases hs hb with hold | hanswer | ⟨t, hopen⟩
  · exact Or.inl hold
  · exact Or.inr (keeps_of_answer hanswer hm)
  · -- an attempt that has just been opened has no message
    rw [(Strategy.start_open hopen).errorMessage] at hm
    cases hm

end Call

/-- Behind every history, whatever has failed on the way: the message of an attempt in the tables is one
that a call of the history had for it, and the message of an attempt that a call answers with is one that
the call has for it. It is the full message if the limit of the call has room for it, and a front of the
full message and three points otherwise; it keeps to the limit unless it was cut under a limit below
three. -/
theorem messages_of_history (history : List (Call H L)) (c : Call H L) :
    (∀ i a m, (storeAfter history).attempts.get? i = some a → a.errorMessage = some m →
      ∃ before d rest, history = before ++ d :: rest ∧ d.Keeps (storeAfter before) m) ∧
    ∀ b m, (c.answer (storeAfter history)).1 = .ok b → b.errorMessage = some m →
      c.Keeps (storeAfter history) m := by
  refine ⟨?_, fun b m => Call.keeps_of_answer⟩
  induction history using List.reverseRecOn with
  | nil =>
      intro i a m hi
      cases i <;> cases hi
  | append_singleton history last ih =>
      intro i a m hi hm
      rw [storeAfter_concat] at hi
      rcases Call.keeps_of_row (storeAfter_numbered history) hi hm with hold | hkeeps
      · obtain ⟨before, d, rest, rfl, hkeeps⟩ := ih i a m hold hm
        exact ⟨before, d, rest ++ [last], by simp, hkeeps⟩
      · exact ⟨history, last, [], rfl, hkeeps⟩

/-- Under a limit of two characters a message of three is answered with and kept. -/
theorem message_beyond_limit :
    let strategy : Strategy _ _ := { noticeStrategy "2024-05-01" fun _ _ => [] with
      settings := { noticeSettings with messageLimit := 2 } }
    let c : Call _ _ :=
      ⟨strategy, fun _ => none, ⟨"a.xml", []⟩, .new "7" "ACME" "Notices" "ASN"⟩
    (∃ b m, (c.answer .empty).1 = .ok b ∧ b.errorMessage = some m ∧
      c.strategy.settings.messageLimit < m.length) ∧
    ∃ a m, (storeAfter [c]).attempts.get? 1 = some a ∧ a.errorMessage = some m ∧
      c.strategy.settings.messageLimit < m.length := by
  intro strategy c
  have hanswer : (c.answer .empty).1.map (·.errorMessage) = .ok (some "...") := by decide +kernel
  have hrow : ((storeAfter [c]).attempts.get? 1).map (·.errorMessage) = some (some "...") := by
    decide +kernel
  obtain ⟨b, hb, hm⟩ := map_eq_ok hanswer
  obtain ⟨a, ha, ha'⟩ := Option.map_eq_some_iff.1 hrow
  exact ⟨⟨b, "...", hb, hm.symm, by decide⟩, a, "...", ha, ha', by decide⟩

end Engine

end Interchange
