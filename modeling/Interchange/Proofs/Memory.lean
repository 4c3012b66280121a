import Interchange.Proofs.Faults
import Interchange.Proofs.Run

/-!
# Processing on tables in memory

On tables in memory an attempt that is opened has a place of its own, and nothing but a fault keeps it from
being written back there.
-/

namespace Interchange.Engine.Strategy

open Text.Utf8 (Octets)

variable {H L : Type} {faults : Faults H L} {s t : Store H L} {a b : Attempt} {n : Nat}

/-- An attempt that is opened is the one that was found, opened again, or a new one under the next number. -/
theorem start_cases {filename : String} {i : Interface}
    (h : start (Store.storage.failing faults) filename i s = .ok (a, t)) :
    (∃ b, s.attempts.find filename i.id = some b ∧ a = b.restart ∧ t = s) ∨
      s.attempts.find filename i.id = none ∧
        a = { Attempt.new filename i.id i.client with id := some (s.attempts.rows.length + 1) } ∧
        t = { s with attempts := (s.attempts.create (.new filename i.id i.client)).2 } := by
  unfold start at h
  split at h
  · cases h
  · rename_i b hfind
    cases h
    exact Or.inl ⟨b, (Store.find_eq_ok.1 hfind).2, rfl, rfl⟩
  · rename_i hfind
    simp only at h
    split at h
    · cases h
    · rename_i id u hcreate
      cases h
      obtain ⟨_, rfl, rfl⟩ := Store.create_eq_ok.1 hcreate
      exact Or.inr ⟨(Store.find_eq_ok.1 hfind).2, rfl, rfl⟩

theorem start_placed {filename : String} {i : Interface} (hs : s.attempts.Numbered)
    (h : start (Store.storage.failing faults) filename i s = .ok (a, t)) :
    ∃ n, s.attempts.Placed t.attempts a n := by
  rcases start_cases h with ⟨b, hfound, rfl, rfl⟩ | ⟨_, rfl, rfl⟩
  · obtain ⟨n, hplaced⟩ := hs.placed_find hfound
    exact ⟨n, hplaced.id, hplaced.present, hs, hplaced.others⟩
  · exact ⟨_, hs.placed_create _⟩

/-- An attempt behind the opening of one was there in front, or it is the one that was opened. -/
theorem start_row {filename : String} {i : Interface} {j : Nat}
    (h : start (Store.storage.failing faults) filename i s = .ok (a, t))
    (hb : t.attempts.get? j = some b) : s.attempts.get? j = some b ∨ b = a := by
  rcases start_cases h with ⟨_, _, _, rfl⟩ | ⟨_, rfl, rfl⟩
  · exact Or.inl hb
  · exact AttemptTable.get?_create_cases hb

theorem start_records {filename : String} {i : Interface}
    (h : start (Store.storage.failing faults) filename i s = .ok (a, t)) : t.records = s.records := by
  rcases start_cases h with ⟨_, _, _, rfl⟩ | ⟨_, _, rfl⟩
  · rfl
  · rfl

variable {st : Strategy H L} {client : String} {octets : Octets} {e : Ending}

theorem Runs.attempts_eq (h : st.Runs (Store.storage.failing faults) client octets s e t) :
    t.attempts = s.attempts := by
  cases h with
  | malformed | headerCrash | headerRefused => rfl
  | lineCrash _ _ hsave | linesRefused _ _ hsave | noLines _ _ hsave =>
      obtain ⟨_, _, rfl⟩ := Store.saveHeader_eq_ok.1 hsave
      rfl
  | complete _ _ hsave _ _ hsaved =>
      obtain ⟨_, _, rfl⟩ := Store.saveHeader_eq_ok.1 hsave
      exact (Store.attempts_of_saveLines hsaved).trans rfl

/-- A run of an attempt that has been opened ends the attempt, in its place. -/
theorem run_placed {u : Store H L} (ha : a.Open) (hplaced : s.attempts.Placed t.attempts a n)
    (hrun : st.run (Store.storage.failing faults) client octets a t = (b, u)) :
    b.Ended ∧ s.attempts.Placed u.attempts b n := by
  obtain ⟨e, v, hruns⟩ := exists_runs st (Store.storage.failing faults) client octets t
  rw [hruns.run_eq ha.content] at hrun
  obtain ⟨rfl, rfl⟩ := Prod.mk.inj hrun
  rw [hruns.attempts_eq]
  exact ⟨Ending.close_ended ha.status ha.errorMessage, Ending.close_id.trans hplaced.id,
    hplaced.present, hplaced.numbered, hplaced.others⟩

end Interchange.Engine.Strategy
