import Mathlib.Data.List.DropRight
import Mathlib.Data.List.Induction
import Interchange.Attempt

/-!
# How an attempt ends

What is asked of an attempt since it was opened last settles how it stands: it has failed if it was told so, with
the first message that it was told, and it has succeeded if it was told nothing else (`Attempt.status_of_history`).
So an error is final, but a success gives way to a failure that is told later (`Attempt.status_failed_late`).
-/

namespace Interchange.Attempt

/-- What may be asked of an attempt. -/
inductive Request where
  | fail (message : String)
  | succeed
  | restart
  | hold (content : Option String)
  deriving DecidableEq, Repr

namespace Request

def apply (a : Attempt) : Request → Attempt
  | fail message => a.fail message
  | succeed => a.succeed
  | restart => a.restart
  | hold content => { a with content := content }

def message? : Request → Option String
  | fail message => some message
  | _ => none

end Request

/-- An attempt behind requests that are made one after another. -/
def after (a : Attempt) (requests : List Request) : Attempt := requests.foldl Request.apply a

/-- The requests behind the last that opened the attempt again, or all of them. -/
def sinceRestart (requests : List Request) : List Request := requests.rtakeWhile (· ≠ .restart)

/-- The message of the first failure. -/
def firstMessage (requests : List Request) : Option String := requests.findSome? Request.message?

/-- How requests since an opening leave an attempt. -/
structure Stands (a : Attempt) (requests : List Request) : Prop where
  status : a.status =
    if (firstMessage requests).isSome then .error else if .succeed ∈ requests then .success else .processing
  errorMessage : a.errorMessage = firstMessage requests

variable {a : Attempt} {r : Request} {requests before later : List Request}

theorem after_append : a.after (before ++ later) = (a.after before).after later := List.foldl_append

theorem sinceRestart_concat : sinceRestart (requests ++ [r]) =
    if r = .restart then [] else sinceRestart requests ++ [r] := by
  rw [sinceRestart, List.rtakeWhile_concat, sinceRestart]
  by_cases h : r = .restart <;> simp [h]

theorem sinceRestart_append (h : .restart ∉ later) :
    sinceRestart (before ++ later) = sinceRestart before ++ later := by
  induction later using List.reverseRecOn with
  | nil => rw [List.append_nil, List.append_nil]
  | append_singleton later r ih =>
      rw [List.mem_append, List.mem_singleton, not_or] at h
      rw [← List.append_assoc, sinceRestart_concat, if_neg (Ne.symm h.2), ih h.1, List.append_assoc]

theorem firstMessage_append : firstMessage (before ++ later) = (firstMessage before).or (firstMessage later) :=
  List.findSome?_append

theorem firstMessage_singleton : firstMessage [r] = r.message? := by
  rw [firstMessage, List.findSome?_singleton]

/-! ## One request -/

theorem errorMessage_apply (h : r ≠ .restart) : (r.apply a).errorMessage = a.errorMessage.or r.message? := by
  cases r with
  | fail message => cases hmessage : a.errorMessage <;> simp [Request.apply, fail, Request.message?, hmessage]
  | succeed | hold _ => exact Option.or_none.symm
  | restart => exact absurd rfl h

/-- A failure always counts, a success only for an attempt that is open. -/
theorem status_apply (h : r ≠ .restart) : (r.apply a).status =
    if r.message?.isSome then .error
    else if r = .succeed ∧ a.status = .processing then .success else a.status := by
  cases r with
  | fail message => rfl
  | succeed => simp [Request.apply, succeed, Request.message?]
  | hold content => simp [Request.apply, Request.message?]
  | restart => exact absurd rfl h

theorem stands_restart : a.restart.Stands [] := ⟨rfl, rfl⟩

theorem Stands.apply (h : a.Stands requests) (hr : r ≠ .restart) : (r.apply a).Stands (requests ++ [r]) where
  status := by
    simp only [status_apply hr, h.status, firstMessage_append, firstMessage_singleton, List.mem_append,
      List.mem_singleton]
    cases r.message? <;> cases firstMessage requests <;>
      by_cases hmem : Request.succeed ∈ requests <;> by_cases hsucceed : r = .succeed <;>
      simp [hmem, hsucceed, eq_comm]
  errorMessage := by
    rw [errorMessage_apply hr, h.errorMessage, firstMessage_append, firstMessage_singleton]

/-! ## Whole histories -/

/-- An attempt stands as the requests since its last opening leave it. -/
theorem stands_after (filename interfaceId clientId : String) (requests : List Request) :
    ((new filename interfaceId clientId).after requests).Stands (sinceRestart requests) := by
  induction requests using List.reverseRecOn with
  | nil => exact ⟨rfl, rfl⟩
  | append_singleton requests r ih =>
      rw [after_append, sinceRestart_concat]
      split
      · rename_i hr
        rw [hr]
        exact stands_restart
      · rename_i hr
        exact ih.apply hr

theorem Stands.status_eq_error (h : a.Stands requests) : a.status = .error ↔ (firstMessage requests).isSome := by
  rw [h.status]
  split
  · rename_i hsome
    exact iff_of_true rfl hsome
  · rename_i hnone
    exact iff_of_false (by split <;> simp) hnone

theorem Stands.status_eq_success (h : a.Stands requests) :
    a.status = .success ↔ firstMessage requests = none ∧ .succeed ∈ requests := by
  rw [h.status]
  cases firstMessage requests with
  | none => by_cases hmem : Request.succeed ∈ requests <;> simp [hmem]
  | some message => simp

/-- Behind any requests on a new attempt: it is in error if it was told of a failure since it was opened last, with
the first message that it was told, and in success if it was told of success alone. While it is not opened again, an
error stays, with its message, whatever is asked; a success stays, without a message, until a failure is told, and
the first message that is told then is that of the error. -/
theorem status_of_history (filename interfaceId clientId : String) (before later : List Request)
    (h : .restart ∉ later) :
    let a := (new filename interfaceId clientId).after before
    let b := a.after later
    a.Stands (sinceRestart before) ∧
    (a.status = .error → b.status = a.status ∧ b.errorMessage = a.errorMessage ∧ a.errorMessage.isSome) ∧
    (a.status = .success → a.errorMessage = none ∧ b.errorMessage = firstMessage later ∧
      b.status = if (firstMessage later).isSome then .error else .success) := by
  intro a b
  have ha : a.Stands (sinceRestart before) := stands_after _ _ _ _
  have hb : b.Stands (sinceRestart before ++ later) := by
    rw [← sinceRestart_append h, show b = _ from after_append.symm]
    exact stands_after _ _ _ _
  refine ⟨ha, fun herror => ?_, fun hsuccess => ?_⟩
  · have hsome := ha.status_eq_error.1 herror
    have hfirst : firstMessage (sinceRestart before ++ later) = firstMessage (sinceRestart before) := by
      rw [firstMessage_append, Option.or_of_isSome hsome]
    refine ⟨?_, by rw [hb.errorMessage, ha.errorMessage, hfirst], ha.errorMessage ▸ hsome⟩
    rw [herror, hb.status_eq_error, hfirst]
    exact hsome
  · obtain ⟨hnone, hmem⟩ := ha.status_eq_success.1 hsuccess
    have hfirst : firstMessage (sinceRestart before ++ later) = firstMessage later := by
      rw [firstMessage_append, hnone, Option.none_or]
    refine ⟨ha.errorMessage.trans hnone, hb.errorMessage.trans hfirst, ?_⟩
    rw [hb.status, hfirst, if_pos (List.mem_append_left _ hmem)]

theorem status_of_history_opened_again :
    let a := (new "a.xml" "7" "ACME").after [.fail "lost", .restart, .hold (some "<a/>"), .succeed]
    Request.restart ∉ [Request.fail "first", .succeed, .fail "second"] ∧ a.status = .success ∧
      (a.after [.fail "first", .succeed, .fail "second"]).errorMessage = some "first" := by
  intro a
  have hlater : Request.restart ∉ [Request.fail "first", .succeed, .fail "second"] := by decide
  have hsuccess : a.status = .success := by decide
  obtain ⟨-, -, hmessage⟩ := status_of_history "a.xml" "7" "ACME"
    [.fail "lost", .restart, .hold (some "<a/>"), .succeed] _ hlater
  exact ⟨hlater, hsuccess, (hmessage hsuccess).2.1⟩

/-- An attempt that has succeeded fails when it is told so later, though it is not opened again. -/
theorem status_failed_late :
    let a := (new "a.xml" "7" "ACME").after [.succeed]
    let b := a.after [.fail "late"]
    a.status.isTerminal ∧ b.status ≠ a.status ∧ b.errorMessage ≠ a.errorMessage := by
  decide

end Interchange.Attempt
