import BackupAdmin.Proofs.Waiting.Events

/-! Both ways to wait compared. Main statement: waiting for a verdict and waiting for the end of an
operation go in lock step, poll by poll and sleep by sleep, and agree on what the last poll says. -/
namespace BackupAdmin

def Event.isPolling : Event → Bool
  | .polling .. => true
  | _ => false

theorem OperationResult.isPolling_event {α : Type} (name : String) (waited : Duration)
    (r : OperationResult α) : (r.event name waited).isPolling = false := by
  cases r <;> rfl

/-- The reports among the events so far. -/
def World.reports {σ : Type} (w : World σ) : List Event := w.events.filter Event.isPolling

theorem World.reports_emit {σ : Type} (w : World σ) (b : Bool) {e : Event}
    (other : e.isPolling = false) : (w.emit b e).reports = w.reports := by
  cases b <;> simp [reports, other]

namespace Client
variable {timeout elapsed : Duration} {answer : Except AdminError Operation}

/-- The result of waiting for a verdict beside that of waiting for the end, by the answer to the
last poll. -/
inductive Matches (timeout : Duration) : Except AdminError Operation →
    Except AdminError (OperationResult Operation) → Except AdminError Operation → Prop
  | unanswered (e : AdminError) : Matches timeout (.error e) (.error e) (.error e)
  | success {o : Operation} (done : o.done = true) (fault : o.error = none) :
      Matches timeout (.ok o) (.ok (.success o)) (.ok o)
  | cancelled {o : Operation} {e : OperationError} (done : o.done = true)
      (fault : o.error = some e) (code : e.code = 1) :
      Matches timeout (.ok o) (.ok .cancelled) (.ok o)
  | failed {o : Operation} {e : OperationError} (done : o.done = true)
      (fault : o.error = some e) (code : e.code ≠ 1) :
      Matches timeout (.ok o) (.ok (.failed e)) (.ok o)
  | timedOut {o : Operation} (unfinished : o.done = false) :
      Matches timeout (.ok o) (.ok .timedOut) (.error (.timeout timeout))

/-- A verdict and a settlement on one answer match. -/
theorem Verdict.matches {awaited : Except AdminError (OperationResult Operation)}
    {waited : Except AdminError Operation} (verdict : Verdict timeout elapsed answer awaited)
    (settlement : Settlement timeout elapsed answer waited) : Matches timeout answer awaited waited := by
  cases verdict with
  | unanswered e =>
    cases settlement with
    | unanswered => exact .unanswered e
  | success done fault =>
    cases settlement with
    | done => exact .success done fault
    | timedOut unfinished => simp [done] at unfinished
  | cancelled done fault code =>
    cases settlement with
    | done => exact .cancelled done fault code
    | timedOut unfinished => simp [done] at unfinished
  | failed done fault code =>
    cases settlement with
    | done => exact .failed done fault code
    | timedOut unfinished => simp [done] at unfinished
  | timedOut unfinished =>
    cases settlement with
    | done done => simp [unfinished] at done
    | timedOut => exact .timedOut unfinished

section
variable {awaited : Except AdminError (OperationResult Operation)}
  {waited : Except AdminError Operation}

/-- Waiting for a verdict fails with an error exactly when the last poll does. -/
theorem Matches.awaited_error_iff (m : Matches timeout answer awaited waited) (e : AdminError) :
    awaited = .error e ↔ answer = .error e := by
  cases m <;> simp

/-- Waiting for the end fails with the error of the last poll, or by itself when time is up. -/
theorem Matches.waited_error_iff (m : Matches timeout answer awaited waited) (e : AdminError) :
    waited = .error e ↔ answer = .error e ∨ awaited = .ok .timedOut ∧ e = .timeout timeout := by
  cases m <;> simp [eq_comm]

/-- Time is up for both; a service that fails with such an error by itself is told apart. -/
theorem Matches.timedOut_iff (m : Matches timeout answer awaited waited) :
    awaited = .ok .timedOut ↔ waited = .error (.timeout timeout) ∧ ∃ o, answer = .ok o := by
  cases m <;> simp

theorem Matches.waited_ok_iff (m : Matches timeout answer awaited waited) (o : Operation) :
    waited = .ok o ↔ answer = .ok o ∧ o.done = true := by
  cases m with
  | unanswered e => simp
  | timedOut unfinished => grind
  | success done | cancelled done | failed done => grind

theorem Matches.success_iff (m : Matches timeout answer awaited waited) (o : Operation) :
    awaited = .ok (.success o) ↔ waited = .ok o ∧ o.error = none := by
  cases m <;> grind

theorem Matches.cancelled_iff (m : Matches timeout answer awaited waited) :
    awaited = .ok .cancelled ↔ ∃ o e, waited = .ok o ∧ o.error = some e ∧ e.code = 1 := by
  cases m <;> grind

theorem Matches.failed_iff (m : Matches timeout answer awaited waited) (e : OperationError) :
    awaited = .ok (.failed e) ↔ ∃ o, waited = .ok o ∧ o.error = some e ∧ e.code ≠ 1 := by
  cases m <;> grind

end

/-- Waiting for a verdict and waiting for the end, from one world on, exchange the same polls with
the service, at the same times, sleep alike and report alike. An error of the last poll is the error
of both; time is up for one exactly when it is for the other; and otherwise the one gives the last
snapshot, and the other what its error says. -/
theorem await_wait_agree {σ : Type} (c : Client σ) (h : Handle) (timeout interval : Duration)
    (w : World σ) :
    ∃ log answer t awaited waited w₁ w₂,
      (c.awaitEvery h timeout interval).run w = some (awaited, w₁) ∧
      (c.waitUntilDone h interval timeout).run w = some (waited, w₂) ∧
      Polls h.name timeout w.elapsed log answer t ∧
      w.Exchanged c.service log w₁ ∧ w.Exchanged c.service log w₂ ∧
      w₁.calls = w₂.calls ∧ w₁.sleeps = w₂.sleeps ∧ w₁.reports = w₂.reports ∧
      (∀ e, awaited = .error e ↔ answer = .error e) ∧
      (∀ e, waited = .error e ↔
        answer = .error e ∨ awaited = .ok .timedOut ∧ e = .timeout timeout) ∧
      (awaited = .ok .timedOut ↔ waited = .error (.timeout timeout) ∧ ∃ o, answer = .ok o) ∧
      (∀ o, waited = .ok o ↔ answer = .ok o ∧ o.done = true) ∧
      (∀ o, awaited = .ok (.success o) ↔ waited = .ok o ∧ o.error = none) ∧
      (awaited = .ok .cancelled ↔ ∃ o e, waited = .ok o ∧ o.error = some e ∧ e.code = 1) ∧
      ∀ e, awaited = .ok (.failed e) ↔ ∃ o, waited = .ok o ∧ o.error = some e ∧ e.code ≠ 1 := by
  have pos := c.pace_pos interval
  -- both loops come to one last poll through the same rounds
  obtain ⟨rounds, last, run, decides⟩ := exists_rounds c h.name timeout w.elapsed pos w
  obtain ⟨log, exchanged, polls⟩ := run.polls
  obtain ⟨verdict, told⟩ := decides.verdict pos
  obtain ⟨settlement, -⟩ := decides.settlement pos
  have awaiting := decides.awaitFrom_world pos
  have waiting := decides.waitFrom_world pos
  rw [← run.awaitFrom_eq pos] at verdict told awaiting
  rw [← run.waitFrom_eq pos] at settlement waiting
  have agree := verdict.matches settlement
  refine ⟨log, _, _, _, _, _, _, rfl, rfl, polls, ?_, ?_, ?_, ?_, ?_, agree.awaited_error_iff,
    agree.waited_error_iff, agree.timedOut_iff, agree.waited_ok_iff, agree.success_iff,
    agree.cancelled_iff, agree.failed_iff⟩
  · have all := exchanged.append (told.exchanged c.service)
    rwa [List.append_nil] at all
  · rwa [waiting]
  · rw [told.calls, waiting]
  · rw [told.sleeps, waiting]
  · rw [awaiting, waiting]
    split
    · exact World.reports_emit _ _ (OperationResult.isPolling_event ..)
    · rfl

end Client
end BackupAdmin
