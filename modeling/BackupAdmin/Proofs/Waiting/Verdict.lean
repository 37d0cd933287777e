import BackupAdmin.Proofs.Waiting.Rounds

/-! How waiting for an operation ends. Main statement: it ends within as many polls as intervals
begin in the timeout and one more, no sleep goes past the timeout, and the last poll decides the
result. -/
namespace BackupAdmin.Client
variable {σ : Type}

/-- The result of waiting, by the answer to the last poll and the time since the waiting began. -/
inductive Verdict (timeout elapsed : Duration) :
    Except AdminError Operation → Except AdminError (OperationResult Operation) → Prop
  | unanswered (e : AdminError) : Verdict timeout elapsed (.error e) (.error e)
  | success {o : Operation} (done : o.done = true) (fault : o.error = none) :
      Verdict timeout elapsed (.ok o) (.ok (.success o))
  | cancelled {o : Operation} {e : OperationError} (done : o.done = true)
      (fault : o.error = some e) (code : e.code = 1) :
      Verdict timeout elapsed (.ok o) (.ok .cancelled)
  | failed {o : Operation} {e : OperationError} (done : o.done = true)
      (fault : o.error = some e) (code : e.code ≠ 1) :
      Verdict timeout elapsed (.ok o) (.ok (.failed e))
  | timedOut {o : Operation} (unfinished : o.done = false) (late : timeout ≤ elapsed) :
      Verdict timeout elapsed (.ok o) (.ok .timedOut)

/-- The same for waiting that only looks for the end of the operation. -/
inductive Settlement (timeout elapsed : Duration) :
    Except AdminError Operation → Except AdminError Operation → Prop
  | unanswered (e : AdminError) : Settlement timeout elapsed (.error e) (.error e)
  | done {o : Operation} (done : o.done = true) : Settlement timeout elapsed (.ok o) (.ok o)
  | timedOut {o : Operation} (unfinished : o.done = false) (late : timeout ≤ elapsed) :
      Settlement timeout elapsed (.ok o) (.error (.timeout timeout))

section
variable {timeout elapsed : Duration} {answer : Except AdminError Operation} {o : Operation}

/-- Waiting ends with an unfinished snapshot only when the timeout has passed. -/
theorem Verdict.late {result : Except AdminError (OperationResult Operation)}
    (h : Verdict timeout elapsed answer result) (last : answer = .ok o)
    (unfinished : o.done = false) :
    timeout ≤ elapsed := by
  cases h with
  | timedOut unfinished' late => exact late
  | success done | cancelled done | failed done =>
    cases last
    simp [unfinished] at done
  | unanswered e => contradiction

theorem Settlement.late {result : Except AdminError Operation}
    (h : Settlement timeout elapsed answer result) (last : answer = .ok o)
    (unfinished : o.done = false) : timeout ≤ elapsed := by
  cases h with
  | timedOut unfinished' late => exact late
  | done done =>
    cases last
    simp [unfinished] at done
  | unanswered e => contradiction

end

variable {c : Client σ} {name : String} {timeout interval began : Duration} {w : World σ}

/-- A done snapshot without the error of a cancellation ends as its error says. -/
theorem finish_verdict (c : Client σ) (name : String) (w : World σ) {o : Operation}
    (elapsed : Duration) (done : o.done = true) (h : ∀ e, o.error = some e → e.code ≠ 1) :
    Verdict timeout elapsed (.ok o) (c.finish o name w).1 ∧
      w.OnlyEvents (c.finish o name w).2 := by
  unfold finish
  cases fault : o.error with
  | none => exact ⟨.success done fault, .emit ..⟩
  | some e => exact ⟨.failed done fault (h e fault), .emit ..⟩

/-- A poll that decides is the last one, and gives the verdict. -/
theorem Decides.verdict (h : c.Decides name timeout began w) (pos : 0 < interval) :
    Verdict timeout ((c.polled name w).elapsed - began) (c.poll name w).result
        (c.awaitFrom name timeout interval began pos w).1 ∧
      (c.polled name w).OnlyEvents (c.awaitFrom name timeout interval began pos w).2 := by
  rw [awaitFrom_step]
  cases answer : (c.poll name w).result with
  | error e => exact ⟨.unanswered e, .refl _⟩
  | ok o =>
    dsimp only
    cases state : PollState.evaluate o ((c.polled name w).elapsed - began) timeout with
    | pending =>
      obtain ⟨unfinished, early⟩ := PollState.evaluate_eq_pending_iff.1 state
      exact absurd (h o answer unfinished) (Nat.not_le.2 early)
    | done =>
      obtain ⟨done, code⟩ := PollState.evaluate_eq_done_iff.1 state
      exact finish_verdict c name _ _ done code
    | cancelled =>
      obtain ⟨done, e, fault, code⟩ := PollState.evaluate_eq_cancelled_iff.1 state
      exact ⟨.cancelled done fault code, .emit ..⟩
    | timedOut =>
      obtain ⟨unfinished, late⟩ := PollState.evaluate_eq_timedOut_iff.1 state
      exact ⟨.timedOut unfinished late, .emit ..⟩

/-- A poll that decides is the last one of waiting for the end, too. -/
theorem Decides.settlement (h : c.Decides name timeout began w) (pos : 0 < interval) :
    Settlement timeout ((c.polled name w).elapsed - began) (c.poll name w).result
        (c.waitFrom name timeout interval began pos w).1 ∧
      (c.polled name w).OnlyEvents (c.waitFrom name timeout interval began pos w).2 := by
  rw [waitFrom_step]
  cases answer : (c.poll name w).result with
  | error e => exact ⟨.unanswered e, .refl _⟩
  | ok o =>
    dsimp only
    cases done : o.done with
    | true => exact ⟨.done done, .refl _⟩
    | false =>
      rw [if_neg Bool.false_ne_true, if_pos (h o answer done)]
      exact ⟨.timedOut done (h o answer done), .refl _⟩

/-- Waiting for a verdict is a run of rounds and one poll more. -/
theorem awaitEvery_run (c : Client σ) (h : Handle) (timeout interval : Duration) (w : World σ) :
    ∃ rounds last result w', (c.awaitEvery h timeout interval).run w = some (result, w') ∧
      Rounds c h.name timeout (c.pace interval) w.elapsed w rounds last ∧
      Verdict timeout ((c.polled h.name last).elapsed - w.elapsed) (c.poll h.name last).result
        result ∧ (c.polled h.name last).OnlyEvents w' := by
  have pos := c.pace_pos interval
  obtain ⟨rounds, last, run, decides⟩ := exists_rounds c h.name timeout w.elapsed pos w
  have verdict := decides.verdict pos
  rw [← run.awaitFrom_eq pos] at verdict
  exact ⟨rounds, last, _, _, rfl, run, verdict⟩

/-- Waiting for the end is a run of rounds and one poll more. -/
theorem waitUntilDone_run (c : Client σ) (h : Handle) (interval timeout : Duration) (w : World σ) :
    ∃ rounds last result w', (c.waitUntilDone h interval timeout).run w = some (result, w') ∧
      Rounds c h.name timeout (c.pace interval) w.elapsed w rounds last ∧
      Settlement timeout ((c.polled h.name last).elapsed - w.elapsed) (c.poll h.name last).result
        result ∧ (c.polled h.name last).OnlyEvents w' := by
  have pos := c.pace_pos interval
  obtain ⟨rounds, last, run, decides⟩ := exists_rounds c h.name timeout w.elapsed pos w
  have settlement := decides.settlement pos
  rw [← run.waitFrom_eq pos] at settlement
  exact ⟨rounds, last, _, _, rfl, run, settlement⟩

/-- Waiting ends: rounds that find the operation unfinished come first, each with a sleep that is
longer than zero and ends by the timeout, and one poll more gives the verdict. Nothing but polls is
asked of the service, so an operation that runs past the timeout runs on. -/
theorem awaitEvery_settles (c : Client σ) (h : Handle) (timeout interval : Duration) (w : World σ) :
    let pace := if interval = 0 then c.pollInterval else interval
    ∃ rounds last result w', (c.awaitEvery h timeout interval).run w = some (result, w') ∧
      Rounds c h.name timeout pace w.elapsed w rounds last ∧
      Verdict timeout ((c.polled h.name last).elapsed - w.elapsed) (c.poll h.name last).result
        result ∧
      w'.calls = w.calls ++ List.replicate (rounds.length + 1) (.getOperation h.name) ∧
      w'.sleeps = w.sleeps ++ rounds.map (·.sleep) ∧
      rounds.length + 1 ≤ timeout ⌈/⌉ pace + 1 ∧
      ∀ r ∈ rounds, r.snapshot.done = false ∧ 0 < r.sleep ∧ r.sleep ≤ pace ∧
        r.time + r.sleep ≤ w.elapsed + timeout := by
  intro pace
  have pos : 0 < pace := c.pace_pos interval
  obtain ⟨rounds, last, result, w', ends, run, verdict, events⟩ :=
    awaitEvery_run c h timeout interval w
  refine ⟨rounds, last, result, w', ends, run, verdict, events.calls.trans ?_,
    events.sleeps.trans ?_, Nat.succ_le_succ (run.length_le pos (Nat.le_refl _)),
    fun r hr => run.of_mem pos hr⟩
  · rw [polled_calls, run.calls_eq, List.replicate_succ', List.append_assoc]
  · rw [polled_sleeps, run.sleeps_eq]

end BackupAdmin.Client
