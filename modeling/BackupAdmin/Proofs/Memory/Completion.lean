import BackupAdmin.Proofs.Memory.Waiting
import BackupAdmin.Workflow.Basic

/-! Starting an operation on a service in memory and waiting for its success. Main statement: the
script of the service and the time there is for polls decide what comes of it. -/
namespace BackupAdmin.Memory
open Workflow

section
variable {σ : Type} {c : Client σ} {i : Instance} {r : Request} {timeout : Duration} {h : Handle}
  {w w₁ w₂ : World σ}

/-- What comes of completing an operation is what its verdict says. -/
theorem complete_run {result : OperationResult Operation}
    (accepted : (c.submit i r).run w = some (.ok h, w₁))
    (waited : (c.await h timeout).run w₁ = some (.ok result, w₂)) :
    (complete c i r timeout).run w =
      some ((result.toExcept h.name timeout).map fun _ => h, w₂) := by
  unfold complete
  rw [Session.run_bind_ok accepted, Session.run_bind_ok waited]
  cases verdict : result.toExcept h.name timeout with
  | ok o => exact Session.run_bind_ok (Session.run_ofExcept _ w₂)
  | error e => exact Session.run_bind_error (Session.run_ofExcept _ w₂)

/-- An operation is completed only when its request was accepted. -/
theorem accepted_of_complete (run : (complete c i r timeout).run w = some (.ok h, w₂)) :
    ∃ w₁, (c.submit i r).run w = some (.ok h, w₁) := by
  obtain ⟨h', w₁, accepted, run⟩ := Session.exists_of_run_bind run
  obtain ⟨result, w₃, -, run⟩ := Session.exists_of_run_bind run
  obtain ⟨o, w₄, -, run⟩ := Session.exists_of_run_bind run
  cases run
  exact ⟨w₁, accepted⟩

end

/-- What comes of completing an operation that ends in time. -/
def Script.completion? (s : Script) (h : Handle) : Except AdminError Handle :=
  match s.failure with
  | none => .ok h
  | some e =>
    .error (if e.code = 1 then .operationCancelled h.name else .operationFailed e.code e.message)

section
variable {s : Script} {c : Client Store} {i : Instance} {r : Request} {h : Handle}
  {Pending : Nat → Task → Store → Prop} {Final : Task → Store → Prop}
  {t : Task} {w w₁ : World Store}

theorem Script.verdict_toExcept (s : Script) (o : Operation) (h : Handle) (timeout : Duration) :
    (((s.verdict o).toExcept h.name timeout).map fun _ => h) = s.completion? h := by
  unfold verdict completion?
  cases s.failure with
  | none => rfl
  | some e =>
    by_cases code : e.code = 1
    · simp only [OperationError.isCancelled_iff.2 code, code, if_true]
      rfl
    · have other : e.isCancelled = false := by
        simpa using mt OperationError.isCancelled_iff.1 code
      simp only [other, code, Bool.false_eq_true, if_false]
      rfl

/-- An operation that was accepted and takes its course is completed when it ends in time, and only
then; nothing but polls is asked after it was begun. -/
theorem Script.Pursues.complete (pursues : s.Pursues h.name Pending Final)
    (service : s.Serves c.service) {timeout : Duration}
    (follows : s.Follows c.service (timeout ⌈/⌉ c.pollInterval + 1))
    (accepted : (c.submit i r).run w = some (.ok h, w₁)) (here : Pending 0 t w₁.service) :
    ∃ t' w' polls, w'.calls =
        w.calls ++ .submit i r :: List.replicate polls (.getOperation h.name) ∧
      if s.completes (timeout ⌈/⌉ c.pollInterval + 1) then
        (complete c i r timeout).run w = some (s.completion? h, w') ∧ Final t' w'.service
      else
        (complete c i r timeout).run w = some (.error (.timeout timeout), w') ∧
          Pending (timeout ⌈/⌉ c.pollInterval + 1) t' w'.service := by
  obtain ⟨o, -, -, -, -, submitted, -⟩ := submit_answered service accepted
  obtain ⟨t', w', polls, polled, waited⟩ := pursues.await follows here
  refine ⟨t', w', polls, ?_, ?_⟩
  · rw [polled, submitted, List.append_assoc, List.singleton_append]
  · split at waited
    case isTrue in_time =>
      rw [if_pos in_time, complete_run accepted waited.1, s.verdict_toExcept]
      exact ⟨rfl, waited.2⟩
    case isFalse late =>
      rw [if_neg late, complete_run accepted waited.1]
      exact ⟨rfl, waited.2⟩

/-- Of what is asked while an operation is completed, and of `reads` after that, nothing is to cancel
an operation. -/
theorem uncancelled_of_completed {polls : Nat} {operation : String} {reads : List Call}
    {w' w₂ : World Store}
    (calls : w₂.calls = w.calls ++ .submit i r :: List.replicate polls (.getOperation operation))
    (read : w'.calls = w₂.calls ++ reads) (only : ∀ operation, .cancelOperation operation ∉ reads) :
    ∃ new, w'.calls = w.calls ++ new ∧ ∀ operation, .cancelOperation operation ∉ new := by
  refine ⟨.submit i r :: List.replicate polls (.getOperation operation) ++ reads, ?_,
    fun other asked => ?_⟩
  · rw [read, calls, List.append_assoc]
  · simp [List.mem_replicate, only] at asked

end
end BackupAdmin.Memory
