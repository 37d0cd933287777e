import BackupAdmin.Admin.Session
import BackupAdmin.Operation.PollState

/-! Starting operations, waiting for them and cancelling them. Waiting ends since every sleep is
longer than zero and none goes past the timeout. -/
namespace BackupAdmin

/-- An operation that was started, with what it is to make. -/
structure Handle where
  name : String
  kind : OperationKind
  target : String
deriving DecidableEq

namespace Client
variable {σ : Type}

/-- Starts an operation, unless the request is refused before it is sent. -/
def submit (c : Client σ) (i : Instance) (r : Request) : Session σ Handle := do
  Session.ofExcept (r.check (← Session.now))
  let target ← Session.ofExcept (r.target i)
  let o ← Session.call c.service (.submit i r)
  if o.name = "" then
    Session.ofExcept (.error (.decode (some "service returned an operation without a name")))
  else
    c.emit (.started o.name)
    return ⟨o.name, r.kind, target⟩

/-- Starting an operation succeeds with a handle only when the request is not refused and the
service answers with an operation. -/
theorem submit_ok {c : Client σ} {i : Instance} {r : Request} {h : Handle} {w w' : World σ}
    (run : (c.submit i r).run w = some (.ok h, w')) :
    ∃ o, r.target i = .ok h.target ∧ h.name = o.name ∧
      (c.service.answer (.submit i r) w.service).result = .ok o ∧
      w' = (w.after (.submit i r) (c.service.answer (.submit i r) w.service)).emit c.listening
        (.started o.name) := by
  obtain ⟨now, w₁, asked, run⟩ := Session.exists_of_run_bind run
  obtain ⟨u, w₂, checked, run⟩ := Session.exists_of_run_bind run
  obtain ⟨target, w₃, made, run⟩ := Session.exists_of_run_bind run
  obtain ⟨o, w₄, started, run⟩ := Session.exists_of_run_bind run
  simp only [Session.run_now, Session.run_ofExcept, Option.some.injEq, Prod.mk.injEq]
    at asked checked made
  obtain ⟨-, rfl⟩ := asked
  obtain ⟨-, rfl⟩ := checked
  obtain ⟨target_eq, rfl⟩ := made
  injection started with started
  injection started with answer after
  subst after
  split at run
  · simp at run
  · obtain ⟨u', w₅, told, run⟩ := Session.exists_of_run_bind run
    cases told
    cases run
    exact ⟨o, target_eq, rfl, answer, rfl⟩

/-- Starting an operation fails before the service is called, or by its answer. -/
theorem submit_error {c : Client σ} {i : Instance} {r : Request} {e : AdminError} {w w₁ : World σ}
    (run : (c.submit i r).run w = some (.error e, w₁)) :
    w₁ = w ∨ w₁ = w.after (.submit i r) (c.service.answer (.submit i r) w.service) ∧
      ∀ o, (c.service.answer (.submit i r) w.service).result = .ok o → o.name = "" := by
  rcases Session.cases_of_run_bind run with ⟨e', -, asked⟩ | ⟨now, w₂, asked, run⟩
  · cases asked
  cases asked
  rcases Session.cases_of_run_bind run with ⟨e', -, checked⟩ | ⟨u, w₂, checked, run⟩
  · injection checked with checked
    exact .inl (congrArg (·.2) checked).symm
  injection checked with checked
  obtain ⟨-, rfl⟩ := Prod.mk.inj checked
  rcases Session.cases_of_run_bind run with ⟨e', -, aimed⟩ | ⟨target, w₂, aimed, run⟩
  · injection aimed with aimed
    exact .inl (congrArg (·.2) aimed).symm
  injection aimed with aimed
  obtain ⟨-, rfl⟩ := Prod.mk.inj aimed
  rcases Session.cases_of_run_bind run with ⟨e', -, called⟩ | ⟨o, w₂, called, run⟩
  · injection called with called
    obtain ⟨answer, rfl⟩ := Prod.mk.inj called
    exact .inr ⟨rfl, fun o accepted => by rw [answer] at accepted; contradiction⟩
  · injection called with called
    obtain ⟨answer, rfl⟩ := Prod.mk.inj called
    split at run
    case isTrue nameless =>
      cases run
      exact .inr ⟨rfl, fun o' accepted => by cases answer.symm.trans accepted; exact nameless⟩
    case isFalse => cases run

/-- The last event of an operation whose error, if any, is known. -/
def finish (c : Client σ) (o : Operation) (name : String) (w : World σ) :
    Except AdminError (OperationResult Operation) × World σ :=
  match o.error with
  | some e => (.ok (.failed e), w.emit c.listening (.failed name e.text))
  | none => (.ok (.success o), w.emit c.listening (.completed name))

/-- The world of a caller that waits on: it has reported the snapshot and slept. -/
def slept (c : Client σ) (name : String) (o : Operation) (w : World σ) (elapsed timeout : Duration)
    (interval : Duration) : World σ :=
  (w.emit c.listening (.polling name o.percent elapsed)).sleep (min interval (timeout - elapsed))

@[simp] theorem slept_elapsed (c : Client σ) (name : String) (o : Operation) (w : World σ)
    (e t i : Duration) : (c.slept name o w e t i).elapsed = w.elapsed + min i (t - e) := by
  unfold slept World.emit World.sleep; split <;> rfl

/-- A sleep before the timeout brings the end nearer. -/
theorem time_left_lt {began timeout slept prev now : Nat} (pos : 0 < slept)
    (le : prev ≤ now) (lt : now - began < timeout) :
    began + timeout - (now + slept) < began + timeout - prev := by
  omega

/-- A sleep that is cut to the time that is left is longer than zero. -/
theorem cut_pos {timeout interval elapsed : Nat} (pos : 0 < interval) (lt : elapsed < timeout) :
    0 < min interval (timeout - elapsed) := by
  omega

/-- Polls an operation from `began` on until a snapshot decides. -/
def awaitFrom (c : Client σ) (name : String) (timeout interval began : Duration)
    (pos : 0 < interval) (w : World σ) : Except AdminError (OperationResult Operation) × World σ :=
  let r := c.service.answer (.getOperation name) w.service
  let w₁ := w.after (.getOperation name) r
  match r.result with
  | .error e => (.error e, w₁)
  | .ok o =>
    let elapsed := w₁.elapsed - began
    match _h : PollState.evaluate o elapsed timeout with
    | .pending => awaitFrom c name timeout interval began pos
        (c.slept name o w₁ elapsed timeout interval)
    | .done => c.finish o name w₁
    | .cancelled => (.ok .cancelled, w₁.emit c.listening (.cancelled name))
    | .timedOut => (.ok .timedOut, w₁.emit c.listening (.timedOut name elapsed))
termination_by began + timeout - w.elapsed
decreasing_by
  rw [slept_elapsed]
  have lt := (PollState.evaluate_eq_pending_iff.1 _h).2
  exact time_left_lt (cut_pos pos lt) (Nat.le_add_right _ _) lt

/-- Waits until an operation is finished or the timeout has passed, polling at an interval. -/
def awaitEvery (c : Client σ) (h : Handle) (timeout interval : Duration) :
    Session σ (OperationResult Operation) := Session.ofStep fun w =>
  c.awaitFrom h.name timeout (c.pace interval) w.elapsed (c.pace_pos interval) w

def await (c : Client σ) (h : Handle) (timeout : Duration) :
    Session σ (OperationResult Operation) := c.awaitEvery h timeout c.pollInterval

/-- Asks an operation to stop; one that has finished already is no error. -/
def cancel (c : Client σ) (h : Handle) : Session σ Unit := Session.ofStep fun w =>
  let r := c.service.answer (.cancelOperation h.name) w.service
  let w₁ := w.after (.cancelOperation h.name) r
  match r.result with
  | .ok () | .error (.preconditionFailed _) => (.ok (), w₁.emit c.listening (.cancelRequested h.name))
  | .error e => (.error e, w₁)

/-- Polls an operation from `began` on until it is done; not to be done in time is an error. -/
def waitFrom (c : Client σ) (name : String) (timeout interval began : Duration)
    (pos : 0 < interval) (w : World σ) : Except AdminError Operation × World σ :=
  let r := c.service.answer (.getOperation name) w.service
  let w₁ := w.after (.getOperation name) r
  match r.result with
  | .error e => (.error e, w₁)
  | .ok o =>
    if o.done then (.ok o, w₁)
    else
      let elapsed := w₁.elapsed - began
      if _h : timeout ≤ elapsed then (.error (.timeout timeout), w₁)
      else waitFrom c name timeout interval began pos
        (c.slept name o w₁ elapsed timeout interval)
termination_by began + timeout - w.elapsed
decreasing_by
  rw [slept_elapsed]
  have lt := Nat.lt_of_not_le _h
  exact time_left_lt (cut_pos pos lt) (Nat.le_add_right _ _) lt

/-- The finished snapshot of an operation, which does not report how it ended. -/
def waitUntilDone (c : Client σ) (h : Handle) (interval timeout : Duration) :
    Session σ Operation := Session.ofStep fun w =>
  c.waitFrom h.name timeout (c.pace interval) w.elapsed (c.pace_pos interval) w

/-- Asks an operation to stop and waits to see how it ended. -/
def cancelAndSettle (c : Client σ) (h : Handle) (interval timeout : Duration) :
    Session σ (CancelOutcome Operation) := do
  c.cancel h
  let o ← c.waitUntilDone h interval timeout
  match o.error with
  | some e =>
    if e.isCancelled then
      c.emit (.cancelled h.name)
      return .cancelled
    else return .failed e
  | none => return .completedBeforeCancel o

/-- What a cancellation comes to once the operation was asked to stop and waited for: it fails only
with the error of the waiting. -/
theorem cancelAndSettle_run {c : Client σ} {h : Handle} {interval timeout : Duration}
    {w w₁ w₂ : World σ} {waited : Except AdminError Operation}
    (asked : (c.cancel h).run w = some (.ok (), w₁))
    (settled : (c.waitUntilDone h interval timeout).run w₁ = some (waited, w₂)) :
    ∃ outcome, (c.cancelAndSettle h interval timeout).run w = some (outcome, match outcome with
        | .ok .cancelled => w₂.emit c.listening (.cancelled h.name)
        | _ => w₂) ∧
      ∀ e, outcome = .error e ↔ waited = .error e := by
  unfold cancelAndSettle
  rw [Session.run_bind_ok asked]
  cases waited with
  | error e => exact ⟨.error e, Session.run_bind_error settled, by simp⟩
  | ok o =>
    rw [Session.run_bind_ok settled]
    split
    · split
      · exact ⟨.ok .cancelled, Session.run_bind_ok (Session.run_ofStep _ w₂), by simp⟩
      · exact ⟨.ok (.failed _), rfl, by simp⟩
    · exact ⟨.ok (.completedBeforeCancel o), rfl, by simp⟩

end Client
end BackupAdmin
