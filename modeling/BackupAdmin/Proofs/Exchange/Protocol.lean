import BackupAdmin.Proofs.Exchange.Waiting
import BackupAdmin.Workflow.Report

/-! The protocols of the workflows that start an operation, and what they say about the calls in a
log. -/
namespace BackupAdmin

/-- A call that stops an operation or removes what one has made. -/
def Call.takesBack : Call → Bool
  | .cancelOperation _ | .deleteBackup _ => true
  | _ => false

/-- A call that looks at a backup or deletes one. -/
def Call.cleansUp : Call → Bool
  | .getBackup _ | .deleteBackup _ => true
  | _ => false

namespace Workflow
variable {α : Type}

/-- A single call; when it fails, so does the program. -/
def Reads (c : Call) (log : List Exchange) (result : Except AdminError α) : Prop :=
  ∃ a t, log = [⟨c, a, t⟩] ∧ ∀ e, a = .error e → result = .error e

/-- A database is read once, and the one that was read is dropped. -/
inductive ReadsAndDrops (name : String) : List Exchange → Except AdminError α → Prop
  | unread (e : AdminError) (t : Duration) :
      ReadsAndDrops name [⟨.getDatabase name, .error e, t⟩] (.error e)
  | undropped (d : Database) (e : AdminError) (t t' : Duration) :
      ReadsAndDrops name [⟨.getDatabase name, .ok d, t⟩, ⟨.dropDatabase d.name, .error e, t'⟩]
        (.error e)
  | dropped (d : Database) (a : α) (t t' : Duration) :
      ReadsAndDrops name [⟨.getDatabase name, .ok d, t⟩, ⟨.dropDatabase d.name, .ok (), t'⟩] (.ok a)

/-- A workflow that starts an operation, waits for its success, and only then reads what it made. -/
inductive Creation (i : Instance) (r : Request) (now : Instant) (timeout : Duration)
    (Read : String → List Exchange → Except AdminError α → Prop) :
    List Exchange → Except AdminError α → Prop
  | unstarted {log : List Exchange} {e : AdminError} {t : Duration}
      (start : Submission i r now log (.error e) t) : Creation i r now timeout Read log (.error e)
  | unfinished {log log' : List Exchange} {h : Handle} {e : AdminError} {began t : Duration}
      (start : Submission i r now log (.ok h) began)
      (wait : Awaited h.name timeout began log' (.error e) t) :
      Creation i r now timeout Read (log ++ log') (.error e)
  | finished {log log' log'' : List Exchange} {h : Handle} {o : Operation} {began t : Duration}
      {result : Except AdminError α} (start : Submission i r now log (.ok h) began)
      (wait : Awaited h.name timeout began log' (.ok o) t) (read : Read h.target log'' result) :
      Creation i r now timeout Read (log ++ (log' ++ log'')) result

/-- An operation is asked to stop, and polled until it has come to an end. -/
inductive Stopped (name : String) (timeout : Duration) :
    List Exchange → Except AdminError (CancelOutcome Operation) → Prop
  | refused {log : List Exchange} {e : AdminError} {t : Duration}
      (ask : StopAsked name log (.error e) t) : Stopped name timeout log (.error e)
  | unsettled {log log' : List Exchange} {e : AdminError} {began t : Duration}
      (ask : StopAsked name log (.ok ()) began)
      (wait : Settled name timeout began log' (.error e) t) :
      Stopped name timeout (log ++ log') (.error e)
  | settled {log log' : List Exchange} {o : Operation} {outcome : CancelOutcome Operation}
      {began t : Duration} (ask : StopAsked name log (.ok ()) began)
      (wait : Settled name timeout began log' (.ok o) t) :
      Stopped name timeout (log ++ log') (.ok outcome)

/-- A look for a backup: an answer and the lack of one both tell whether it exists. -/
inductive LooksFor (name : String) : List Exchange → Except AdminError Bool → Prop
  | present (b : Backup) (t : Duration) : LooksFor name [⟨.getBackup name, .ok b, t⟩] (.ok true)
  | absent (text : String) (t : Duration) :
      LooksFor name [⟨.getBackup name, .error (.notFound text), t⟩] (.ok false)
  | unread {e : AdminError} (t : Duration) (other : e.isNotFound = false) :
      LooksFor name [⟨.getBackup name, .error e, t⟩] (.error e)

/-- A backup is looked for, and deleted if there is one. -/
inductive CleanUp (name : String) : List Exchange → Except AdminError CancelReport → Prop
  | absent (text : String) (t : Duration) :
      CleanUp name [⟨.getBackup name, .error (.notFound text), t⟩] (.ok ⟨name, .cancelled⟩)
  | unread {e : AdminError} (t : Duration) (other : e.isNotFound = false) :
      CleanUp name [⟨.getBackup name, .error e, t⟩] (.error e)
  | deleted (b : Backup) (t t' : Duration) :
      CleanUp name [⟨.getBackup name, .ok b, t⟩, ⟨.deleteBackup name, .ok (), t'⟩]
        (.ok ⟨name, .completedBeforeCancel⟩)
  | undeleted (b : Backup) (e : AdminError) (t t' : Duration) :
      CleanUp name [⟨.getBackup name, .ok b, t⟩, ⟨.deleteBackup name, .error e, t'⟩] (.error e)

/-- A workflow that starts an operation, stops it at once, and cleans up when it has ended. -/
inductive Cancellation (i : Instance) (r : Request) (now : Instant) (timeout : Duration) :
    List Exchange → Except AdminError CancelReport → Prop
  | unstarted {log : List Exchange} {e : AdminError} {t : Duration}
      (start : Submission i r now log (.error e) t) : Cancellation i r now timeout log (.error e)
  | unstopped {log log' : List Exchange} {h : Handle} {e : AdminError} {t : Duration}
      (start : Submission i r now log (.ok h) t) (stop : Stopped h.name timeout log' (.error e)) :
      Cancellation i r now timeout (log ++ log') (.error e)
  | stopped {log log' log'' : List Exchange} {h : Handle} {outcome : CancelOutcome Operation}
      {t : Duration} {result : Except AdminError CancelReport}
      (start : Submission i r now log (.ok h) t) (stop : Stopped h.name timeout log' (.ok outcome))
      (clean : CleanUp h.target log'' result) :
      Cancellation i r now timeout (log ++ (log' ++ log'')) result

section
variable {i : Instance} {r : Request} {now : Instant} {timeout : Duration} {name : String}
  {log : List Exchange} {x : Exchange}

section
variable {result : Except AdminError α} {Read : String → List Exchange → Except AdminError α → Prop}

theorem Creation.of_rejected {e : AdminError} (h : Creation i r now timeout Read log result)
    (check : r.check now = .error e) : log = [] ∧ result = .error e := by
  cases h with
  | unstarted start =>
    obtain ⟨rfl, same⟩ := start.of_rejected check
    injection same with same
    exact ⟨rfl, by rw [same]⟩
  | unfinished start | finished start => nomatch (start.of_rejected check).2

/-- A creation whose reading takes nothing back takes nothing back. -/
theorem Creation.takesBack_eq_false (h : Creation i r now timeout Read log result)
    (reads : ∀ name log' result', Read name log' result' → ∀ x ∈ log', x.call.takesBack = false)
    (mem : x ∈ log) : x.call.takesBack = false := by
  cases h with
  | unstarted start => rw [start.call_eq mem]; rfl
  | unfinished start wait =>
    rcases List.mem_append.1 mem with mem | mem
    · rw [start.call_eq mem]; rfl
    · rw [wait.call_eq mem]; rfl
  | finished start wait read =>
    rcases List.mem_append.1 mem with mem | mem
    · rw [start.call_eq mem]; rfl
    · rcases List.mem_append.1 mem with mem | mem
      · rw [wait.call_eq mem]; rfl
      · exact reads _ _ _ read x mem

theorem Reads.takesBack_eq_false {c : Call} (h : Reads c log result) (keeps : c.takesBack = false) :
    ∀ x ∈ log, x.call.takesBack = false := by
  obtain ⟨a, t, rfl, -⟩ := h
  simpa using keeps

theorem ReadsAndDrops.takesBack_eq_false (h : ReadsAndDrops name log result) :
    ∀ x ∈ log, x.call.takesBack = false := by
  cases h <;> simp [Call.takesBack]

end

variable {result : Except AdminError CancelReport}

theorem Stopped.call_eq {result : Except AdminError (CancelOutcome Operation)}
    (h : Stopped name timeout log result) (mem : x ∈ log) :
    x.call = .cancelOperation name ∨ x.call = .getOperation name := by
  cases h with
  | refused ask => exact .inl (ask.call_eq mem)
  | unsettled ask wait | settled ask wait =>
    exact (List.mem_append.1 mem).imp ask.call_eq wait.call_eq

theorem Cancellation.of_rejected {e : AdminError} (h : Cancellation i r now timeout log result)
    (check : r.check now = .error e) : log = [] ∧ result = .error e := by
  cases h with
  | unstarted start =>
    obtain ⟨rfl, same⟩ := start.of_rejected check
    injection same with same
    exact ⟨rfl, by rw [same]⟩
  | unstopped start | stopped start => nomatch (start.of_rejected check).2

/-- A cancellation fails before it looks for the backup, or it ends with the cleaning up. -/
theorem Cancellation.cleanUp (h : Cancellation i r now timeout log result)
    (target : r.target i = .ok name) :
    ((∃ e, result = .error e) ∧ ∀ x ∈ log, x.call.cleansUp = false) ∨
      ∃ before after, log = before ++ after ∧ (∀ x ∈ before, x.call.cleansUp = false) ∧
        CleanUp name after result := by
  have started {log' : List Exchange} {result' : Except AdminError Handle} {t : Duration}
      (start : Submission i r now log' result' t) (x : Exchange) (mem : x ∈ log') :
      x.call.cleansUp = false := by
    rw [start.call_eq mem]; rfl
  have stopping {name' : String} {log' : List Exchange}
      {result' : Except AdminError (CancelOutcome Operation)}
      (stop : Stopped name' timeout log' result') (x : Exchange) (mem : x ∈ log') :
      x.call.cleansUp = false := by
    rcases stop.call_eq mem with call | call <;> rw [call] <;> rfl
  cases h with
  | unstarted start => exact .inl ⟨⟨_, rfl⟩, started start⟩
  | unstopped start stop =>
    exact .inl ⟨⟨_, rfl⟩, List.forall_mem_append.2 ⟨started start, stopping stop⟩⟩
  | stopped start stop clean =>
    rw [start.target_eq target] at clean
    exact .inr ⟨_, _, (List.append_assoc ..).symm,
      List.forall_mem_append.2 ⟨started start, stopping stop⟩, clean⟩

theorem CleanUp.completed_iff (h : CleanUp name log result) :
    (∃ report, result = .ok report ∧ report.status = .completedBeforeCancel) ↔
      ∃ t, ⟨.deleteBackup name, .ok (), t⟩ ∈ log := by
  cases h <;> simp

theorem CleanUp.cancelled_iff (h : CleanUp name log result) :
    (∃ report, result = .ok report ∧ report.status = .cancelled) ↔
      ∃ text t, ⟨.getBackup name, .error (.notFound text), t⟩ ∈ log := by
  cases h with
  | unread t other => rename_i e; cases e <;> simp_all [AdminError.isNotFound]
  | _ => simp

/-- What is promised of a workflow that creates something. -/
structure Creates (i : Instance) (r : Request) (now : Instant) (timeout : Duration)
    (Read : String → List Exchange → Except AdminError α → Prop) (log : List Exchange)
    (result : Except AdminError α) : Prop where
  protocol : Creation i r now timeout Read log result
  rejected : ∀ e, r.check now = .error e → log = [] ∧ result = .error e
  keeps : ∀ x ∈ log, x.call.takesBack = false

theorem Creation.creates {result : Except AdminError α}
    {Read : String → List Exchange → Except AdminError α → Prop}
    (h : Creation i r now timeout Read log result)
    (reads : ∀ name log' result', Read name log' result' → ∀ x ∈ log', x.call.takesBack = false) :
    Creates i r now timeout Read log result :=
  ⟨h, fun _ check => h.of_rejected check, fun _ mem => h.takesBack_eq_false reads mem⟩

/-- What is promised of a workflow that cancels the making of the thing with a name. -/
structure Cancels (i : Instance) (r : Request) (name : String) (now : Instant)
    (timeout : Duration) (log : List Exchange) (result : Except AdminError CancelReport) :
    Prop where
  protocol : Cancellation i r now timeout log result
  rejected : ∀ e, r.check now = .error e → log = [] ∧ result = .error e
  completed_iff : (∃ report, result = .ok report ∧ report.status = .completedBeforeCancel) ↔
    ∃ t, ⟨.deleteBackup name, .ok (), t⟩ ∈ log
  cancelled_iff : (∃ report, result = .ok report ∧ report.status = .cancelled) ↔
    ∃ text t, ⟨.getBackup name, .error (.notFound text), t⟩ ∈ log

theorem Cancellation.cancels (h : Cancellation i r now timeout log result)
    (target : r.target i = .ok name) : Cancels i r name now timeout log result := by
  have rejected := fun e => h.of_rejected (e := e)
  rcases h.cleanUp target with ⟨⟨e, rfl⟩, none⟩ | ⟨before, after, rfl, none, clean⟩
  · refine ⟨h, rejected, ⟨?_, ?_⟩, ⟨?_, ?_⟩⟩
    · rintro ⟨report, same, -⟩
      contradiction
    · rintro ⟨t, mem⟩
      nomatch none _ mem
    · rintro ⟨report, same, -⟩
      contradiction
    · rintro ⟨text, t, mem⟩
      nomatch none _ mem
  · have only {x : Exchange} (call : x.call.cleansUp = true) : x ∈ before ++ after ↔ x ∈ after := by
      refine ⟨fun mem => (List.mem_append.1 mem).resolve_left fun mem => ?_,
        List.mem_append_right before⟩
      rw [none x mem] at call
      contradiction
    refine ⟨h, rejected, clean.completed_iff.trans ?_, clean.cancelled_iff.trans ?_⟩
    · exact exists_congr fun t => (only rfl).symm
    · exact exists_congr fun text => exists_congr fun t => (only rfl).symm

end

end Workflow
end BackupAdmin
