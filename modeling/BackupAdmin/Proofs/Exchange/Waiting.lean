import BackupAdmin.Proofs.Exchange.Basic
import BackupAdmin.Proofs.Waiting.Verdict

/-! What is exchanged to start an operation, to wait for it and to cancel it. -/
namespace BackupAdmin
variable {σ : Type}

/-- Polls of an operation up to some answer, since the time `began`; all snapshots before it are
unfinished and come before the timeout. -/
inductive Polls (name : String) (timeout began : Duration) :
    List Exchange → Except AdminError Operation → Duration → Prop
  | last (a : Except AdminError Operation) (t : Duration) :
      Polls name timeout began [⟨.getOperation name, a, t⟩] a t
  | next {o : Operation} {t t' : Duration} {log : List Exchange}
      {a : Except AdminError Operation} (unfinished : o.done = false) (early : t - began < timeout)
      (rest : Polls name timeout began log a t') :
      Polls name timeout began (⟨.getOperation name, .ok o, t⟩ :: log) a t'

/-- Starting an operation at the time `now`: one call, unless the request is rejected before it. -/
inductive Submission (i : Instance) (r : Request) (now : Instant) :
    List Exchange → Except AdminError Handle → Duration → Prop
  | rejected {e : AdminError} {t : Duration} (check : r.check now = .error e) :
      Submission i r now [] (.error e) t
  | refused {e : AdminError} {t : Duration} (check : r.check now = .ok ()) :
      Submission i r now [⟨.submit i r, .error e, t⟩] (.error e) t
  | nameless {o : Operation} {t : Duration} (check : r.check now = .ok ()) (name : o.name = "") :
      Submission i r now [⟨.submit i r, .ok o, t⟩]
        (.error (.decode (some "service returned an operation without a name"))) t
  | started {o : Operation} {target : String} {t : Duration} (check : r.check now = .ok ())
      (name : o.name ≠ "") (makes : r.target i = .ok target) :
      Submission i r now [⟨.submit i r, .ok o, t⟩] (.ok ⟨o.name, r.kind, target⟩) t

/-- Waiting for the success of an operation since the time `began`: what counts is the first
snapshot that is done, if it comes before the timeout and before an error. -/
inductive Awaited (name : String) (timeout began : Duration) :
    List Exchange → Except AdminError Operation → Duration → Prop
  | success {log : List Exchange} {o : Operation} {t : Duration}
      (polls : Polls name timeout began log (.ok o) t) (done : o.done = true)
      (fault : o.error = none) : Awaited name timeout began log (.ok o) t
  | cancelled {log : List Exchange} {o : Operation} {t : Duration} {e : OperationError}
      (polls : Polls name timeout began log (.ok o) t) (done : o.done = true)
      (fault : o.error = some e) (code : e.code = 1) :
      Awaited name timeout began log (.error (.operationCancelled name)) t
  | failed {log : List Exchange} {o : Operation} {t : Duration} {e : OperationError}
      (polls : Polls name timeout began log (.ok o) t) (done : o.done = true)
      (fault : o.error = some e) (code : e.code ≠ 1) :
      Awaited name timeout began log (.error (.operationFailed e.code e.message)) t
  | timedOut {log : List Exchange} {o : Operation} {t : Duration}
      (polls : Polls name timeout began log (.ok o) t) (unfinished : o.done = false)
      (late : timeout ≤ t - began) : Awaited name timeout began log (.error (.timeout timeout)) t
  | unanswered {log : List Exchange} {e : AdminError} {t : Duration}
      (polls : Polls name timeout began log (.error e) t) :
      Awaited name timeout began log (.error e) t

/-- Waiting for the end of an operation, be it a success or not. -/
inductive Settled (name : String) (timeout began : Duration) :
    List Exchange → Except AdminError Operation → Duration → Prop
  | done {log : List Exchange} {o : Operation} {t : Duration}
      (polls : Polls name timeout began log (.ok o) t) (done : o.done = true) :
      Settled name timeout began log (.ok o) t
  | timedOut {log : List Exchange} {o : Operation} {t : Duration}
      (polls : Polls name timeout began log (.ok o) t) (unfinished : o.done = false)
      (late : timeout ≤ t - began) : Settled name timeout began log (.error (.timeout timeout)) t
  | unanswered {log : List Exchange} {e : AdminError} {t : Duration}
      (polls : Polls name timeout began log (.error e) t) :
      Settled name timeout began log (.error e) t

/-- Asking an operation to stop, which may have finished already. -/
inductive StopAsked (name : String) : List Exchange → Except AdminError Unit → Duration → Prop
  | accepted (t : Duration) : StopAsked name [⟨.cancelOperation name, .ok (), t⟩] (.ok ()) t
  | finished (text : String) (t : Duration) :
      StopAsked name [⟨.cancelOperation name, .error (.preconditionFailed text), t⟩] (.ok ()) t
  | refused {e : AdminError} (t : Duration) (other : e.isPreconditionFailed = false) :
      StopAsked name [⟨.cancelOperation name, .error e, t⟩] (.error e) t

section
variable {i : Instance} {r : Request} {now : Instant} {name : String} {timeout began t : Duration}
  {log : List Exchange} {x : Exchange}

/-- A request that is rejected makes no call. -/
theorem Submission.of_rejected {e : AdminError} {result : Except AdminError Handle}
    (h : Submission i r now log result t) (check : r.check now = .error e) :
    log = [] ∧ result = .error e := by
  cases h with
  | rejected check' =>
    rw [check] at check'
    cases check'
    exact ⟨rfl, rfl⟩
  | refused check' | nameless check' | started check' =>
    rw [check] at check'
    contradiction

/-- An operation that was started is to make what the request names. -/
theorem Submission.target_eq {h : Handle} (start : Submission i r now log (.ok h) t)
    (target : r.target i = .ok name) : h.target = name := by
  cases start with
  | started check some_name makes =>
    rw [target] at makes
    injection makes with same
    exact same.symm

theorem Submission.call_eq {result : Except AdminError Handle}
    (h : Submission i r now log result t) (mem : x ∈ log) : x.call = .submit i r := by
  cases h with
  | rejected check => simp at mem
  | refused check | nameless check | started check =>
    rw [List.mem_singleton] at mem
    rw [mem]

theorem Polls.call_eq {a : Except AdminError Operation} (h : Polls name timeout began log a t)
    (mem : x ∈ log) : x.call = .getOperation name := by
  induction h with
  | last a t =>
    rw [List.mem_singleton] at mem
    rw [mem]
  | next unfinished early rest ih =>
    rcases List.mem_cons.1 mem with rfl | mem
    · rfl
    · exact ih mem

theorem Awaited.call_eq {result : Except AdminError Operation}
    (h : Awaited name timeout began log result t) (mem : x ∈ log) :
    x.call = .getOperation name := by
  cases h with
  | success polls | cancelled polls | failed polls | timedOut polls | unanswered polls =>
    exact polls.call_eq mem

theorem Settled.call_eq {result : Except AdminError Operation}
    (h : Settled name timeout began log result t) (mem : x ∈ log) :
    x.call = .getOperation name := by
  cases h with
  | done polls | timedOut polls | unanswered polls => exact polls.call_eq mem

theorem StopAsked.call_eq {result : Except AdminError Unit} (h : StopAsked name log result t)
    (mem : x ∈ log) : x.call = .cancelOperation name := by
  cases h <;> rw [List.mem_singleton] at mem <;> rw [mem]

end

namespace Client
variable {c : Client σ} {name : String} {timeout interval began : Duration} {w last : World σ}
  {rounds : List Round}

/-- Rounds and the poll after them exchange polls. -/
theorem Rounds.polls (h : Rounds c name timeout interval began w rounds last) :
    ∃ log, w.Exchanged c.service log (c.polled name last) ∧
      Polls name timeout began log (c.poll name last).result (c.polled name last).elapsed := by
  induction h with
  | nil w => exact ⟨_, .after c.service w (.getOperation name), .last _ _⟩
  | @cons w last o rounds answer unfinished early rest ih =>
    obtain ⟨log, exchanged, polls⟩ := ih
    have all := World.Exchanged.call (.getOperation name) (.event _ _ (.sleep _ exchanged))
    have first : c.service.exchange w (.getOperation name) =
        ⟨.getOperation name, .ok o, (c.polled name w).elapsed⟩ :=
      congrArg (Exchange.mk (.getOperation name) · _) answer
    rw [first] at all
    exact ⟨_, all, .next unfinished early polls⟩

/-- A verdict on the polls of an operation, as what its success or failure comes to. -/
theorem Verdict.awaited {t : Duration} {answer : Except AdminError Operation}
    {result : Except AdminError (OperationResult Operation)} {log : List Exchange}
    (h : Verdict timeout (t - began) answer result)
    (polls : Polls name timeout began log answer t) :
    Awaited name timeout began log (result.bind (·.toExcept name timeout)) t := by
  cases h with
  | unanswered e => exact .unanswered polls
  | success done fault => exact .success polls done fault
  | cancelled done fault code => exact .cancelled polls done fault code
  | failed done fault code => exact .failed polls done fault code
  | timedOut unfinished late => exact .timedOut polls unfinished late

theorem Settlement.settled {t : Duration} {answer result : Except AdminError Operation}
    {log : List Exchange} (h : Settlement timeout (t - began) answer result)
    (polls : Polls name timeout began log answer t) : Settled name timeout began log result t := by
  cases h with
  | unanswered e => exact .unanswered polls
  | done done => exact .done polls done
  | timedOut unfinished late => exact .timedOut polls unfinished late

theorem await_follows (c : Client σ) (h : Handle) (timeout : Duration) (w : World σ) :
    (c.await h timeout >>= fun r => Session.ofExcept (r.toExcept h.name timeout)).Follows
      c.service w (Awaited h.name timeout w.elapsed) := by
  obtain ⟨rounds, last, result, w', ends, run, verdict, events⟩ :=
    awaitEvery_run c h timeout c.pollInterval w
  obtain ⟨log, exchanged, polls⟩ := run.polls
  have all := exchanged.append (events.exchanged c.service)
  have awaited := verdict.awaited polls
  rw [List.append_nil] at all
  rw [← events.elapsed] at awaited
  cases result with
  | error e => exact ⟨log, _, w', Session.run_bind_error ends, all, awaited⟩
  | ok r =>
    exact ⟨log, _, w', (Session.run_bind_ok ends).trans (Session.run_ofExcept _ w'), all, awaited⟩

theorem waitUntilDone_follows (c : Client σ) (h : Handle) (interval timeout : Duration)
    (w : World σ) : (c.waitUntilDone h interval timeout).Follows c.service w
      (Settled h.name timeout w.elapsed) := by
  obtain ⟨rounds, last, result, w', ends, run, settlement, events⟩ :=
    waitUntilDone_run c h interval timeout w
  obtain ⟨log, exchanged, polls⟩ := run.polls
  have all := exchanged.append (events.exchanged c.service)
  have settled := settlement.settled polls
  rw [List.append_nil] at all
  rw [← events.elapsed] at settled
  exact ⟨log, result, w', ends, all, settled⟩

theorem submit_follows (c : Client σ) (i : Instance) (r : Request) (w : World σ) :
    (c.submit i r).Follows c.service w (Submission i r w.now) := by
  refine .now_bind (.ofExcept_bind (fun e check => .rejected check) fun _ check => ?_)
  obtain ⟨target, makes⟩ := r.exists_target i check
  refine .ofExcept_bind (fun e none => ?_) fun _ made => .call_bind (fun e t => .refused check)
    fun o w' => ?_
  · rw [makes] at none
    contradiction
  · split
    case isTrue name => exact Session.follows_ofExcept (.nameless check name)
    case isFalse name =>
      have same : (w'.emit c.listening (.started o.name)).elapsed = w'.elapsed := by simp
      refine .quiet_bind (Session.run_ofStep _ w') (.emit ..) (.pure ?_)
      rw [same]
      exact .started check name made

theorem cancel_follows (c : Client σ) (h : Handle) (w : World σ) :
    (c.cancel h).Follows c.service w (StopAsked h.name) := by
  have asked := World.Exchanged.after c.service w (.cancelOperation h.name)
  have told : w.Exchanged c.service _ _ := .call (.cancelOperation h.name)
    (.event c.listening (.cancelRequested h.name) (.nil _))
  unfold Service.exchange at asked told
  cases answer : (c.service.answer (.cancelOperation h.name) w.service).result with
  | ok u =>
    rw [answer] at told
    refine ⟨_, .ok (), _, by simp only [cancel, Session.run_ofStep, answer], told, ?_⟩
    rw [World.emit_elapsed]
    exact .accepted _
  | error e =>
    rw [answer] at asked told
    cases e with
    | preconditionFailed text =>
      refine ⟨_, .ok (), _, by simp only [cancel, Session.run_ofStep, answer], told, ?_⟩
      rw [World.emit_elapsed]
      exact .finished text _
    | _ =>
      exact ⟨_, _, _, by simp only [cancel, Session.run_ofStep, answer], asked, .refused _ rfl⟩

end Client
end BackupAdmin
