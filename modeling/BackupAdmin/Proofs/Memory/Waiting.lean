import BackupAdmin.Proofs.Memory.BackupTask
import BackupAdmin.Proofs.Memory.Counters
import BackupAdmin.Proofs.Waiting.Verdict

/-! Waiting for an operation of a service in memory, where only sleeping takes time. Main statement:
it sees the end exactly when the operation ends within as many polls as there is time for. -/
namespace BackupAdmin.Memory

theorem Script.completes_iff {s : Script} {n : Nat} :
    s.completes n = true ↔ ∃ k, s.completion = .afterPolls k ∧ k ≤ n := by
  unfold completes
  cases s.completion <;> simp

/-- What does not end by some poll takes more polls, if it ends at all. -/
theorem Script.lt_of_not_completes {s : Script} {n k : Nat} (late : ¬ s.completes n = true)
    (completion : s.completion = .afterPolls k) : n < k :=
  Nat.lt_of_not_le fun le => late (completes_iff.2 ⟨k, completion, le⟩)

theorem Script.completes_mono {s : Script} {m n : Nat} (le : m ≤ n) (h : s.completes m = true) :
    s.completes n = true := by
  obtain ⟨k, completion, bound⟩ := completes_iff.1 h
  exact completes_iff.2 ⟨k, completion, bound.trans le⟩

section
variable {s : Script} {c : Client Store} {st₀ : Store} {operation name : String} {b : Backup}
  {t : Task} {encryption : Option EncryptionConfig} {n polls : Nat}
  {timeout interval began : Duration}
  {w last : World Store} {rounds : List Client.Round} {Pending : Nat → Task → Store → Prop}
  {Final : Task → Store → Prop}

/-- A poll of an operation under way is answered as the script says. -/
theorem Script.Pursues.poll_eq (pursues : s.Pursues operation Pending Final)
    (follows : s.Follows c.service polls) (lt : n < polls) (here : Pending n t w.service) :
    c.poll operation w = s.getOperation operation w.service := by
  obtain ⟨ts, effect, holds, way⟩ := pursues.way here
  exact follows n lt _ ts t operation effect holds way

/-- A request that was accepted was answered with the operation of its handle. -/
theorem submit_answered {i : Instance} {r : Request} {h : Handle} {w w₁ : World Store}
    (service : s.Serves c.service) (accepted : (c.submit i r).run w = some (.ok h, w₁)) :
    ∃ o, r.target i = .ok h.target ∧ h.name = o.name ∧
      (s.submit i r w.service).result = .ok o ∧
      w₁.service = (s.submit i r w.service).state ∧ w₁.calls = w.calls ++ [.submit i r] ∧
      w₁.sleeps = w.sleeps := by
  obtain ⟨o, target, named, answer, rfl⟩ := Client.submit_ok accepted
  have reply : c.service.answer (.submit i r) w.service = s.submit i r w.service :=
    service (.submit i r) w.service trivial
  rw [reply] at answer ⊢
  refine ⟨o, target, named, answer, ?_, ?_, ?_⟩
  · rw [World.emit_service, World.after_service]
  · rw [World.emit_calls, World.after_calls]
  · rw [World.emit_sleeps, World.after_sleeps]

theorem submit_sameCounts {i : Instance} {r : Request} {h : Handle} {w w₁ : World Store}
    (service : s.Serves c.service) (accepted : (c.submit i r).run w = some (.ok h, w₁)) :
    w.service.SameCounts w₁.service := by
  obtain ⟨o, -, -, -, state, -, -⟩ := submit_answered service accepted
  rw [state]
  exact s.sameCounts_submit w.service i r

/-- A request that was accepted is under way: the backup that it puts in place is made by an
operation of its own. -/
theorem submit_makes {i : Instance} {r : Request} {h : Handle} {w w₁ : World Store}
    (service : s.Serves c.service) (reachable : Reachable s w.service)
    (accepted : (c.submit i r).run w = some (.ok h, w₁)) :
    ∃ o, r.target i = .ok h.target ∧ (s.submit i r w.service).result = .ok o ∧
      w₁.calls = w.calls ++ [.submit i r] ∧ w₁.sleeps = w.sleeps ∧
      ∀ b encryption, s.Places i r w.service b encryption o →
        w.service.backups.get? b.name = none ∧
          ∃ t, Apart w.service b.name (some b) t w₁.service ∧
            t.Makes h.name b.name encryption 0 := by
  obtain ⟨o, target, named, answer, state, calls, sleeps⟩ := submit_answered service accepted
  refine ⟨o, target, answer, calls, sleeps, fun b encryption places => ?_⟩
  obtain ⟨st', metadata, submitted, free, begun⟩ := places
  obtain ⟨t, apart, makes⟩ := reachable.apart begun
  refine ⟨free, t, ?_, named ▸ makes⟩
  rw [state, submitted]
  exact apart

/-- A request is accepted when submitting it comes to a handle. -/
theorem exists_accepted {i : Instance} {r : Request} {w : World Store} (h : Handle)
    (started : ((c.submit i r).run w).map (·.1) = some (.ok h)) :
    ∃ h w₁, (c.submit i r).run w = some (.ok h, w₁) := by
  obtain ⟨⟨result, w₁⟩, run, rfl⟩ := Option.map_eq_some_iff.1 started
  exact ⟨h, w₁, run⟩

/-- A sleep of at most one interval is paid for by one round. -/
theorem round_elapsed_le {before interval rest cut later last : Nat} (cut_le : cut ≤ interval)
    (later_eq : later = before + 0 + cut) (le : last ≤ later + rest * interval) :
    last ≤ before + (rest + 1) * interval := by
  rw [Nat.succ_mul]
  omega

/-- Rounds poll an operation under way, and take no more time than their intervals. -/
theorem Script.Pursues.after_rounds (pursues : s.Pursues operation Pending Final)
    (follows : s.Follows c.service polls)
    (h : Client.Rounds c operation timeout interval began w rounds last)
    (few : n + rounds.length ≤ polls) (here : Pending n t w.service) :
    ∃ t', Pending (n + rounds.length) t' last.service ∧
      last.elapsed ≤ w.elapsed + rounds.length * interval := by
  induction h generalizing t n with
  | nil w => exact ⟨t, here, by simp⟩
  | @cons w last o rounds answer unfinished early rest ih =>
    rw [List.length_cons] at few
    have poll := pursues.poll_eq follows (by omega) here
    cases completes : s.completes (n + 1) with
    | true =>
      obtain ⟨t', st', eq, final⟩ := pursues.last here completes
      rw [poll, eq] at answer
      cases answer
      rw [(pursues.ended final).done] at unfinished
      contradiction
    | false =>
      obtain ⟨t', st', eq, here'⟩ := pursues.more here completes
      rw [eq] at poll
      have state : (c.slept operation o (c.polled operation w)
          ((c.polled operation w).elapsed - began) timeout interval).service = st' := by
        rw [Client.slept_service, Client.polled_service, poll]
      have elapsed : (c.slept operation o (c.polled operation w)
          ((c.polled operation w).elapsed - began) timeout interval).elapsed =
            w.elapsed + 0 + min interval (timeout - ((c.polled operation w).elapsed - began)) := by
        rw [Client.slept_elapsed]
        rw [Client.polled_elapsed, poll]
      obtain ⟨t'', there, le⟩ := ih (by omega) (state ▸ here')
      refine ⟨t'', ?_, round_elapsed_le (Nat.min_le_left _ _) elapsed le⟩
      rw [List.length_cons, Nat.add_comm rounds.length, ← Nat.add_assoc]
      exact there

/-- Rounds that last up to the timeout are as many as intervals begin before it. -/
theorem ceilDiv_le_of_elapsed {timeout interval began last n : Nat} (pos : 0 < interval)
    (le : last ≤ began + n * interval) (late : timeout ≤ last + 0 - began) :
    timeout ⌈/⌉ interval ≤ n := by
  rw [ceilDiv_le_iff_le_mul pos, Nat.mul_comm]
  omega

/-- The poll after the rounds sees the end if the operation ends within the polls that there is time
for; otherwise it is the last of these polls. -/
theorem Script.Pursues.last_poll (pursues : s.Pursues operation Pending Final)
    (follows : s.Follows c.service (timeout ⌈/⌉ interval + 1)) (pos : 0 < interval)
    (h : Client.Rounds c operation timeout interval w.elapsed w rounds last)
    (late : ∀ o, (c.poll operation last).result = .ok o → o.done = false →
      timeout ≤ (c.polled operation last).elapsed - w.elapsed)
    (here : Pending 0 t w.service) :
    ∃ t' st', c.poll operation last = ⟨.ok t'.operation, st', 0⟩ ∧
      if s.completes (timeout ⌈/⌉ interval + 1) then Final t' st'
      else Pending (timeout ⌈/⌉ interval + 1) t' st' := by
  have le := h.length_le pos (Nat.le_refl _)
  obtain ⟨t₁, there, elapsed⟩ := pursues.after_rounds follows h (by omega) here
  rw [Nat.zero_add] at there
  have asked := pursues.poll_eq follows (Nat.lt_succ_of_le le) there
  rw [asked]
  -- an end that is seen early is also seen late; one that is not seen has used up all intervals
  cases completes : s.completes (rounds.length + 1) with
  | true =>
    obtain ⟨t', st', eq, final⟩ := pursues.last there completes
    refine ⟨t', st', eq, ?_⟩
    rw [if_pos (Script.completes_mono (Nat.succ_le_succ le) completes)]
    exact final
  | false =>
    obtain ⟨t', st', eq, there'⟩ := pursues.more there completes
    have poll : c.poll operation last = ⟨.ok t'.operation, st', 0⟩ := asked.trans eq
    have passed := late t'.operation (by rw [poll]) (pursues.pending there')
    rw [Client.polled_elapsed, poll] at passed
    have all : rounds.length = timeout ⌈/⌉ interval :=
      Nat.le_antisymm le (ceilDiv_le_of_elapsed pos elapsed passed)
    rw [all] at completes there'
    refine ⟨t', st', eq, ?_⟩
    rw [completes, if_neg Bool.false_ne_true]
    exact there'

/-- Waiting for the end of an operation under way sees it end in time or times out. -/
theorem waitUntilDone_makes (service : s.Serves c.service) (h : Handle) (timeout : Duration)
    (pos : 0 < interval) (counts : s.Counts (timeout ⌈/⌉ interval + 1))
    (apart : Apart st₀ name (some b) t w.service) (makes : t.Makes h.name name encryption 0) :
    ∃ t' w', w.service.SameCounts w'.service ∧ if s.completes (timeout ⌈/⌉ interval + 1) then
        (c.waitUntilDone h interval timeout).run w = some (.ok t'.operation, w') ∧
          t'.Ended h.name s.failure ∧ Apart st₀ name (s.left encryption b) t' w'.service
      else
        (c.waitUntilDone h interval timeout).run w = some (.error (.timeout timeout), w') ∧
          t'.Makes h.name name encryption (timeout ⌈/⌉ interval + 1) ∧
          Apart st₀ name (some b) t' w'.service := by
  have pace : c.pace interval = interval := if_neg (Nat.ne_of_gt pos)
  obtain ⟨rounds, last, result, w', ends, run, settlement, events⟩ :=
    c.waitUntilDone_run h interval timeout w
  rw [pace] at run
  obtain ⟨t', st', poll, outcome⟩ :=
    ((Apart.pursues s st₀ h.name name encryption b).keeping w.service).last_poll
      (service.follows counts) pos run (fun o => settlement.late) ⟨⟨makes, apart⟩, ⟨rfl, rfl⟩⟩
  have state : w'.service = st' := by rw [events.service, Client.polled_service, poll]
  rw [poll] at settlement
  refine ⟨t', w', ?_⟩
  rw [ends, state]
  split at outcome
  case isTrue in_time =>
    obtain ⟨outcome, same⟩ := outcome
    refine ⟨same, ?_⟩
    rw [if_pos in_time]
    cases settlement with
    | done => exact ⟨rfl, outcome⟩
    | timedOut unfinished =>
      rw [outcome.1.done] at unfinished
      contradiction
  case isFalse late =>
    obtain ⟨outcome, same⟩ := outcome
    refine ⟨same, ?_⟩
    rw [if_neg late]
    cases settlement with
    | done done =>
      rw [outcome.1.pending] at done
      contradiction
    | timedOut => exact ⟨rfl, outcome⟩

/-- What waiting for the verdict on an operation comes to when it ends as the script says. -/
def Script.verdict (s : Script) (o : Operation) : OperationResult Operation :=
  match s.failure with
  | none => .success o
  | some e => if e.isCancelled then .cancelled else .failed e

theorem Task.Ended.verdict {timeout elapsed : Duration}
    {result : Except AdminError (OperationResult Operation)} (ended : t.Ended operation s.failure)
    (h : Client.Verdict timeout elapsed (.ok t.operation) result) :
    result = .ok (s.verdict t.operation) := by
  unfold Script.verdict
  rw [← ended.fault]
  cases h with
  | success done fault => rw [fault]
  | cancelled done fault code =>
    rw [fault]
    dsimp only
    rw [if_pos (OperationError.isCancelled_iff.2 code)]
  | failed done fault code =>
    rw [fault]
    dsimp only
    rw [if_neg (code ∘ OperationError.isCancelled_iff.1)]
  | timedOut unfinished =>
    rw [ended.done] at unfinished
    contradiction

theorem timedOut_of_pending {timeout elapsed : Duration}
    {result : Except AdminError (OperationResult Operation)} (pending : t.operation.done = false)
    (h : Client.Verdict timeout elapsed (.ok t.operation) result) : result = .ok .timedOut := by
  cases h with
  | timedOut => rfl
  | success done | cancelled done | failed done =>
    rw [pending] at done
    contradiction

/-- Waiting for the verdict on an operation under way sees it end in time or times out, and only
polls. -/
theorem Script.Pursues.await {h : Handle} (pursues : s.Pursues h.name Pending Final)
    {timeout : Duration}
    (follows : s.Follows c.service (timeout ⌈/⌉ c.pollInterval + 1))
    (here : Pending 0 t w.service) :
    ∃ t' w' polls, w'.calls = w.calls ++ List.replicate polls (.getOperation h.name) ∧
      if s.completes (timeout ⌈/⌉ c.pollInterval + 1) then
        (c.await h timeout).run w = some (.ok (s.verdict t'.operation), w') ∧ Final t' w'.service
      else
        (c.await h timeout).run w = some (.ok .timedOut, w') ∧
          Pending (timeout ⌈/⌉ c.pollInterval + 1) t' w'.service := by
  have pace : c.pace c.pollInterval = c.pollInterval := if_neg (Nat.ne_of_gt c.interval_pos)
  obtain ⟨rounds, last, result, w', ends, run, verdict, events⟩ :=
    c.awaitEvery_run h timeout c.pollInterval w
  rw [pace] at run
  obtain ⟨t', st', poll, outcome⟩ :=
    pursues.last_poll follows c.interval_pos run (fun o => verdict.late) here
  have state : w'.service = st' := by rw [events.service, Client.polled_service, poll]
  rw [poll] at verdict
  refine ⟨t', w', rounds.length + 1, ?_, ?_⟩
  · rw [events.calls, Client.polled_calls, run.calls_eq, List.replicate_succ', List.append_assoc]
  · rw [Client.await, ends, state]
    split at outcome
    case isTrue in_time =>
      rw [if_pos in_time, (pursues.ended outcome).verdict verdict]
      exact ⟨rfl, outcome⟩
    case isFalse late =>
      rw [if_neg late, timedOut_of_pending (pursues.pending outcome) verdict]
      exact ⟨rfl, outcome⟩

/-- Waiting for the end of an operation that has ended takes one poll. -/
theorem waitUntilDone_ended (service : s.Serves c.service) (h : Handle)
    (interval timeout : Duration) {left : Option Backup} {fault : Option OperationError}
    (apart : Apart st₀ name left t w.service) (ended : t.Ended h.name fault) :
    ∃ w', (c.waitUntilDone h interval timeout).run w = some (.ok t.operation, w') ∧
      w'.service = w.service ∧ w'.sleeps = w.sleeps := by
  have poll : c.poll h.name w = ⟨.ok t.operation, w.service, 0⟩ :=
    (service _ _ (Script.fits_of_ended apart.holds ended)).trans (apart.poll_ended ended)
  refine ⟨c.polled h.name w, ?_, by rw [Client.polled_service, poll], Client.polled_sleeps ..⟩
  rw [Client.waitUntilDone, Session.run_ofStep, Client.waitFrom_step, poll]
  simp only [ended.done, if_true]

end
end BackupAdmin.Memory
