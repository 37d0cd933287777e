import BackupAdmin.Admin.Waiting
import Mathlib.Algebra.Order.Floor.Div

/-! The rounds of waiting: polls that find an operation unfinished in time, each followed by a
sleep. Both loops that wait run through the same rounds, and only their last poll differs in what it
decides. -/
namespace BackupAdmin.Client
variable {σ : Type}

/-- The answer to a poll of an operation. -/
def poll (c : Client σ) (name : String) (w : World σ) : Reply σ Operation :=
  c.service.answer (.getOperation name) w.service

/-- The world after a poll. -/
def polled (c : Client σ) (name : String) (w : World σ) : World σ :=
  w.after (.getOperation name) (c.poll name w)

section
variable (c : Client σ) (name : String) (w : World σ)

@[simp] theorem polled_service : (c.polled name w).service = (c.poll name w).state := rfl
@[simp] theorem polled_elapsed :
    (c.polled name w).elapsed = w.elapsed + (c.poll name w).took := rfl
@[simp] theorem polled_calls : (c.polled name w).calls = w.calls ++ [.getOperation name] := by
  simp [polled]
@[simp] theorem polled_sleeps : (c.polled name w).sleeps = w.sleeps := by simp [polled]

end

section
variable (c : Client σ) (name : String) (o : Operation) (w : World σ) (e t i : Duration)

@[simp] theorem slept_service : (c.slept name o w e t i).service = w.service := by simp [slept]
@[simp] theorem slept_calls : (c.slept name o w e t i).calls = w.calls := by simp [slept]
@[simp] theorem slept_sleeps :
    (c.slept name o w e t i).sleeps = w.sleeps ++ [min i (t - e)] := by simp [slept]

end

theorem elapsed_le_slept (c : Client σ) (name : String) (o : Operation) (w : World σ)
    (e t i : Duration) : w.elapsed ≤ (c.slept name o (c.polled name w) e t i).elapsed := by
  rw [slept_elapsed, polled_elapsed]
  exact (Nat.le_add_right _ _).trans (Nat.le_add_right _ _)

section
variable (c : Client σ) (name : String) (timeout interval began : Duration) (pos : 0 < interval)
  (w : World σ)

theorem awaitFrom_step :
    c.awaitFrom name timeout interval began pos w =
      match (c.poll name w).result with
      | .error e => (.error e, c.polled name w)
      | .ok o =>
        match PollState.evaluate o ((c.polled name w).elapsed - began) timeout with
        | .pending => c.awaitFrom name timeout interval began pos (c.slept name o (c.polled name w)
            ((c.polled name w).elapsed - began) timeout interval)
        | .done => c.finish o name (c.polled name w)
        | .cancelled => (.ok .cancelled, (c.polled name w).emit c.listening (.cancelled name))
        | .timedOut => (.ok .timedOut, (c.polled name w).emit c.listening
            (.timedOut name ((c.polled name w).elapsed - began))) := by
  rw [awaitFrom, poll]
  cases (c.service.answer (.getOperation name) w.service).result with
  | error e => rfl
  | ok o => dsimp only; split <;> simp_all [polled, poll]

theorem waitFrom_step :
    c.waitFrom name timeout interval began pos w =
      match (c.poll name w).result with
      | .error e => (.error e, c.polled name w)
      | .ok o =>
        if o.done then (.ok o, c.polled name w)
        else if timeout ≤ (c.polled name w).elapsed - began then
          (.error (.timeout timeout), c.polled name w)
        else c.waitFrom name timeout interval began pos (c.slept name o (c.polled name w)
          ((c.polled name w).elapsed - began) timeout interval) := by
  rw [waitFrom, poll]
  cases (c.service.answer (.getOperation name) w.service).result with
  | error e => rfl
  | ok o => simp only [dite_eq_ite]; rfl

end

/-- One round: the time on the clock when the snapshot came, the snapshot, and the sleep after
it. -/
structure Round where
  time : Duration
  snapshot : Operation
  sleep : Duration

/-- Waiting that began at `began` goes from one world through these rounds to another. -/
inductive Rounds (c : Client σ) (name : String) (timeout interval began : Duration) :
    World σ → List Round → World σ → Prop
  | nil (w : World σ) : Rounds c name timeout interval began w [] w
  | cons {w last : World σ} {o : Operation} {rounds : List Round}
      (answer : (c.poll name w).result = .ok o) (unfinished : o.done = false)
      (early : (c.polled name w).elapsed - began < timeout)
      (rest : Rounds c name timeout interval began
        (c.slept name o (c.polled name w) ((c.polled name w).elapsed - began) timeout interval)
        rounds last) :
      Rounds c name timeout interval began w
        (⟨(c.polled name w).elapsed, o,
          min interval (timeout - ((c.polled name w).elapsed - began))⟩ :: rounds) last

/-- The poll in this world ends the waiting: it fails, or its snapshot is done or comes too late. -/
def Decides (c : Client σ) (name : String) (timeout began : Duration) (w : World σ) : Prop :=
  ∀ o, (c.poll name w).result = .ok o → o.done = false →
    timeout ≤ (c.polled name w).elapsed - began

variable {c : Client σ} {name : String} {timeout interval began : Duration}
  {w last : World σ} {rounds : List Round}

/-- Waiting comes to a poll that decides, since every round brings the timeout nearer. -/
theorem exists_rounds (c : Client σ) (name : String) (timeout began : Duration)
    (pos : 0 < interval) (w : World σ) :
    ∃ rounds last, Rounds c name timeout interval began w rounds last ∧
      Decides c name timeout began last := by
  -- on the time that is left, which is what the recursion of both loops counts down
  induction h : began + timeout - w.elapsed using Nat.strong_induction_on generalizing w with
  | _ n ih =>
    by_cases hd : Decides c name timeout began w
    · exact ⟨[], w, .nil w, hd⟩
    · simp only [Decides, not_forall, not_le] at hd
      obtain ⟨o, answer, unfinished, early⟩ := hd
      have nearer : began + timeout - (c.slept name o (c.polled name w)
          ((c.polled name w).elapsed - began) timeout interval).elapsed < n := by
        rw [slept_elapsed, ← h]
        exact time_left_lt (cut_pos pos early) (Nat.le_add_right _ _) early
      obtain ⟨rounds, last, hr, hl⟩ := ih _ nearer _ rfl
      exact ⟨_, last, .cons answer unfinished early hr, hl⟩

/-- What waiting for a verdict comes to is what it comes to after its rounds. -/
theorem Rounds.awaitFrom_eq (h : Rounds c name timeout interval began w rounds last)
    (pos : 0 < interval) :
    c.awaitFrom name timeout interval began pos w =
      c.awaitFrom name timeout interval began pos last := by
  induction h with
  | nil w => rfl
  | @cons w last o rounds answer unfinished early rest ih =>
    rw [← ih, awaitFrom_step, answer]
    dsimp only
    rw [PollState.evaluate_eq_pending_iff.2 ⟨unfinished, early⟩]

/-- What waiting for the end comes to is what it comes to after its rounds. -/
theorem Rounds.waitFrom_eq (h : Rounds c name timeout interval began w rounds last)
    (pos : 0 < interval) :
    c.waitFrom name timeout interval began pos w =
      c.waitFrom name timeout interval began pos last := by
  induction h with
  | nil w => rfl
  | @cons w last o rounds answer unfinished early rest ih =>
    rw [← ih, waitFrom_step, answer]
    dsimp only
    rw [unfinished, if_neg Bool.false_ne_true, if_neg (Nat.not_le.2 early)]

theorem Rounds.calls_eq (h : Rounds c name timeout interval began w rounds last) :
    last.calls = w.calls ++ List.replicate rounds.length (.getOperation name) := by
  induction h with
  | nil w => simp
  | cons answer unfinished early rest ih => simp [ih, List.replicate_succ]

theorem Rounds.sleeps_eq (h : Rounds c name timeout interval began w rounds last) :
    last.sleeps = w.sleeps ++ rounds.map (·.sleep) := by
  induction h with
  | nil w => simp
  | cons answer unfinished early rest ih => simp [ih]

/-- A sleep that is cut to the time that is left ends by the timeout. -/
theorem cut_sleep_le {time began timeout interval : Nat} (early : time - began < timeout) :
    time + min interval (timeout - (time - began)) ≤ began + timeout := by
  omega

/-- In a round the operation is unfinished, and the sleep ends by the timeout. -/
theorem Rounds.of_mem (h : Rounds c name timeout interval began w rounds last)
    (pos : 0 < interval) {r : Round} (hr : r ∈ rounds) :
    r.snapshot.done = false ∧ 0 < r.sleep ∧ r.sleep ≤ interval ∧
      r.time + r.sleep ≤ began + timeout := by
  induction h with
  | nil w => simp at hr
  | cons answer unfinished early rest ih =>
    rcases List.mem_cons.1 hr with rfl | hr
    · exact ⟨unfinished, cut_pos pos early, Nat.min_le_left _ _, cut_sleep_le early⟩
    · exact ih hr

/-- A sleep that leaves time before the timeout is a whole interval. -/
theorem whole_interval_lt {before took began timeout interval later : Nat} (start : began ≤ before)
    (next : before + took + min interval (timeout - (before + took - began)) - began + later
      < timeout) :
    before - began + (later + interval) < timeout := by
  omega

/-- All rounds but the last sleep for a whole interval, and the last poll is before the timeout. -/
theorem Rounds.full_intervals_lt (h : Rounds c name timeout interval began w rounds last)
    (start : began ≤ w.elapsed) (ne : rounds ≠ []) :
    w.elapsed - began + (rounds.length - 1) * interval < timeout := by
  induction h with
  | nil w => exact absurd rfl ne
  | @cons w last o rounds answer unfinished early rest ih =>
    -- the first round has no whole interval behind it, so its poll alone has to be early
    cases rounds with
    | nil =>
      have sooner : w.elapsed - began ≤ (c.polled name w).elapsed - began :=
        Nat.sub_le_sub_right (Nat.le_add_right _ _) _
      simpa using Nat.lt_of_le_of_lt sooner early
    | cons r rounds =>
      have later := ih (start.trans (elapsed_le_slept ..)) (by simp)
      simp only [slept_elapsed, polled_elapsed, List.length_cons, Nat.add_sub_cancel] at later ⊢
      rw [Nat.succ_mul]
      exact whole_interval_lt start later

/-- There are no more rounds than intervals that begin before the timeout. -/
theorem Rounds.length_le (h : Rounds c name timeout interval began w rounds last)
    (pos : 0 < interval) (start : began ≤ w.elapsed) :
    rounds.length ≤ timeout ⌈/⌉ interval := by
  cases rounds with
  | nil => exact Nat.zero_le _
  | cons r rounds =>
    have full := Nat.lt_of_le_of_lt (Nat.le_add_left _ _) (h.full_intervals_lt start (by simp))
    rw [List.length_cons, Nat.succ_le_iff, ← not_le, ceilDiv_le_iff_le_mul pos, not_le,
      Nat.mul_comm]
    exact full

end BackupAdmin.Client
