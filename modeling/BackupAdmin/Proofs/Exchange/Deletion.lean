import BackupAdmin.Proofs.Exchange.Requests
import Mathlib.Algebra.Order.Floor.Div

/-! The deletion of a backup by a service whose calls take no time: reads at even intervals while
databases refer to the backup, its deletion, and a look that it is gone. Main statement: the program
ends after no more reads than there are intervals before the timeout and one, and deletes nothing
that the last of them does not show to be free. -/
namespace BackupAdmin
variable {σ : Type}

/-- Calls take no time, so that the clock is moved by sleeps alone. -/
def Service.Prompt (s : Service σ) : Prop := ∀ c st, (s.answer c st).took = 0

section
variable {s : Service σ} {w : World σ} {c : Call}

theorem Service.Prompt.elapsed_after (prompt : s.Prompt) :
    (w.after c (s.answer c w.service)).elapsed = w.elapsed := by
  rw [World.after_elapsed, prompt c w.service, Nat.add_zero]

theorem Service.Prompt.exchange_eq (prompt : s.Prompt) {answer : Except AdminError c.Answer}
    (said : (s.answer c w.service).result = answer) :
    s.exchange w c = ⟨c, answer, w.elapsed⟩ := by
  rw [exchange, said, prompt.elapsed_after]

end

/-! ### Waiting for a backup to be free -/

/-- Reads of a backup at even intervals from a time on, with these answers. -/
def readings (name : String) (interval start : Duration)
    (answers : List (Except AdminError Backup)) : List Exchange :=
  answers.mapIdx fun k a => ⟨.getBackup name, a, start + k * interval⟩

/-- Reads that come at even intervals, with so much time left at the first of them, find databases
that refer to the backup and go on, up to the answer that ends them: an error, a backup that is
free, or one that is not when no time is left. -/
structure Watch (left interval : Duration) (used : List Backup) (last : Except AdminError Backup) :
    Prop where
  referenced : ∀ b ∈ used, b.referencingDatabases ≠ []
  early : ∀ k < used.length, k * interval < left
  decides : ∀ b, last = .ok b → b.referencingDatabases ≠ [] → left ≤ used.length * interval

section
variable {name : String} {interval start left timeout : Duration} {b : Backup} {used : List Backup}
  {last : Except AdminError Backup}

theorem readings_cons (a : Except AdminError Backup) (answers : List (Except AdminError Backup)) :
    readings name interval start (a :: answers) =
      ⟨.getBackup name, a, start⟩ :: readings name interval (start + interval) answers := by
  have later (k : Nat) : start + (k + 1) * interval = start + interval + k * interval := by
    rw [Nat.succ_mul, Nat.add_comm (k * interval), Nat.add_assoc]
  simp only [readings, List.mapIdx_cons, Nat.zero_mul, Nat.add_zero, later]

/-- The answer that ends the reads is that of the last one. -/
theorem getLast?_readings (answers : List (Except AdminError Backup)) :
    (readings name interval start (answers ++ [last])).getLast? =
      some ⟨.getBackup name, last, start + answers.length * interval⟩ := by
  rw [readings, List.mapIdx_concat, List.getLast?_concat]

/-- A read that is not the last one comes before the others. -/
theorem Watch.cons (referenced : b.referencingDatabases ≠ []) (early : 0 < left)
    (rest : Watch (left - interval) interval used last) : Watch left interval (b :: used) last where
  referenced := List.forall_mem_cons.2 ⟨referenced, rest.referenced⟩
  early
    | 0, _ => (Nat.zero_mul interval).trans_lt early
    | k + 1, lt => by
      have before := rest.early k (Nat.lt_of_succ_lt_succ lt)
      rw [Nat.succ_mul]
      exact Nat.add_lt_of_lt_sub before
  decides b said referenced := by
    have late := rest.decides b said referenced
    rw [List.length_cons, Nat.succ_mul]
    exact Nat.sub_le_iff_le_add.1 late

/-- There are no more reads before the last one than intervals that begin in time. -/
theorem Watch.length_le (h : Watch left interval used last) (pos : 0 < interval) :
    used.length ≤ left ⌈/⌉ interval := by
  refine Nat.le_of_not_lt fun more => ?_
  have late := (ceilDiv_le_iff_le_mul pos).1 (le_refl (left ⌈/⌉ interval))
  rw [Nat.mul_comm] at late
  exact absurd (h.early _ more) (Nat.not_lt.2 late)

/-- The sleep that comes before the last read begins in time. -/
theorem Watch.slept_lt (h : Watch left interval used last) (pos : 0 < interval) :
    used.length * interval < left + interval := by
  cases used with
  | nil => exact (Nat.zero_mul interval).trans_lt (Nat.add_pos_right left pos)
  | cons b used =>
    rw [List.length_cons, Nat.succ_mul]
    exact Nat.add_lt_add_right (h.early used.length (Nat.lt_succ_self _)) interval

end

/-- What waiting comes to by the answer that ends it. -/
def waited (timeout : Duration) : Except AdminError Backup → Except AdminError Unit
  | .error e => .error e
  | .ok b => if b.referencingDatabases.isEmpty then .ok () else .error (.timeout timeout)

/-- Such reads lead from one world to another, with a sleep for the interval between any two. -/
structure Watched (s : Service σ) (name : String) (left interval : Duration) (w : World σ)
    (used : List Backup) (last : Except AdminError Backup) (w' : World σ) : Prop where
  watch : Watch left interval used last
  exchanged : w.Exchanged s (readings name interval w.elapsed (used.map .ok ++ [last])) w'
  sleeps : w'.sleeps = w.sleeps ++ List.replicate used.length interval
  elapsed : w'.elapsed = w.elapsed + used.length * interval

section
variable {s : Service σ} {name : String} {left interval : Duration} {b : Backup}
  {used : List Backup} {last : Except AdminError Backup} {w w' : World σ}

theorem Watched.once (prompt : s.Prompt)
    (read : (s.answer (.getBackup name) w.service).result = last)
    (decides : ∀ b, last = .ok b → b.referencingDatabases ≠ [] → left = 0) :
    Watched s name left interval w [] last
      (w.after (.getBackup name) (s.answer (.getBackup name) w.service)) where
  watch := ⟨by simp, by simp, fun b said referenced => (decides b said referenced).trans_le
    (Nat.zero_le _)⟩
  exchanged := by
    have exchanged := World.Exchanged.after s w (.getBackup name)
    rw [prompt.exchange_eq read] at exchanged
    rwa [List.map_nil, List.nil_append, readings_cons]
  sleeps := by rw [World.after_sleeps, List.length_nil, List.replicate_zero, List.append_nil]
  elapsed := by rw [prompt.elapsed_after, List.length_nil, Nat.zero_mul, Nat.add_zero]

theorem Watched.again (prompt : s.Prompt)
    (read : (s.answer (.getBackup name) w.service).result = .ok b)
    (referenced : b.referencingDatabases ≠ []) (early : 0 < left)
    (rest : Watched s name (left - interval) interval
      ((w.after (.getBackup name) (s.answer (.getBackup name) w.service)).sleep interval)
      used last w') : Watched s name left interval w (b :: used) last w' where
  watch := .cons referenced early rest.watch
  exchanged := by
    have exchanged := World.Exchanged.call (.getBackup name) (.sleep interval rest.exchanged)
    rw [prompt.exchange_eq read, World.sleep_elapsed, prompt.elapsed_after] at exchanged
    rwa [List.map_cons, List.cons_append, readings_cons]
  sleeps := by
    rw [rest.sleeps, World.sleep_sleeps, World.after_sleeps, List.append_assoc, List.length_cons,
      List.replicate_succ, List.singleton_append]
  elapsed := by
    rw [rest.elapsed, World.sleep_elapsed, prompt.elapsed_after, List.length_cons, Nat.succ_mul,
      Nat.add_comm (used.length * interval), Nat.add_assoc]

end

/-- The loop that waits is such a watch, with what is left of the timeout when it begins. -/
theorem Workflow.unreferencedFrom_watched {c : Client σ} (prompt : c.service.Prompt)
    (name : String) (timeout interval began : Duration) (pos : 0 < interval) (w : World σ)
    (start : began ≤ w.elapsed) :
    ∃ used last w', unreferencedFrom c name timeout interval began pos w =
        (waited timeout last, w') ∧
      Watched c.service name (timeout - (w.elapsed - began)) interval w used last w' := by
  -- each round takes one interval from what is left
  fun_induction unreferencedFrom c name timeout interval began pos w with
  | case1 w r w₁ e failed => exact ⟨[], .error e, w₁, rfl, .once prompt failed (by simp)⟩
  | case2 w r w₁ b read free =>
    refine ⟨[], .ok b, w₁, ?_, .once prompt read fun b' same referenced => ?_⟩
    · rw [waited, if_pos free]
    · obtain rfl := Except.ok.inj same
      exact absurd (List.isEmpty_iff.1 free) referenced
  | case3 w r w₁ b read used late =>
    refine ⟨[], .ok b, w₁, ?_, .once prompt read fun _ _ _ => ?_⟩
    · rw [waited, if_neg used]
    · rw [prompt.elapsed_after] at late
      exact Nat.sub_eq_zero_of_le late
  | case4 w r w₁ b read used early ih =>
    have still : w₁.elapsed = w.elapsed := prompt.elapsed_after
    have left : timeout - ((w₁.sleep interval).elapsed - began) =
        timeout - (w.elapsed - began) - interval := by
      rw [World.sleep_elapsed, still, Nat.sub_add_comm start, Nat.sub_sub]
    have later : began ≤ (w₁.sleep interval).elapsed := by
      rw [World.sleep_elapsed, still]
      exact start.trans (Nat.le_add_right _ _)
    obtain ⟨rest, last, w', run, watched⟩ := ih later
    rw [left] at watched
    rw [still] at early
    exact ⟨b :: rest, last, w', run, .again prompt read (mt List.isEmpty_iff.2 used)
      (Nat.sub_pos_of_lt (Nat.lt_of_not_le early)) watched⟩

/-! ### Deleting it -/

/-- Deleting a backup at a time: the deletion is refused, or a look at the backup follows. -/
inductive Removal (name : String) (t : Duration) :
    List Exchange → Except AdminError DeleteReport → Prop
  | refused (e : AdminError) : Removal name t [⟨.deleteBackup name, .error e, t⟩] (.error e)
  | gone (text : String) :
      Removal name t [⟨.deleteBackup name, .ok (), t⟩,
        ⟨.getBackup name, .error (.notFound text), t⟩] (.ok ⟨name⟩)
  | present (b : Backup) :
      Removal name t [⟨.deleteBackup name, .ok (), t⟩, ⟨.getBackup name, .ok b, t⟩]
        (.error (.preconditionFailed ("backup " ++ name ++ " still exists after delete")))
  | unread {e : AdminError} (other : e.isNotFound = false) :
      Removal name t [⟨.deleteBackup name, .ok (), t⟩, ⟨.getBackup name, .error e, t⟩] (.error e)

/-- What follows the answer that ends the wait at a time: only a backup that is free is deleted. -/
inductive DeleteEnd (name : String) (timeout t : Duration) :
    Except AdminError Backup → List Exchange → Except AdminError DeleteReport → Prop
  | unread (e : AdminError) : DeleteEnd name timeout t (.error e) [] (.error e)
  | timedOut {b : Backup} (used : b.referencingDatabases ≠ []) :
      DeleteEnd name timeout t (.ok b) [] (.error (.timeout timeout))
  | removed {b : Backup} {log : List Exchange} {result : Except AdminError DeleteReport}
      (free : b.referencingDatabases = []) (removal : Removal name t log result) :
      DeleteEnd name timeout t (.ok b) log result

section
variable {name : String} {timeout t : Duration} {last : Except AdminError Backup}
  {log : List Exchange} {result : Except AdminError DeleteReport}

theorem Removal.count_delete (h : Removal name t log result) :
    (log.map (·.call)).count (.deleteBackup name) = 1 := by
  cases h <;> simp

/-- The backup is deleted once if it is free in the end, and otherwise not at all. -/
theorem DeleteEnd.count_delete (h : DeleteEnd name timeout t last log result) :
    (log.map (·.call)).count (.deleteBackup name) =
      if last.toOption.any (·.referencingDatabases.isEmpty) then 1 else 0 := by
  cases h with
  | unread e => rfl
  | timedOut used => simp [Except.toOption, used]
  | removed free removal => simp [Except.toOption, free, removal.count_delete]

/-- The report is made just when the deletion succeeds and the backup is not found after it. -/
theorem DeleteEnd.exists_report_iff (h : DeleteEnd name timeout t last log result) :
    (∃ report, result = .ok report) ↔ ∃ text, log = [⟨.deleteBackup name, .ok (), t⟩,
      ⟨.getBackup name, .error (.notFound text), t⟩] := by
  cases h with
  | unread e | timedOut used => simp
  | removed free removal =>
    cases removal with
    | refused e | present b => simp
    | gone text => simp
    | @unread e other =>
      have some_other (text : String) : e ≠ .notFound text := by
        rintro rfl
        contradiction
      simp [some_other]

end

namespace Workflow

/-- A backup that is free is deleted and looked for at once. -/
theorem removal_run {c : Client σ} (prompt : c.service.Prompt) (name : String) (w : World σ) :
    ∃ log result w', (do
        Session.call c.service (.deleteBackup name)
        if ← exists? c name then
          throw (.preconditionFailed ("backup " ++ name ++ " still exists after delete"))
        else return ⟨name⟩ : Session σ DeleteReport).run w = some (result, w') ∧
      w.Exchanged c.service log w' ∧ Removal name w.elapsed log result ∧ w'.sleeps = w.sleeps := by
  let w₁ := w.after (.deleteBackup name) (c.service.answer (.deleteBackup name) w.service)
  let w₂ := w₁.after (.getBackup name) (c.service.answer (.getBackup name) w₁.service)
  have still : w₁.elapsed = w.elapsed := prompt.elapsed_after
  have called := Session.run_call c.service (.deleteBackup name) w
  have asked := World.Exchanged.after c.service w (.deleteBackup name)
  have sleeps : w₂.sleeps = w.sleeps := by
    rw [World.after_sleeps, World.after_sleeps]
  cases deleted : (c.service.answer (.deleteBackup name) w.service).result with
  | error e =>
    rw [deleted] at called
    rw [prompt.exchange_eq deleted] at asked
    exact ⟨_, _, w₁, Session.run_bind_error called, asked, .refused e, World.after_sleeps ..⟩
  | ok u =>
    rw [deleted] at called
    rw [prompt.exchange_eq deleted] at asked
    have looked := run_exists? c w₁ name
    have exchanged := asked.append (World.Exchanged.after c.service w₁ (.getBackup name))
    rw [prompt.exchange_eq rfl, still] at exchanged
    generalize (c.service.answer (.getBackup name) w₁.service).result = answer at looked exchanged
    cases answer with
    | ok b =>
      exact ⟨_, _, w₂, (Session.run_bind_ok called).trans (Session.run_bind_ok looked), exchanged,
        .present b, sleeps⟩
    | error e =>
      cases e with
      | notFound text =>
        exact ⟨_, _, w₂, (Session.run_bind_ok called).trans (Session.run_bind_ok looked),
          exchanged, .gone text, sleeps⟩
      | _ =>
        exact ⟨_, _, w₂, (Session.run_bind_ok called).trans (Session.run_bind_error looked),
          exchanged, .unread rfl, sleeps⟩

/-- Deleting a backup is a watch at even intervals, and what follows the answer that ends it. -/
theorem deleteBackup_watches {c : Client σ} (prompt : c.service.Prompt) (i : Instance) (id : String)
    (p : Polling) (w : World σ) :
    let name := i.backupName id
    let interval := Polling.interval p.referencePollInterval
    let timeout := Duration.ofSeconds p.referenceTimeout
    ∃ used last log result w', (deleteBackup c i id p).run w = some (result, w') ∧
      w.Exchanged c.service
        (readings name interval w.elapsed (used.map .ok ++ [last]) ++ log) w' ∧
      w'.sleeps = w.sleeps ++ List.replicate used.length interval ∧
      Watch timeout interval used last ∧
      DeleteEnd name timeout (w.elapsed + used.length * interval) last log result := by
  intro name interval timeout
  obtain ⟨used, last, w₁, wait, watched⟩ := unreferencedFrom_watched prompt name timeout interval
    w.elapsed (Polling.interval_pos _) w (le_refl _)
  rw [Nat.sub_self, Nat.sub_zero] at watched
  have run (x : Except AdminError Unit) (same : waited timeout last = x) :
      (Session.ofStep fun w => unreferencedFrom c name timeout interval w.elapsed
        (Polling.interval_pos _) w : Session σ Unit).run w = some (x, w₁) := by
    rw [Session.run_ofStep, wait, same]
  have stopped : w.Exchanged c.service
      (readings name interval w.elapsed (used.map .ok ++ [last]) ++ []) w₁ :=
    (List.append_nil _).symm ▸ watched.exchanged
  rw [deleteBackup]
  cases last with
  | error e =>
    exact ⟨used, _, [], _, w₁, Session.run_bind_error (run _ rfl), stopped, watched.sleeps,
      watched.watch, .unread e⟩
  | ok b =>
    by_cases free : b.referencingDatabases = []
    · have ready : waited timeout (.ok b) = .ok () := by simp [waited, free]
      obtain ⟨log, result, w', ends, exchanged, removal, awake⟩ := removal_run prompt name w₁
      rw [watched.elapsed] at removal
      exact ⟨used, _, log, result, w', (Session.run_bind_ok (run _ ready)).trans ends,
        watched.exchanged.append exchanged, awake.trans watched.sleeps, watched.watch,
        .removed free removal⟩
    · have late : waited timeout (.ok b) = .error (.timeout timeout) := by simp [waited, free]
      exact ⟨used, _, [], _, w₁, Session.run_bind_error (run _ late), stopped, watched.sleeps,
        watched.watch, .timedOut free⟩

end Workflow
end BackupAdmin
