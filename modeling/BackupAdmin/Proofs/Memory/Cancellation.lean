import BackupAdmin.Proofs.Memory.Waiting
import BackupAdmin.Workflow.Basic

/-! Cancelling the making of a backup on a service in memory. Main statement: the settings of the
service and the time there is for polls decide how it ends, and a workflow that succeeds leaves no
backup behind. -/
namespace BackupAdmin.Memory
open Workflow

section
variable {σ : Type} {c : Client σ} {h : Handle} {interval timeout : Duration} {w w₁ w₂ : World σ}

/-- An operation that was asked to stop and has come to an end is settled in some way. -/
theorem cancelAndSettle_ok {o : Operation} (asked : (c.cancel h).run w = some (.ok (), w₁))
    (settled : (c.waitUntilDone h interval timeout).run w₁ = some (.ok o, w₂)) :
    ∃ outcome w₃, (c.cancelAndSettle h interval timeout).run w = some (.ok outcome, w₃) ∧
      w₂.OnlyEvents w₃ := by
  obtain ⟨outcome, ends, errors⟩ := Client.cancelAndSettle_run asked settled
  cases outcome with
  | error e => cases (errors e).1 rfl
  | ok outcome =>
    refine ⟨outcome, _, ends, ?_⟩
    split
    · exact .emit ..
    · exact .refl w₂

theorem cancelAndSettle_error {e : AdminError} (asked : (c.cancel h).run w = some (.ok (), w₁))
    (unsettled : (c.waitUntilDone h interval timeout).run w₁ = some (.error e, w₂)) :
    (c.cancelAndSettle h interval timeout).run w = some (.error e, w₂) := by
  obtain ⟨outcome, ends, errors⟩ := Client.cancelAndSettle_run asked unsettled
  obtain rfl := (errors e).2 rfl
  exact ends

end

section
variable {s : Script} {c : Client Store} {st₀ st' : Store} {name : String} {left : Option Backup}
  {t : Task} {w : World Store}

/-- A service that takes a request to cancel is asked just that. -/
theorem cancel_run (service : s.Serves c.service) (h : Handle)
    (wishes : w.service.cancelCount h.name + 1 < UInt32.size)
    (answer : s.cancelOperation h.name w.service = ⟨.ok (), st', 0⟩) :
    ∃ w', (c.cancel h).run w = some (.ok (), w') ∧ w'.service = st' ∧ w'.sleeps = w.sleeps := by
  have reply : c.service.answer (.cancelOperation h.name) w.service = ⟨.ok (), st', 0⟩ :=
    (service (.cancelOperation h.name) _ wishes).trans answer
  refine ⟨_, by rw [Client.cancel, Session.run_ofStep, reply], ?_, ?_⟩
  · rw [World.emit_service, World.after_service]
  · rw [World.emit_sleeps, World.after_sleeps]

/-- Cleaning up leaves no backup, and tells whether there was one. -/
theorem cleanUp_run (service : s.Serves c.service)
    (reads : w.service.readCount name + 1 < UInt32.size) (apart : Apart st₀ name left t w.service)
    (free : ∀ b, left = some b → b.referencingDatabases = []) :
    ∃ w', (cleanUp c name).run w = some
        (.ok ⟨name, if left.isSome then .completedBeforeCancel else .cancelled⟩, w') ∧
      Apart st₀ name none t w'.service ∧ w'.sleeps = w.sleeps := by
  obtain ⟨st', answer, apart'⟩ := apart.getBackup (s := s) free
  have reply : c.service.answer (.getBackup name) w.service =
      ⟨left.elim (.error (.notFound name)) .ok, st', 0⟩ :=
    (service (.getBackup name) _ reads).trans answer
  have looked : (exists? c name).run w = some (.ok left.isSome, w.after (.getBackup name)
      (c.service.answer (.getBackup name) w.service)) := by
    rw [exists?, Session.run_ofStep, reply]
    cases left <;> rfl
  rw [reply] at looked
  unfold cleanUp
  rw [Session.run_bind_ok looked]
  cases left with
  | none => exact ⟨_, rfl, apart', World.after_sleeps ..⟩
  | some b =>
    obtain ⟨st'', answer', apart''⟩ := apart'.deleteBackup (free b rfl)
    have deleted : c.service.answer (.deleteBackup name) st' = ⟨.ok (), st'', 0⟩ :=
      (service (.deleteBackup name) _ trivial).trans answer'
    have called : (Session.call c.service (.deleteBackup name)).run (w.after (.getBackup name)
        ⟨.ok b, st', 0⟩) = some (.ok (), (w.after (.getBackup name) ⟨.ok b, st', 0⟩).after
          (.deleteBackup name) ⟨.ok (), st'', 0⟩) := by
      rw [Session.run_call, World.after_service, deleted]
    refine ⟨_, Session.run_bind_ok called, apart'', ?_⟩
    rw [World.after_sleeps, World.after_sleeps]

section
variable {b : Backup} {h : Handle} {encryption : Option EncryptionConfig}
  {interval timeout : Duration}

/-- A service that honours it stops an operation at once, and nothing is left of its backup. -/
theorem stop_honoured (service : s.Serves c.service) (honours : s.ignoreCancel = false)
    (wishes : w.service.cancelCount h.name + 1 < UInt32.size)
    (reads : w.service.readCount name + 1 < UInt32.size)
    (apart : Apart st₀ name (some b) t w.service) (makes : t.Makes h.name name encryption 0) :
    ∃ t' w', (c.cancelAndSettle h interval timeout >>= fun _ => cleanUp c name).run w =
        some (.ok ⟨name, .cancelled⟩, w') ∧
      Apart st₀ name none t' w'.service ∧ w'.sleeps = w.sleeps := by
  obtain ⟨st₁, answer, apart₁⟩ := apart.cancel_honoured makes.pending makes.effect honours
  rw [makes.name] at answer
  rw [← s.readCount_cancelOperation _ h.name, answer] at reads
  obtain ⟨w₁, asked, rfl, awake₁⟩ := cancel_run service h wishes answer
  obtain ⟨w₂, settled, state₂, awake₂⟩ := waitUntilDone_ended service h interval timeout apart₁
    ⟨makes.name, rfl, rfl⟩
  obtain ⟨outcome, w₃, ends, events⟩ := cancelAndSettle_ok asked settled
  rw [← state₂, ← events.service] at apart₁ reads
  obtain ⟨w', cleaned, apart', awake'⟩ := cleanUp_run service reads apart₁ (by simp)
  refine ⟨_, w', (Session.run_bind_ok ends).trans cleaned, apart', ?_⟩
  rw [awake', events.sleeps, awake₂, awake₁]

/-- A service that ignores it ends an operation for which there is time, and what is left of its
backup is deleted. -/
theorem stop_in_time (service : s.Serves c.service) (ignores : s.ignoreCancel = true)
    (wishes : w.service.cancelCount h.name + 1 < UInt32.size)
    (reads : w.service.readCount name + 1 < UInt32.size)
    (counts : s.Counts (timeout ⌈/⌉ interval + 1)) (pos : 0 < interval)
    (in_time : s.completes (timeout ⌈/⌉ interval + 1) = true)
    (free : b.referencingDatabases = []) (apart : Apart st₀ name (some b) t w.service)
    (makes : t.Makes h.name name encryption 0) :
    ∃ t' w', (c.cancelAndSettle h interval timeout >>= fun _ => cleanUp c name).run w =
        some (.ok ⟨name, if s.failure.isSome then .cancelled else .completedBeforeCancel⟩, w') ∧
      Apart st₀ name none t' w'.service := by
  obtain ⟨st₁, answer, apart₁⟩ := apart.cancel_ignored makes.pending ignores
  rw [makes.name] at answer
  rw [← s.readCount_cancelOperation _ h.name, answer] at reads
  obtain ⟨w₁, asked, rfl, -⟩ := cancel_run service h wishes answer
  obtain ⟨t₂, w₂, same, waited⟩ :=
    waitUntilDone_makes service h timeout pos counts apart₁ makes
  rw [if_pos in_time] at waited
  obtain ⟨settled, ended, apart₂⟩ := waited
  obtain ⟨outcome, w₃, ends, events⟩ := cancelAndSettle_ok asked settled
  rw [← same.readCount_eq, ← events.service] at reads
  rw [← events.service] at apart₂
  obtain ⟨w', cleaned, apart', -⟩ := cleanUp_run service reads apart₂ fun b' => left_free free
  refine ⟨t₂, w', (Session.run_bind_ok ends).trans (cleaned.trans ?_), apart'⟩
  unfold Script.left
  cases s.failure <;> rfl

/-- A service that ignores it keeps an operation under way for which there is no time. -/
theorem stop_late (service : s.Serves c.service) (ignores : s.ignoreCancel = true)
    (wishes : w.service.cancelCount h.name + 1 < UInt32.size)
    (counts : s.Counts (timeout ⌈/⌉ interval + 1)) (pos : 0 < interval)
    (late : s.completes (timeout ⌈/⌉ interval + 1) ≠ true)
    (apart : Apart st₀ name (some b) t w.service) (makes : t.Makes h.name name encryption 0) :
    ∃ t' w' n, (c.cancelAndSettle h interval timeout >>= fun _ => cleanUp c name).run w =
        some (.error (.timeout timeout), w') ∧
      Apart st₀ name (some b) t' w'.service ∧ t'.Makes h.name name encryption n := by
  obtain ⟨st₁, answer, apart₁⟩ := apart.cancel_ignored makes.pending ignores
  rw [makes.name] at answer
  obtain ⟨w₁, asked, rfl, -⟩ := cancel_run service h wishes answer
  obtain ⟨t', w', -, waited⟩ := waitUntilDone_makes service h timeout pos counts apart₁ makes
  rw [if_neg late] at waited
  obtain ⟨unsettled, makes', apart'⟩ := waited
  exact ⟨t', w', _, Session.run_bind_error (cancelAndSettle_error asked unsettled), apart', makes'⟩

end

end

/-- The backup that a request puts in place. -/
def requested (i : Instance) (id database : String) (expire : Instant) : Backup :=
  { name := i.backupName id, database, expireTime := some expire, state := .creating }

/-- A request for a backup that was accepted is under way. -/
theorem submit_run {s : Script} {c : Client Store} {i : Instance} {id database : String}
    {expire : Instant} {h : Handle} {w w₁ : World Store} (service : s.Serves c.service)
    (reachable : Reachable s w.service)
    (accepted : (c.submit i (.createBackup id database expire none none)).run w =
      some (.ok h, w₁)) :
    h.target = i.backupName id ∧ w.service.backups.get? (i.backupName id) = none ∧
      w₁.sleeps = w.sleeps ∧
      ∃ t, Apart w.service (i.backupName id) (some (requested i id database expire)) t w₁.service ∧
        t.Makes h.name (i.backupName id) none 0 := by
  obtain ⟨o, target, answer, -, awake, makes⟩ := submit_makes service reachable accepted
  obtain ⟨free, under_way⟩ := makes (requested i id database expire) none
    (Script.submit_createBackup_ok answer)
  injection target with target
  exact ⟨target.symm, free, awake, under_way⟩

/-- How cancelling ends when there is time for so many polls. -/
inductive CancelEnd (s : Script) (polls : Nat) (timeout : Duration) (name operation : String)
    (w w' : World Store) : Except AdminError CancelReport → Prop
  | honoured (honours : s.ignoreCancel = false) (awake : w'.sleeps = w.sleeps) :
      CancelEnd s polls timeout name operation w w' (.ok ⟨name, .cancelled⟩)
  | completed {k : Nat} (ignores : s.ignoreCancel = true)
      (completion : s.completion = .afterPolls k) (in_time : k ≤ polls) (fine : s.failure = none) :
      CancelEnd s polls timeout name operation w w' (.ok ⟨name, .completedBeforeCancel⟩)
  | failed {k : Nat} {e : OperationError} (ignores : s.ignoreCancel = true)
      (completion : s.completion = .afterPolls k) (in_time : k ≤ polls)
      (fault : s.failure = some e) :
      CancelEnd s polls timeout name operation w w' (.ok ⟨name, .cancelled⟩)
  | timedOut {b : Backup} {i : Nat} {t : Task} (ignores : s.ignoreCancel = true)
      (late : ∀ k, s.completion = .afterPolls k → polls < k)
      (found : w'.service.backups.get? name = some b) (creating : b.state = .creating)
      (there : w'.service.find? operation = some (i, t)) (pending : t.operation.done = false) :
      CancelEnd s polls timeout name operation w w' (.error (.timeout timeout))

/-- Cancelling the making of a backup ends as the settings of the service say, where its counters
have room for one more wish to cancel, for one more read of the backup and, if it goes on all the
same, for the polls. When it succeeds, all backups are as they were before; in any case all other
backups and all databases are. -/
theorem cancelBackup_settles {s : Script} {c : Client Store} (service : s.Serves c.service)
    (i : Instance) (database backup : String) (p : Polling) {w w₁ : World Store}
    (reachable : Reachable s w.service) {h : Handle}
    (accepted : (c.submit i (.createBackup backup (i.databaseName database)
      (w.now.plusDays cancelDays) none none)).run w = some (.ok h, w₁))
    (wishes : w.service.cancelCount h.name + 1 < UInt32.size)
    (reads : w.service.readCount (i.backupName backup) + 1 < UInt32.size)
    (counts : s.ignoreCancel = true → s.Counts
      (Duration.ofSeconds p.cancelTimeout ⌈/⌉ Polling.interval p.cancelPollInterval + 1)) :
    let interval := Polling.interval p.cancelPollInterval
    let timeout := Duration.ofSeconds p.cancelTimeout
    ∃ result w', (cancelBackup c i database backup p).run w = some (result, w') ∧
      CancelEnd s (timeout ⌈/⌉ interval + 1) timeout (i.backupName backup) h.name w w' result ∧
      ((∃ report, result = .ok report) → w'.service.backups = w.service.backups) ∧
      (∀ k, k ≠ i.backupName backup →
        w'.service.backups.get? k = w.service.backups.get? k) ∧
      w'.service.databases = w.service.databases := by
  intro interval timeout
  have pos : 0 < interval := Polling.interval_pos _
  obtain ⟨target, absent, awake, t, apart, makes⟩ := submit_run service reachable accepted
  have start : (cancelBackup c i database backup p).run w =
      (c.cancelAndSettle h interval timeout >>= fun _ =>
        cleanUp c (i.backupName backup)).run w₁ := by
    rw [← target]
    exact (Session.run_bind_ok (Session.run_now w)).trans (Session.run_bind_ok accepted)
  have same := submit_sameCounts service accepted
  rw [← same.cancelCount_eq] at wishes
  rw [← same.readCount_eq] at reads
  rw [start]
  cases ignores : s.ignoreCancel with
  | false =>
    obtain ⟨t', w', run, apart', awake'⟩ :=
      stop_honoured service ignores wishes reads apart makes
    exact ⟨_, w', run, .honoured ignores (awake'.trans awake), fun _ => apart'.backups_eq absent,
      fun k ne => apart'.get?_ne ne, apart'.databases⟩
  | true =>
    have counts := counts ignores
    by_cases in_time : s.completes (timeout ⌈/⌉ interval + 1) = true
    · obtain ⟨t', w', run, apart'⟩ :=
        stop_in_time service ignores wishes reads counts pos in_time rfl apart makes
      obtain ⟨k, completion, le⟩ := Script.completes_iff.1 in_time
      refine ⟨_, w', run, ?_, fun _ => apart'.backups_eq absent, fun k ne => apart'.get?_ne ne,
        apart'.databases⟩
      cases fault : s.failure with
      | none => exact .completed ignores completion le fault
      | some e => exact .failed ignores completion le fault
    · obtain ⟨t', w', n, run, apart', makes'⟩ :=
        stop_late service ignores wishes counts pos in_time apart makes
      have there := makes'.name ▸ apart'.holds.find?
      refine ⟨_, w', run, .timedOut ignores (fun k => Script.lt_of_not_completes in_time)
        apart'.get?_eq rfl there makes'.pending, ?_, fun k ne => apart'.get?_ne ne,
        apart'.databases⟩
      rintro ⟨report, same⟩
      contradiction

/-- A service that does not stop operations and ends them at their second poll. -/
def stubborn : Script := { now := ⟨0, 0⟩, completion := .afterPolls 2, ignoreCancel := true }

/-- The world of a service with one database. -/
def oneDatabase (s : Script) (i : Instance) (id : String) : World Store :=
  { service := ({} : Store).insertDatabase s.now (i.databaseName id), start := s.now }

theorem cancelBackup_settles_stubborn :
    let c : Client Store := { service := service stubborn }
    let i : Instance := ⟨"p", "i"⟩
    let w := oneDatabase stubborn i "db1"
    stubborn.Serves c.service ∧ Reachable stubborn w.service ∧
      (∃ h w₁, (c.submit i (.createBackup "b1" (i.databaseName "db1")
        (w.now.plusDays cancelDays) none none)).run w = some (.ok h, w₁) ∧
        w.service.cancelCount h.name + 1 < UInt32.size) ∧
      w.service.readCount (i.backupName "b1") + 1 < UInt32.size ∧
      stubborn.Counts (Duration.ofSeconds 21600 ⌈/⌉ Polling.interval 300 + 1) ∧
      ∃ w', (cancelBackup c i "db1" "b1" {}).run w =
          some (.ok ⟨i.backupName "b1", .completedBeforeCancel⟩, w') ∧
        w'.service.backups = w.service.backups := by
  intro c i w
  have reachable : Reachable stubborn w.service := .insertDatabase .new _
  have service : stubborn.Serves c.service := stubborn.serves_service
  obtain ⟨h, w₁, accepted⟩ : ∃ h w₁, (c.submit i (.createBackup "b1" (i.databaseName "db1")
      (w.now.plusDays cancelDays) none none)).run w = some (.ok h, w₁) :=
    exists_accepted ⟨i.backupName "b1" ++ "/operations/op-1", .createBackup, i.backupName "b1"⟩
      (by decide +kernel)
  have one : 0 + 1 < UInt32.size := by decide
  have counts : stubborn.Counts (Duration.ofSeconds 21600 ⌈/⌉ Polling.interval 300 + 1) :=
    (Script.counts_afterPolls rfl).2 (by decide)
  refine ⟨service, reachable, ⟨h, w₁, accepted, one⟩, one, counts, ?_⟩
  obtain ⟨result, w', run, ends, restored, -⟩ :=
    cancelBackup_settles service i "db1" "b1" {} reachable accepted one one fun _ => counts
  cases ends with
  | completed => exact ⟨w', run, restored ⟨_, rfl⟩⟩
  | honoured honours => contradiction
  | failed ignores completion in_time fault => contradiction
  | timedOut ignores late =>
    have two : ¬ Duration.ofSeconds 21600 ⌈/⌉ Polling.interval 300 + 1 < 2 := by decide
    exact absurd (late 2 rfl) two

end BackupAdmin.Memory
