import BackupAdmin.Proofs.Exchange.Deletion
import BackupAdmin.Proofs.Memory.Locality

/-! The deletion of a backup, whatever the service, and on a service in memory. Main statement: the
program reads at even intervals until an answer decides and deletes a backup only if it is free;
in memory its result tells what has become of the backup, and nothing else is touched. -/
namespace BackupAdmin.Memory
open Workflow

section
variable {s : Script} {st : Store} {name : String} {c : Call} {w w' : World Store}
  {log : List Exchange}

/-- A service in memory answers at once. -/
theorem service_prompt (s : Script) : (service s).Prompt := by
  intro c st
  cases c with
  | submit i r =>
    change (s.submit i r st).took = 0
    unfold Script.submit
    dsimp only
    split <;> rfl
  | getOperation name =>
    change (s.getOperation name st).took = 0
    unfold Script.getOperation
    split
    · rfl
    · dsimp only
      split <;> rfl
  | cancelOperation name =>
    change (s.cancelOperation name st).took = 0
    unfold Script.cancelOperation
    dsimp only
    split
    · rfl
    · split
      · rfl
      · split <;> rfl
  | getBackup name =>
    change (s.getBackup name st).took = 0
    unfold Script.getBackup
    dsimp only
    split <;> rfl
  | updateExpireTime name t =>
    change (updateExpireTime name t st).took = 0
    unfold updateExpireTime
    split
    · rfl
    · split <;> rfl
  | deleteBackup name =>
    change (deleteBackup name st).took = 0
    unfold deleteBackup
    split
    · rfl
    · split <;> rfl
  | getDatabase name =>
    change (getDatabase name st).took = 0
    unfold getDatabase
    split <;> rfl
  | dropDatabase name =>
    change (dropDatabase name st).took = 0
    unfold dropDatabase
    split <;> rfl
  | listBackups i p | listOperations kind i p => rfl

/-- A call on one backup is seen by nothing that lies on others. -/
theorem alike_answer (on : c.OnBackup name) :
    st.Alike {name}ᶜ ((service s).answer c st).state := by
  have touches : ∃ ch, s.Does c {name} st ch := by
    cases on with
    | get => exact does_getBackup (Set.mem_singleton name)
    | updateExpireTime t => exact does_updateExpireTime (Set.mem_singleton name) t
    | delete => exact does_deleteBackup (Set.mem_singleton name)
  obtain ⟨ch, does⟩ := touches
  rw [does.state]
  exact alike_apply disjoint_compl_left does.on

/-- Calls on one backup, however many, leave everything that lies on others. -/
theorem alike_of_exchanged (h : w.Exchanged (service s) log w')
    (on : ∀ x ∈ log, x.call.OnBackup name) : w.service.Alike {name}ᶜ w'.service := by
  induction h with
  | nil w => exact .refl _ w.service
  | call c rest ih =>
    obtain ⟨first, on⟩ := List.forall_mem_cons.1 on
    exact (alike_answer first).trans (ih on)
  | sleep d rest ih => exact ih on
  | event listening e rest ih =>
    have later := ih on
    rwa [World.emit_service] at later

/-- A read answers with what there is after it. -/
theorem result_getBackup (s : Script) (name : String) (st : Store) :
    (s.getBackup name st).result =
      ((s.getBackup name st).state.backups.get? name).elim (.error (.notFound name)) .ok := by
  unfold Script.getBackup
  dsimp only
  split
  case h_1 b found => rw [found, Option.elim_some]
  case h_2 missing => rw [missing, Option.elim_none]

/-- No call on a backup is answered with a timeout. -/
theorem result_ne_timeout (on : c.OnBackup name) (d : Duration) :
    ((service s).answer c st).result ≠ .error (.timeout d) := by
  cases on with
  | get =>
    change (s.getBackup name st).result ≠ _
    rw [result_getBackup]
    cases (s.getBackup name st).state.backups.get? name <;> nofun
  | updateExpireTime t =>
    change (updateExpireTime name t st).result ≠ _
    unfold updateExpireTime
    split
    · nofun
    · split <;> nofun
  | delete =>
    change (deleteBackup name st).result ≠ _
    unfold deleteBackup
    split
    · nofun
    · split <;> nofun
end

section
variable {s : Script} {name : String} {w w' : World Store} {log : List Exchange}
  {last : Except AdminError Backup} {t timeout interval start : Duration}
  {answers : List (Except AdminError Backup)} {result : Except AdminError DeleteReport}

/-- When the last exchange is a read of a backup, there is in the end what that has answered. -/
theorem read_of_last (h : w.Exchanged (service s) log w')
    (read : log.getLast? = some ⟨.getBackup name, last, t⟩) :
    (w'.service.backups.get? name).elim (.error (.notFound name)) .ok = last := by
  obtain ⟨w₁, same, state⟩ := h.exists_last read
  have answered : ((service s).answer (.getBackup name) w₁.service).result = last := by
    injection same
  rw [state]
  exact (result_getBackup s name w₁.service).symm.trans answered

theorem timeout_notMem {c : Call} (h : w.Exchanged (service s) log w') (on : c.OnBackup name)
    (d t : Duration) : ⟨c, .error (.timeout d), t⟩ ∉ log := by
  intro mem
  obtain ⟨w₁, same⟩ := h.exists_of_mem mem
  have answered : ((service s).answer c w₁.service).result = .error (.timeout d) := by
    injection same
  exact result_ne_timeout on d answered

/-- A backup whose deletion is reported is gone. -/
theorem get?_of_report {report : DeleteReport}
    (h : w.Exchanged (service s) (readings name interval start (answers ++ [last]) ++ log) w')
    (ends : DeleteEnd name timeout t last log result) (reported : result = .ok report) :
    w'.service.backups.get? name = none := by
  obtain ⟨text, rfl⟩ := ends.exists_report_iff.1 ⟨report, reported⟩
  have missing := read_of_last h (by rw [List.getLast?_append]; rfl)
  cases found : w'.service.backups.get? name with
  | none => rfl
  | some b =>
    rw [found] at missing
    contradiction

/-- A backup that is waited for in vain is there, and databases refer to it. -/
theorem get?_of_timeout {d : Duration}
    (h : w.Exchanged (service s) (readings name interval start (answers ++ [last]) ++ log) w')
    (ends : DeleteEnd name timeout t last log result) (late : result = .error (.timeout d)) :
    ∃ b, w'.service.backups.get? name = some b ∧ b.referencingDatabases ≠ [] := by
  cases ends with
  | unread e =>
    obtain rfl := Except.error.inj late
    refine absurd ?_ (timeout_notMem h (.get : Call.OnBackup name _) d
      (start + answers.length * interval))
    exact List.mem_append_left [] (List.mem_of_getLast? (getLast?_readings answers))
  | @timedOut b used =>
    rw [List.append_nil] at h
    have read := read_of_last h (getLast?_readings answers)
    cases found : w'.service.backups.get? name with
    | none =>
      rw [found] at read
      contradiction
    | some b' =>
      rw [found] at read
      exact ⟨b', rfl, Except.ok.inj read ▸ used⟩
  | removed free removal =>
    cases removal with
    | gone text => contradiction
    | present b => exact nomatch Except.error.inj late
    | refused e =>
      obtain rfl := Except.error.inj late
      refine absurd ?_ (timeout_notMem h (.delete : Call.OnBackup name _) d t)
      exact List.mem_append_right _ (by simp)
    | unread other =>
      obtain rfl := Except.error.inj late
      refine absurd ?_ (timeout_notMem h (.get : Call.OnBackup name _) d t)
      exact List.mem_append_right _ (by simp)

end

/-- With a service whose calls take no time, the deletion of a backup ends: the backup is read at
even intervals, of a second at least, until an answer is an error, shows no database that refers to
the backup or comes when the time is up. Only a backup that is free is deleted, once, and its
deletion is reported just when it has succeeded and the backup is not found any more. In memory a
backup whose deletion is reported is gone, one that was waited for in vain is there and not free,
and all other backups and all databases are as before. -/
theorem deleteBackup_settles (i : Instance) (id : String) (p : Polling) :
    let name := i.backupName id
    let interval := Polling.interval p.referencePollInterval
    let timeout := Duration.ofSeconds p.referenceTimeout
    Duration.ofSeconds 1 ≤ interval ∧
    (∀ {σ : Type} (c : Client σ) (w : World σ), c.service.Prompt →
      ∃ used last log result w', (Workflow.deleteBackup c i id p).run w = some (result, w') ∧
        w.Exchanged c.service
          (readings name interval w.elapsed (used.map .ok ++ [last]) ++ log) w' ∧
        w'.sleeps = w.sleeps ++ List.replicate used.length interval ∧
        Watch timeout interval used last ∧
        used.length + 1 ≤ timeout ⌈/⌉ interval + 1 ∧
        used.length * interval < timeout + interval ∧
        DeleteEnd name timeout (w.elapsed + used.length * interval) last log result ∧
        (log.map (·.call)).count (.deleteBackup name) =
          (if last.toOption.any (·.referencingDatabases.isEmpty) then 1 else 0) ∧
        ((∃ report, result = .ok report) ↔ ∃ text,
          log = [⟨.deleteBackup name, .ok (), w.elapsed + used.length * interval⟩,
            ⟨.getBackup name, .error (.notFound text), w.elapsed + used.length * interval⟩])) ∧
    ∀ (s : Script) (c : Client Store) (w : World Store), c.service = service s →
      ∃ result w', (Workflow.deleteBackup c i id p).run w = some (result, w') ∧
        (∀ report, result = .ok report → w'.service.backups.get? name = none) ∧
        (result = .error (.timeout timeout) →
          ∃ b, w'.service.backups.get? name = some b ∧ b.referencingDatabases ≠ []) ∧
        (∀ other, other ≠ name →
          w'.service.backups.get? other = w.service.backups.get? other) ∧
        w'.service.databases = w.service.databases := by
  intro name interval timeout
  have pos : 0 < interval := Polling.interval_pos _
  refine ⟨Nat.mul_le_mul_right _ (Nat.le_max_right _ 1), ?_, ?_⟩
  · intro σ c w prompt
    obtain ⟨used, last, log, result, w', run, exchanged, sleeps, watch, ends⟩ :=
      deleteBackup_watches prompt i id p w
    exact ⟨used, last, log, result, w', run, exchanged, sleeps, watch,
      Nat.succ_le_succ (watch.length_le pos), watch.slept_lt pos, ends, ends.count_delete,
      ends.exists_report_iff⟩
  · intro s c w served
    have prompt : c.service.Prompt := served ▸ service_prompt s
    obtain ⟨used, last, log, result, w', run, exchanged, -, -, ends⟩ :=
      deleteBackup_watches prompt i id p w
    obtain ⟨log', _, _, run', exchanged', concerns⟩ := deleteBackup_follows c i id p w
    obtain ⟨rfl, rfl⟩ := Prod.mk.inj (Option.some.inj (run.symm.trans run'))
    rw [served] at exchanged exchanged'
    have alike := alike_of_exchanged exchanged' concerns.2
    exact ⟨result, w', run, fun report => get?_of_report exchanged ends,
      get?_of_timeout exchanged ends, alike.backups, alike.databases⟩

/-- A service whose backups are free from their second read on. -/
def secondRead : Script := { now := ⟨0, 0⟩, referencesClearAfter := some 1 }

/-- The world of a service with a ready backup that a database refers to. -/
def referenced (i : Instance) (database backup : String) : World Store :=
  { service := ({} : Store).insertBackup { name := i.backupName backup, state := .ready,
                                           referencingDatabases := [i.databaseName database] }
    start := ⟨0, 0⟩ }

/-- The first read finds a database, and the second one, half a minute later, does not. -/
theorem deleteBackup_settles_secondRead :
    let c : Client Store := { service := service secondRead }
    let i : Instance := ⟨"p", "i"⟩
    let w := referenced i "db1" "b1"
    c.service = service secondRead ∧ c.service.Prompt ∧
      ∃ b last log w', (Workflow.deleteBackup c i "b1" {}).run w =
          some (.ok ⟨i.backupName "b1"⟩, w') ∧
        w.Exchanged c.service
          (readings (i.backupName "b1") (Duration.ofSeconds 30) 0 [.ok b, last] ++ log) w' ∧
        b.referencingDatabases ≠ [] ∧ w'.service.backups.get? (i.backupName "b1") = none := by
  intro c i w
  have prompt : c.service.Prompt := service_prompt secondRead
  obtain ⟨-, always, memory⟩ := deleteBackup_settles i "b1" {}
  obtain ⟨used, last, log, result, w', run, exchanged, sleeps, watch, -⟩ := always c w prompt
  obtain ⟨_, _, run', gone, -⟩ := memory secondRead c w rfl
  obtain ⟨rfl, rfl⟩ := Prod.mk.inj (Option.some.inj (run.symm.trans run'))
  have ended : ((Workflow.deleteBackup c i "b1" {}).run w).map
      (fun x => (x.1.toOption, x.2.sleeps)) =
        some (some ⟨i.backupName "b1"⟩, [Duration.ofSeconds 30]) := by decide +kernel
  rw [run, Option.map_some] at ended
  obtain ⟨reported, slept⟩ := Prod.mk.inj (Option.some.inj ended)
  obtain ⟨b, rfl⟩ : ∃ b, used = [b] := by
    have count := congrArg List.length (sleeps.symm.trans slept)
    exact List.length_eq_one_iff.1 (by simpa [w, referenced, World.sleeps] using count)
  cases result with
  | error e => contradiction
  | ok report =>
    obtain rfl := Option.some.inj reported
    exact ⟨rfl, prompt, b, last, log, w', run, exchanged, watch.referenced b (by simp), gone _ rfl⟩

end BackupAdmin.Memory
