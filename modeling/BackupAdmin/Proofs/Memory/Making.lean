import BackupAdmin.Proofs.Memory.Completion

/-! Making a backup, anew or as a copy, on a service in memory. Main statement: the script of the
service and the time there is for polls decide how it ends, and nothing but the backup and its
operation is touched. -/
namespace BackupAdmin.Memory
open Workflow

/-- A finished backup has what was asked for, and for the rest what the service gives it. -/
structure Finished (s : Script) (asked b : Backup) : Prop where
  name : b.name = asked.name
  database : b.database = asked.database
  state : b.state = .ready
  expireTime : b.expireTime = asked.expireTime
  sizeBytes : b.sizeBytes = backupSize
  createTime : b.createTime = some s.now
  versionTime : b.versionTime = some (asked.versionTime.getD s.now)

/-- How making a backup ends when there is time for so many polls, where `asked` is put in place at
the beginning, and the backup in the end is reported with its key or its source. -/
inductive MakeEnd (s : Script) (polls : Nat) (timeout : Duration) (operation : String)
    (asked : Backup) (key source : Option String) (st : Store) :
    Except AdminError BackupReport → Prop
  | ready {k : Nat} {b : Backup} (completion : s.completion = .afterPolls k) (in_time : k ≤ polls)
      (fine : s.failure = none) (found : st.backups.get? asked.name = some b)
      (finished : Finished s asked b) :
      MakeEnd s polls timeout operation asked key source st
        (.ok { name := b.name, sizeBytes := b.sizeBytes, createTime := b.createTime
               versionTime := b.versionTime, expireTime := b.expireTime
               kmsKeyName := key, sourceBackup := source })
  | cancelled {k : Nat} {e : OperationError} (completion : s.completion = .afterPolls k)
      (in_time : k ≤ polls) (fault : s.failure = some e) (code : e.code = 1)
      (gone : st.backups.get? asked.name = none) :
      MakeEnd s polls timeout operation asked key source st
        (.error (.operationCancelled operation))
  | failed {k : Nat} {e : OperationError} (completion : s.completion = .afterPolls k)
      (in_time : k ≤ polls) (fault : s.failure = some e) (code : e.code ≠ 1)
      (gone : st.backups.get? asked.name = none) :
      MakeEnd s polls timeout operation asked key source st
        (.error (.operationFailed e.code e.message))
  | timedOut {i : Nat} {t : Task} (late : ∀ k, s.completion = .afterPolls k → polls < k)
      (found : st.backups.get? asked.name = some asked)
      (there : st.find? operation = some (i, t)) (pending : t.operation.done = false) :
      MakeEnd s polls timeout operation asked key source st (.error (.timeout timeout))

/-- Nothing but the backup under a name and operations behind those there were is touched, and
nobody was asked to cancel an operation. -/
structure Untouched (name : String) (w w' : World Store) : Prop where
  backups : ∀ k, k ≠ name → w'.service.backups.get? k = w.service.backups.get? k
  databases : w'.service.databases = w.service.databases
  tasks : w.service.tasks <+: w'.service.tasks
  calls : ∃ new, w'.calls = w.calls ++ new ∧ ∀ operation, .cancelOperation operation ∉ new

section
variable {s : Script} {c : Client Store} {i : Instance} {r : Request} {h : Handle} {b : Backup}
  {encryption : Option EncryptionConfig} {o : Operation} {w w₁ : World Store}

/-- A backup that is finished is read back. -/
theorem readyBackup_run {st₀ : Store} {name : String} {t : Task} (service : s.Serves c.service)
    (reads : w.service.readCount name + 1 < UInt32.size)
    (apart : Apart st₀ name (some b) t w.service) (ready : b.state = .ready) (free : b.referencingDatabases = []) :
    ∃ w', (readyBackup c name).run w = some (.ok b, w') ∧ Apart st₀ name (some b) t w'.service ∧
      w'.calls = w.calls ++ [.getBackup name] := by
  obtain ⟨st', answer, apart'⟩ := apart.getBackup (s := s) (by simpa using free)
  have reply : c.service.answer (.getBackup name) w.service = ⟨.ok b, st', 0⟩ :=
    (service (.getBackup name) _ reads).trans answer
  have called : (Session.call c.service (.getBackup name)).run w =
      some (.ok b, w.after (.getBackup name) ⟨.ok b, st', 0⟩) := by
    rw [Session.run_call, reply]
  refine ⟨w.after (.getBackup name) ⟨.ok b, st', 0⟩, (Session.run_bind_ok called).trans ?_, apart',
    World.after_calls ..⟩
  rw [if_pos (by simp [Backup.isReady, ready])]
  rfl

theorem untouched_of_apart {name operation : String} {left : Option Backup} {t : Task}
    {polls : Nat} {reads : List Call} {w₂ w' : World Store}
    (apart : Apart w.service name left t w'.service)
    (calls : w₂.calls = w.calls ++ .submit i r :: List.replicate polls (.getOperation operation))
    (read : w'.calls = w₂.calls ++ reads) (only : ∀ operation, .cancelOperation operation ∉ reads) :
    Untouched name w w' := by
  obtain ⟨rest, behind⟩ := apart.holds.tasks
  exact ⟨fun k ne => apart.get?_ne ne, apart.databases, ⟨t :: rest, behind.symm⟩,
    uncancelled_of_completed calls read only⟩

theorem finished_readyBackup (s : Script) (encryption : Option EncryptionConfig) (b : Backup) :
    Finished s b (s.readyBackup encryption b) := ⟨rfl, rfl, rfl, rfl, rfl, rfl, rfl⟩

/-- A workflow that completes an operation for a backup and reads it back ends as scripted. -/
theorem make_settles (service : s.Serves c.service) (reachable : Reachable s w.service)
    {timeout : Duration} (counts : s.Counts (timeout ⌈/⌉ c.pollInterval + 1))
    {report : Backup → BackupReport} {key source : Option String}
    (told : ∀ b, report b =
      ⟨b.name, b.sizeBytes, b.createTime, b.versionTime, b.expireTime, key, source⟩)
    (accepted : (c.submit i r).run w = some (.ok h, w₁))
    (reads : w.service.readCount b.name + 1 < UInt32.size) (named : r.target i = .ok b.name)
    (free : b.referencingDatabases = [])
    (places : ∀ o, (s.submit i r w.service).result = .ok o →
      s.Places i r w.service b encryption o) :
    ∃ result w', (complete c i r timeout >>= fun h => readyBackup c h.target >>= fun b =>
        pure (report b)).run w = some (result, w') ∧
      MakeEnd s (timeout ⌈/⌉ c.pollInterval + 1) timeout h.name b key source w'.service result ∧
      Untouched b.name w w' := by
  obtain ⟨o, target, answer, -, -, makes⟩ := submit_makes service reachable accepted
  obtain ⟨absent, t, apart, makes⟩ := makes b encryption (places o answer)
  obtain ⟨t', w₂, polls, calls, completed⟩ :=
    ((Apart.pursues s w.service h.name b.name encryption b).keeping w.service).complete service
      (service.follows counts) accepted ⟨⟨makes, apart⟩, submit_sameCounts service accepted⟩
  have target_eq : h.target = b.name := by
    rw [target] at named
    injection named
  by_cases in_time : s.completes (timeout ⌈/⌉ c.pollInterval + 1) = true
  · rw [if_pos in_time] at completed
    obtain ⟨run, ⟨ended, apart'⟩, same⟩ := completed
    obtain ⟨k, completion, le⟩ := Script.completes_iff.1 in_time
    unfold Script.completion? at run
    unfold Script.left at apart'
    cases fault : s.failure with
    | none =>
      rw [fault] at run apart'
      rw [← same.readCount_eq] at reads
      obtain ⟨w', read, apart'', calls'⟩ := readyBackup_run service reads apart' rfl free
      refine ⟨_, w', ?_, .ready completion le fault apart''.get?_eq (finished_readyBackup s _ b),
        untouched_of_apart apart'' calls calls' (by simp)⟩
      rw [Session.run_bind_ok run, target_eq, Session.run_bind_ok read, told]
      rfl
    | some e =>
      rw [fault] at run apart'
      have untouched := untouched_of_apart apart' calls (List.append_nil _).symm (by simp)
      refine ⟨_, w₂, Session.run_bind_error run, ?_, untouched⟩
      split
      case isTrue code => exact .cancelled completion le fault code apart'.get?_eq
      case isFalse code => exact .failed completion le fault code apart'.get?_eq
  · rw [if_neg in_time] at completed
    obtain ⟨run, ⟨makes', apart'⟩, -⟩ := completed
    have there := makes'.name ▸ apart'.holds.find?
    exact ⟨_, w₂, Session.run_bind_error run, .timedOut
      (fun k => Script.lt_of_not_completes in_time) apart'.get?_eq there makes'.pending,
      untouched_of_apart apart' calls (List.append_nil _).symm (by simp)⟩

end

/-- Creating a backup and copying one end as the script of the service says, whenever the request is
accepted and the counters have room for the polls and for one more read of the backup: within the
polls that there is time for the backup is ready and reported as it is, or it is gone with the
scripted error; otherwise it is still being made when the time is up. All other backups, all
databases and all earlier operations are as before, and nobody was asked to cancel. -/
theorem makeBackup_settles {s : Script} {c : Client Store} (service : s.Serves c.service)
    (i : Instance) (p : Polling) {w : World Store} (reachable : Reachable s w.service)
    (counts : s.Counts (Duration.ofSeconds p.backupTimeout ⌈/⌉ c.pollInterval + 1)) :
    let timeout := Duration.ofSeconds p.backupTimeout
    let polls := timeout ⌈/⌉ c.pollInterval + 1
    let expire := w.now.plusDays 14
    (∀ (database id : String) (version : Option Instant) (key : Option String) (h : Handle)
      (w₁ : World Store),
      (c.submit i (.createBackup id (i.databaseName database) expire version
        (key.map .ofKey))).run w = some (.ok h, w₁) →
      w.service.readCount (i.backupName id) + 1 < UInt32.size →
      ∃ result w', (createBackup c i database id version key p).run w = some (result, w') ∧
        MakeEnd s polls timeout h.name
          { name := i.backupName id, database := i.databaseName database, expireTime := some expire
            versionTime := version, state := .creating }
          key none w'.service result ∧
        Untouched (i.backupName id) w w') ∧
    ∀ (id source : String) (h : Handle) (w₁ : World Store),
      (c.submit i (.copyBackup id source expire none)).run w = some (.ok h, w₁) →
      w.service.readCount (i.backupName id) + 1 < UInt32.size →
      ∃ src result w', w.service.backups.get? source = some src ∧
        (copyBackup c i id source p).run w = some (result, w') ∧
        MakeEnd s polls timeout h.name
          { name := i.backupName id, database := src.database, expireTime := some expire
            versionTime := src.versionTime, state := .creating }
          none (some source) w'.service result ∧
        Untouched (i.backupName id) w w' := by
  intro timeout polls expire
  refine ⟨fun database id version key h w₁ accepted reads => ?_,
    fun id source h w₁ accepted reads => ?_⟩
  · obtain ⟨result, w', run, ends, untouched⟩ := make_settles service reachable counts
      (fun b => rfl) accepted reads rfl rfl fun o answer => Script.submit_createBackup_ok answer
    exact ⟨result, w', (Session.run_bind_ok (Session.run_now w)).trans run, ends, untouched⟩
  · obtain ⟨o, -, answer, -⟩ := submit_makes service reachable accepted
    obtain ⟨src, found, -⟩ := Script.submit_copyBackup_ok answer
    have places (o : Operation) (answer : (s.submit i (.copyBackup id source expire none)
        w.service).result = .ok o) : s.Places i (.copyBackup id source expire none) w.service
          { name := i.backupName id, database := src.database, expireTime := some expire
            versionTime := src.versionTime, state := .creating } none o := by
      obtain ⟨src', found', places⟩ := Script.submit_copyBackup_ok answer
      obtain rfl : src' = src := Option.some.inj (found'.symm.trans found)
      exact places
    obtain ⟨result, w', run, ends, untouched⟩ := make_settles service reachable counts
      (fun b => rfl) accepted reads rfl rfl places
    exact ⟨src, result, w', found, (Session.run_bind_ok (Session.run_now w)).trans run, ends,
      untouched⟩

/-- A service that ends operations at their third poll. -/
def thirdPoll : Script := { now := ⟨0, 0⟩, completion := .afterPolls 3 }

/-- The world of a service with a database and a ready backup. -/
def stocked (s : Script) (i : Instance) (database backup : String) : World Store :=
  { service := (({} : Store).insertDatabase s.now (i.databaseName database)).insertBackup
      { name := i.backupName backup, state := .ready }
    start := s.now }

/-- Twenty seconds are time for three polls at an interval of ten; ten seconds are not. -/
theorem makeBackup_settles_thirdPoll :
    let c : Client Store := { service := service thirdPoll }
    let i : Instance := ⟨"p", "i"⟩
    let w := stocked thirdPoll i "db1" "b1"
    thirdPoll.Serves c.service ∧ Reachable thirdPoll w.service ∧
      thirdPoll.Counts (Duration.ofSeconds 20 ⌈/⌉ c.pollInterval + 1) ∧
      w.service.readCount (i.backupName "b2") + 1 < UInt32.size ∧
      (∃ h w₁, (c.submit i (.createBackup "b2" (i.databaseName "db1") (w.now.plusDays 14) none
        none)).run w = some (.ok h, w₁)) ∧
      (∃ h w₁, (c.submit i (.copyBackup "b2" (i.backupName "b1") (w.now.plusDays 14) none)).run w =
        some (.ok h, w₁)) ∧
      (∃ b w', (createBackup c i "db1" "b2" none none { backupTimeout := 20 }).run w =
          some (.ok { name := i.backupName "b2", sizeBytes := 2048, createTime := some ⟨0, 0⟩
                      versionTime := some ⟨0, 0⟩, expireTime := some (w.now.plusDays 14) }, w') ∧
        w'.service.backups.get? (i.backupName "b2") = some b ∧ b.state = .ready) ∧
      ∃ b w', (copyBackup c i "b2" (i.backupName "b1") { backupTimeout := 10 }).run w =
          some (.error (.timeout (Duration.ofSeconds 10)), w') ∧
        w'.service.backups.get? (i.backupName "b2") = some b ∧ b.state = .creating := by
  intro c i w
  have service : thirdPoll.Serves c.service := thirdPoll.serves_service
  have reachable : Reachable thirdPoll w.service := .insertBackup (.insertDatabase .new _) _
  have counts : thirdPoll.Counts (Duration.ofSeconds 20 ⌈/⌉ c.pollInterval + 1) :=
    (Script.counts_afterPolls rfl).2 (by decide)
  have one : 0 + 1 < UInt32.size := by decide
  have created : ∃ h w₁, (c.submit i (.createBackup "b2" (i.databaseName "db1")
      (w.now.plusDays 14) none none)).run w = some (.ok h, w₁) :=
    exists_accepted ⟨i.backupName "b2" ++ "/operations/op-1", .createBackup, i.backupName "b2"⟩
      (by decide +kernel)
  have copied : ∃ h w₁, (c.submit i (.copyBackup "b2" (i.backupName "b1")
      (w.now.plusDays 14) none)).run w = some (.ok h, w₁) :=
    exists_accepted ⟨i.backupName "b2" ++ "/operations/op-1", .copyBackup, i.backupName "b2"⟩
      (by decide +kernel)
  refine ⟨service, reachable, counts, one, created, copied, ?_, ?_⟩
  · obtain ⟨h, w₁, accepted⟩ := created
    obtain ⟨result, w', run, ends, -⟩ :=
      (makeBackup_settles service i { backupTimeout := 20 } reachable counts).1 "db1" "b2" none none
        h w₁ accepted one
    cases ends with
    | ready completion in_time fine found finished =>
      rw [finished.name, finished.sizeBytes, finished.createTime, finished.versionTime,
        finished.expireTime] at run
      exact ⟨_, w', run, found, finished.state⟩
    | cancelled completion in_time fault | failed completion in_time fault => contradiction
    | timedOut late =>
      have three : ¬ Duration.ofSeconds 20 ⌈/⌉ Duration.ofSeconds 10 + 1 < 3 := by decide
      exact absurd (late 3 rfl) three
  · obtain ⟨h, w₁, accepted⟩ := copied
    have shorter : Duration.ofSeconds 10 ⌈/⌉ c.pollInterval + 1 ≤
        Duration.ofSeconds 20 ⌈/⌉ c.pollInterval + 1 := by decide
    obtain ⟨src, result, w', -, run, ends, -⟩ :=
      (makeBackup_settles service i { backupTimeout := 10 } reachable (counts.mono shorter)).2 "b2"
        (i.backupName "b1") h w₁ accepted one
    have two : ¬ 3 ≤ Duration.ofSeconds 10 ⌈/⌉ Duration.ofSeconds 10 + 1 := by decide
    cases ends with
    | timedOut late found => exact ⟨_, w', run, found, rfl⟩
    | ready completion in_time | cancelled completion in_time | failed completion in_time =>
      cases completion
      exact absurd in_time two

end BackupAdmin.Memory
