import BackupAdmin.Proofs.Memory.DatabaseTask
import BackupAdmin.Proofs.Memory.Making

/-! Restoring a database on a service in memory. Main statement: the script of the service and the
time there is for polls decide how it ends, and the database, its backup and what is shown of
optimizations fit each other whichever way it does. -/
namespace BackupAdmin.Memory
open Workflow

/-- What an instance shows of the optimizations of its databases. -/
def Shows (c : Client Store) (i : Instance) (w : World Store) (shown : List OptimizeProgress) :
    Prop :=
  ∃ w', (listDatabaseOperations c i).run w = some (.ok ⟨shown⟩, w') ∧ w'.service = w.service

/-- How restoring a database from `b` ends when there is time for so many polls, where `shown` is
what was shown of optimizations before. -/
inductive RestoreEnd (s : Script) (c : Client Store) (i : Instance) (polls : Nat)
    (timeout : Duration) (operation id : String) (key : Option String) (b : Backup)
    (shown : List OptimizeProgress) (w w' : World Store) : Except AdminError RestoreReport → Prop
  | restored {k : Nat} {d : Database} (completion : s.completion = .afterPolls k)
      (in_time : k ≤ polls) (fine : s.failure = none)
      (there : w'.service.databases.get? (i.databaseName id) = some d)
      (state : d.state = "READY_OPTIMIZING")
      (refers : w'.service.backups.get? b.name = some
        { b with referencingDatabases := b.referencingDatabases ++ [i.databaseName id] })
      (shows : Shows c i w' (shown ++ [⟨i.databaseName id, 50⟩])) :
      RestoreEnd s c i polls timeout operation id key b shown w w'
        (.ok { databaseId := id, sourceDatabase := b.database, backup := b.name
               versionTime := b.versionTime, kmsKeyName := key })
  | cancelled {k : Nat} {e : OperationError} (completion : s.completion = .afterPolls k)
      (in_time : k ≤ polls) (fault : s.failure = some e) (code : e.code = 1)
      (gone : w'.service.databases.get? (i.databaseName id) = none)
      (backups : w'.service.backups = w.service.backups) (shows : Shows c i w' shown) :
      RestoreEnd s c i polls timeout operation id key b shown w w'
        (.error (.operationCancelled operation))
  | failed {k : Nat} {e : OperationError} (completion : s.completion = .afterPolls k)
      (in_time : k ≤ polls) (fault : s.failure = some e) (code : e.code ≠ 1)
      (gone : w'.service.databases.get? (i.databaseName id) = none)
      (backups : w'.service.backups = w.service.backups) (shows : Shows c i w' shown) :
      RestoreEnd s c i polls timeout operation id key b shown w w'
        (.error (.operationFailed e.code e.message))
  | timedOut {d : Database} {j : Nat} {t : Task}
      (late : ∀ k, s.completion = .afterPolls k → polls < k)
      (there : w'.service.databases.get? (i.databaseName id) = some d)
      (state : d.state = "CREATING") (found : w'.service.find? operation = some (j, t))
      (pending : t.operation.done = false)
      (backups : w'.service.backups = w.service.backups) (shows : Shows c i w' shown) :
      RestoreEnd s c i polls timeout operation id key b shown w w' (.error (.timeout timeout))

/-- Nothing but a database, the backup that it comes from and operations behind those there were is
touched, and nobody was asked to cancel an operation. -/
structure Spared (database backup : String) (w w' : World Store) : Prop where
  databases : ∀ k, k ≠ database → w'.service.databases.get? k = w.service.databases.get? k
  backups : ∀ k, k ≠ backup → w'.service.backups.get? k = w.service.backups.get? k
  tasks : w.service.tasks <+: w'.service.tasks
  calls : ∃ new, w'.calls = w.calls ++ new ∧ ∀ operation, .cancelOperation operation ∉ new

section
variable {s : Script} {c : Client Store} {i : Instance} {w w₁ w₂ w' : World Store} {h : Handle}
  {id name : String} {key : Option String} {b : Backup} {d : Option Database} {t : Task}
  {rest : List Task} {backups : Catalog Backup}

/-- What is shown of optimizations beside an operation: what was shown before, and those among the
operations behind it. -/
theorem Alongside.shows (service : s.Serves c.service) (i : Instance)
    (h : Alongside w.service name d backups t rest w'.service) :
    Shows c i w' ((w.service.tasks.map (·.operation)).filterMap (optimizing? i) ++
      (rest.map (·.operation)).filterMap (optimizing? i)) := by
  rw [← h.optimizations_eq i]
  exact run_listDatabaseOperations service i w'

/-- The optimization of a database is shown by the instance of the database. -/
theorem optimizing?_optimization (s : Script) (i : Instance) (id : String) (n : Nat) :
    optimizing? i (s.optimization (i.databaseName id) n).operation =
      some ⟨i.databaseName id, 50⟩ := by
  have own : i.owns (i.databaseName id ++ "/operations/optimize-" ++ toString n) = true := by
    simp [Instance.owns, Instance.databaseName]
  exact if_pos own

theorem run_getDatabase {d : Database} (service : s.Serves c.service)
    (found : w.service.databases.get? name = some d) :
    ∃ w', (Session.call c.service (.getDatabase name)).run w = some (.ok d, w') ∧
      w'.service = w.service ∧ w'.calls = w.calls ++ [.getDatabase name] := by
  have reply : c.service.answer (.getDatabase name) w.service = ⟨.ok d, w.service, 0⟩ := by
    refine (service (.getDatabase name) _ trivial).trans ?_
    change getDatabase name w.service = _
    rw [getDatabase, found]
  refine ⟨w.after (.getDatabase name) ⟨.ok d, w.service, 0⟩, ?_, rfl, World.after_calls ..⟩
  rw [Session.run_call, reply]

/-- A restore that was accepted is under way, on a database of its own. -/
theorem submit_restores (service : s.Serves c.service) (reachable : Reachable s w.service)
    (accepted : (c.submit i (.restoreDatabase id name (key.map .ofKey))).run w =
      some (.ok h, w₁)) :
    ∃ b t, w.service.backups.get? name = some b ∧ b.name = name ∧
      w.service.databases.get? (i.databaseName id) = none ∧ h.target = i.databaseName id ∧
      Alongside w.service (i.databaseName id) (some (s.restoring (i.databaseName id) key b))
        w.service.backups t [] w₁.service ∧
      t.UnderWay h.name (.restore (i.databaseName id) name) 0 := by
  obtain ⟨o, target, named, answer, state, -, -⟩ := submit_answered service accepted
  obtain ⟨b, st', made, found, free, begun⟩ := Script.submit_restoreDatabase_ok answer
  have own : b.name = name := reachable.titled.backups name b found
  have key_eq : (key.map EncryptionConfig.ofKey).bind (·.kmsKeyName) = key := by
    cases key <;> rfl
  rw [key_eq] at begun
  rw [made] at state
  have work : Metadata.restoreDatabaseType ≠ Metadata.optimizeRestoredType := by decide +kernel
  obtain ⟨t, alongside, way⟩ := reachable.alongside begun work
  refine ⟨b, t, found, own, free, ?_, state.symm ▸ alongside, ?_⟩
  · injection target with target
    exact target.symm
  · rw [own] at way
    exact named ▸ way

/-- What a restore leaves as it is. -/
theorem Alongside.spared {polls : Nat} {r : Request} {operation backup : String}
    {reads : List Call} (h : Alongside w.service name d backups t rest w'.service)
    (kept : ∀ k, k ≠ backup → backups.get? k = w.service.backups.get? k)
    (calls : w₂.calls = w.calls ++ .submit i r :: List.replicate polls (.getOperation operation))
    (read : w'.calls = w₂.calls ++ reads) (only : ∀ operation, .cancelOperation operation ∉ reads) :
    Spared name backup w w' :=
  ⟨fun _ ne => h.get?_ne ne, fun k ne => h.backups ▸ kept k ne, ⟨t :: rest, h.tasks.symm⟩,
    uncancelled_of_completed calls read only⟩

end

/-- A restore whose request is accepted ends as the script of the service says, where its counters
have room for the polls. Within those that there is time for, the database is there, it is reported
with what its backup had when the request was made, its name stands behind those that referred to the
backup before, and one optimization more is shown, the last one; or the database is gone with the
scripted error, and nothing refers to it. Otherwise the database is still being created when the time
is up. All other databases and backups and all earlier operations are as before, and nobody was asked
to cancel. -/
theorem restoreDatabase_settles {s : Script} {c : Client Store} (service : s.Serves c.service)
    (i : Instance) (p : Polling) {w : World Store} (reachable : Reachable s w.service)
    (id backup : String) (key : Option String) {h : Handle} {w₁ : World Store}
    (accepted : (c.submit i (.restoreDatabase id (i.backupName backup) (key.map .ofKey))).run w =
      some (.ok h, w₁))
    (counts : s.Counts (Duration.ofSeconds p.restoreTimeout ⌈/⌉ c.pollInterval + 1)) :
    let timeout := Duration.ofSeconds p.restoreTimeout
    ∃ b shown result w', w.service.backups.get? (i.backupName backup) = some b ∧
      b.name = i.backupName backup ∧ Shows c i w shown ∧
      (restoreDatabase c i id backup key p).run w = some (result, w') ∧
      RestoreEnd s c i (timeout ⌈/⌉ c.pollInterval + 1) timeout h.name id key b shown w w' result ∧
      Spared (i.databaseName id) (i.backupName backup) w w' := by
  intro timeout
  obtain ⟨b, t, found, own, absent, target, alongside, way⟩ :=
    submit_restores service reachable accepted
  obtain ⟨t', w₂, polls, calls, completed⟩ := (Alongside.pursues s w.service h.name
    (s.restoring (i.databaseName id) key b) (.restored (i.backupName backup))).complete service
      (service.follows counts) accepted ⟨way, alongside⟩
  refine ⟨b, (w.service.tasks.map (·.operation)).filterMap (optimizing? i), ?_⟩
  by_cases in_time : s.completes (timeout ⌈/⌉ c.pollInterval + 1) = true
  · rw [if_pos in_time] at completed
    obtain ⟨run, -, leaves⟩ := completed
    obtain ⟨k, completion, le⟩ := Script.completes_iff.1 in_time
    unfold Script.completion? at run
    cases leaves with
    | restored fine n left =>
      rw [fine] at run
      obtain ⟨w', read, stays, calls'⟩ := run_getDatabase service left.get?_eq
      have left' := stays.symm ▸ left
      have kept : ∀ k, k ≠ i.backupName backup → (w.service.backups.modify (i.backupName backup)
          (refer (i.databaseName id))).get? k = w.service.backups.get? k := fun k ne => by
        rw [Catalog.get?_modify, if_neg ne]
      have shows := left'.shows service i
      rw [List.map_singleton, List.filterMap_cons, optimizing?_optimization] at shows
      have refers : w'.service.backups.get? (i.backupName backup) =
          some (refer (i.databaseName id) b) := by
        rw [left'.backups, Catalog.get?_modify, if_pos rfl, found, Option.map_some]
      refine ⟨_, w', found, own, run_listDatabaseOperations service i w, ?_,
        .restored completion le fine left'.get?_eq rfl ((congrArg _ own).trans refers) shows,
        left'.spared kept calls calls' (by simp)⟩
      rw [restoreDatabase, Session.run_bind_ok run, target, Session.run_bind_ok read]
      cases key <;> rfl
    | @failed effect e fault left =>
      rw [fault] at run
      refine ⟨_, w₂, found, own, run_listDatabaseOperations service i w,
        Session.run_bind_error run, ?_,
        left.spared (fun k _ => rfl) calls (List.append_nil _).symm (by simp)⟩
      have shows := left.shows service i
      rw [List.map_nil, List.filterMap_nil, List.append_nil] at shows
      split
      case isTrue code => exact .cancelled completion le fault code left.get?_eq left.backups shows
      case isFalse code => exact .failed completion le fault code left.get?_eq left.backups shows
  · rw [if_neg in_time] at completed
    obtain ⟨run, way', left⟩ := completed
    have there := way'.name ▸ left.holds.find?
    have shows := left.shows service i
    rw [List.map_nil, List.filterMap_nil, List.append_nil] at shows
    refine ⟨_, w₂, found, own, run_listDatabaseOperations service i w, Session.run_bind_error run,
      .timedOut (fun k => Script.lt_of_not_completes in_time) left.get?_eq rfl there way'.pending
        left.backups shows,
      left.spared (fun k _ => rfl) calls (List.append_nil _).symm (by simp)⟩

/-- Twenty seconds are time for three polls at an interval of ten; ten seconds are not. -/
theorem restoreDatabase_settles_thirdPoll :
    let c : Client Store := { service := service thirdPoll }
    let i : Instance := ⟨"p", "i"⟩
    let w := stocked thirdPoll i "db1" "b1"
    thirdPoll.Serves c.service ∧ Reachable thirdPoll w.service ∧
      thirdPoll.Counts (Duration.ofSeconds 20 ⌈/⌉ c.pollInterval + 1) ∧
      (∃ h w₁, (c.submit i (.restoreDatabase "db2" (i.backupName "b1")
        ((some "k").map .ofKey))).run w = some (.ok h, w₁)) ∧
      (∃ report d w', (restoreDatabase c i "db2" "b1" (some "k") { restoreTimeout := 20 }).run w =
          some (.ok report, w') ∧ report.kmsKeyName = some "k" ∧
        w'.service.databases.get? (i.databaseName "db2") = some d ∧
        d.state = "READY_OPTIMIZING" ∧ Spared (i.databaseName "db2") (i.backupName "b1") w w') ∧
      ∃ d w', (restoreDatabase c i "db2" "b1" (some "k") { restoreTimeout := 10 }).run w =
          some (.error (.timeout (Duration.ofSeconds 10)), w') ∧
        w'.service.databases.get? (i.databaseName "db2") = some d ∧ d.state = "CREATING" ∧
        w'.service.backups = w.service.backups := by
  intro c i w
  have service : thirdPoll.Serves c.service := thirdPoll.serves_service
  have reachable : Reachable thirdPoll w.service := .insertBackup (.insertDatabase .new _) _
  have counts : thirdPoll.Counts (Duration.ofSeconds 20 ⌈/⌉ c.pollInterval + 1) :=
    (Script.counts_afterPolls rfl).2 (by decide)
  have accepted : ∃ h w₁, (c.submit i (.restoreDatabase "db2" (i.backupName "b1")
      ((some "k").map .ofKey))).run w = some (.ok h, w₁) :=
    exists_accepted ⟨i.databaseName "db2" ++ "/operations/op-1", .restoreDatabase,
      i.databaseName "db2"⟩ (by decide +kernel)
  refine ⟨service, reachable, counts, accepted, ?_, ?_⟩
  · obtain ⟨h, w₁, accepted⟩ := accepted
    obtain ⟨b, shown, result, w', found, own, -, run, ends, spared⟩ :=
      restoreDatabase_settles service i { restoreTimeout := 20 } reachable "db2" "b1" (some "k")
        accepted counts
    cases ends with
    | restored completion in_time fine there state => exact ⟨_, _, w', run, rfl, there, state, spared⟩
    | cancelled completion in_time fault | failed completion in_time fault => contradiction
    | timedOut late =>
      have three : ¬ Duration.ofSeconds 20 ⌈/⌉ Duration.ofSeconds 10 + 1 < 3 := by decide
      exact absurd (late 3 rfl) three
  · obtain ⟨h, w₁, accepted⟩ := accepted
    have shorter : Duration.ofSeconds 10 ⌈/⌉ c.pollInterval + 1 ≤
        Duration.ofSeconds 20 ⌈/⌉ c.pollInterval + 1 := by decide
    obtain ⟨b, shown, result, w', found, own, -, run, ends, spared⟩ :=
      restoreDatabase_settles service i { restoreTimeout := 10 } reachable "db2" "b1" (some "k")
        accepted (counts.mono shorter)
    have two : ¬ 3 ≤ Duration.ofSeconds 10 ⌈/⌉ Duration.ofSeconds 10 + 1 := by decide
    cases ends with
    | timedOut late there state pending free backups => exact ⟨_, w', run, there, state, backups⟩
    | restored completion in_time | cancelled completion in_time | failed completion in_time =>
      cases completion
      exact absurd in_time two

end BackupAdmin.Memory
