import BackupAdmin.Proofs.Memory.Refusal
import BackupAdmin.Proofs.Memory.Restoring
import BackupAdmin.Proofs.Memory.Statements
import Mathlib.Data.List.TakeWhile

/-! Creating a database with a retention period, reporting it and dropping it again, on a service in
memory. Main statement: what is reported is what was asked for, and no trace of the database is
left. -/
namespace BackupAdmin.Memory
open Workflow

/-- A backup to which a database that was dropped refers no more. -/
def forget (name : String) (b : Backup) : Backup :=
  { b with referencingDatabases := b.referencingDatabases.filter (· ≠ name) }

/-- A period up to the first quote in it. -/
def unquoted (period : String) : String := String.ofList (period.toList.takeWhile (· ≠ '\''))

theorem unquoted_eq_iff {period : String} : unquoted period = period ↔ '\'' ∉ period.toList := by
  rw [unquoted, ← String.toList_inj, String.toList_ofList, List.takeWhile_eq_self_iff]
  constructor
  · intro all mem
    simpa using all _ mem
  · intro absent c mem
    simpa using fun same : c = '\'' => absent (same ▸ mem)

section
variable {s : Script} {c : Client Store} {i : Instance} {w w₁ : World Store} {h : Handle}
  {id period name : String} {d : Database} {p : Polling}

/-- A request with a statement that was accepted is under way, on a database of its own, when client
and service read the same id in it. -/
theorem submit_creates {statement : String} {extra : List String}
    (service : s.Serves c.service) (reachable : Reachable s w.service)
    (read : Request.statementId? statement = some id) (last : Script.lastWord statement = id)
    (asked : Script.retentionPeriod extra = some period)
    (accepted : (c.submit i (.createDatabase statement extra)).run w = some (.ok h, w₁)) :
    ∃ t, w.service.databases.get? (i.databaseName id) = none ∧ h.target = i.databaseName id ∧
      Alongside w.service (i.databaseName id) (some (s.creating (i.databaseName id) period))
        w.service.backups t [] w₁.service ∧
      t.UnderWay h.name (.createDatabase (i.databaseName id)) 0 := by
  obtain ⟨o, target, named, answer, state, -, -⟩ := submit_answered service accepted
  obtain ⟨st', made, free, begun⟩ := Script.submit_createDatabase_ok answer
  rw [made] at state
  rw [last] at free begun
  rw [asked] at begun
  have work : Metadata.createDatabaseType ≠ Metadata.optimizeRestoredType := by decide +kernel
  obtain ⟨t, alongside, way⟩ := reachable.alongside begun work
  refine ⟨t, free, ?_, state.symm ▸ alongside, named ▸ way⟩
  rw [Request.target, read] at target
  exact (Except.ok.inj target).symm

theorem run_dropDatabase (service : s.Serves c.service)
    (found : w.service.databases.get? name = some d) :
    ∃ w', (Session.call c.service (.dropDatabase name)).run w = some (.ok (), w') ∧
      w'.service.databases = w.service.databases.erase name ∧
      w'.service.backups = w.service.backups.mapValues fun _ => forget name := by
  have there : w.service.databases.contains name = true := by
    rw [Catalog.contains, found]
    rfl
  let dropped : Store := { w.service with
    databases := w.service.databases.erase name
    backups := w.service.backups.mapValues fun _ => forget name }
  have reply : c.service.answer (.dropDatabase name) w.service = ⟨.ok (), dropped, 0⟩ :=
    (service (.dropDatabase name) _ trivial).trans (if_pos there)
  refine ⟨w.after (.dropDatabase name) (⟨.ok (), dropped, 0⟩ : Reply Store Unit), ?_, rfl, rfl⟩
  rw [Session.run_call, reply]

/-- A request with a statement whose id may be used is accepted when there is no such database. -/
theorem exists_accepted_of_free {statement : String} {extra : List String}
    (service : s.Serves c.service) (read : Request.statementId? statement = some id)
    (last : Script.lastWord statement = id) (usable : idFault? id = none)
    (free : w.service.databases.get? (i.databaseName id) = none) :
    ∃ h w₁, (c.submit i (.createDatabase statement extra)).run w = some (.ok h, w₁) := by
  have checked : (Request.createDatabase statement extra).check w.now = .ok () := by
    simp only [Request.check, read, Option.getD_some, Request.checkId, usable]
  have aimed : (Request.createDatabase statement extra).target i = .ok (i.databaseName id) := by
    simp only [Request.target, read]
  have absent : w.service.databases.contains (i.databaseName id) = false := by
    rw [Catalog.contains, free]
    rfl
  obtain ⟨o, st', made⟩ : ∃ o st', s.createDatabase i statement extra w.service = .ok (o, st') := by
    simp only [Script.createDatabase, last, absent, Bool.false_eq_true, if_false]
    exact ⟨_, _, rfl⟩
  have submitted : s.submit i (.createDatabase statement extra) w.service = ⟨.ok o, st', 0⟩ := by
    simp only [Script.submit, made]
  have reply : c.service.answer (.submit i (.createDatabase statement extra)) w.service =
      ⟨.ok o, st', 0⟩ :=
    (service (.submit i (.createDatabase statement extra)) _ trivial).trans submitted
  have named : o.name ≠ "" := by
    rcases s.submit_begins i (.createDatabase statement extra) w.service with
      ⟨e, refused⟩ | ⟨o', st₁, accepted, begins⟩
    · cases submitted.symm.trans refused
    · cases submitted.symm.trans accepted
      exact begun_name_ne begins
  let w₁ := w.after (.submit i (.createDatabase statement extra)) ⟨.ok o, st', 0⟩
  have called : (Session.call c.service (.submit i (.createDatabase statement extra))).run w =
      some (.ok o, w₁) := by
    rw [Session.run_call, reply]
  refine ⟨⟨o.name, .createDatabase, i.databaseName id⟩, w₁.emit c.listening (.started o.name), ?_⟩
  rw [Client.submit, Session.run_bind_ok (Session.run_now w), checked,
    Session.run_bind_ok (Session.run_ofExcept _ w), aimed,
    Session.run_bind_ok (Session.run_ofExcept _ w), Session.run_bind_ok called, if_neg named]
  rfl

/-- Nothing is left of a database: there is none under its name, the other ones are as before, and
no backup is referred to by it any more. -/
structure Traceless (name : String) (st st' : Store) : Prop where
  databases : st'.databases = st.databases
  gone : st'.databases.get? name = none
  backups : st'.backups = st.backups.mapValues fun _ => forget name

/-- Once the request is accepted, the database is reported and leaves no trace if its creation
succeeds in time; otherwise the workflow fails. -/
theorem run_retention (service : s.Serves c.service) (reachable : Reachable s w.service)
    (usable : idFault? id = none) (period : String) (p : Polling)
    (follows : s.Follows c.service
      (Duration.ofSeconds p.createDatabaseTimeout ⌈/⌉ c.pollInterval + 1))
    (accepted : (c.submit i (.createDatabase (creation id) (retentionStatements id period))).run w =
      some (.ok h, w₁)) :
    let polls := Duration.ofSeconds p.createDatabaseTimeout ⌈/⌉ c.pollInterval + 1
    ∃ result w', (createDatabaseWithRetention c i id period p).run w = some (result, w') ∧
      if s.completes polls = true ∧ s.failure = none then
        result = .ok ⟨id, unquoted period, some s.now⟩ ∧
          Traceless (i.databaseName id) w.service w'.service
      else ∃ e, result = .error e := by
  intro polls
  obtain ⟨t, free, target, alongside, way⟩ := submit_creates service reachable
    (statementId?_creation usable) (lastWord_creation usable)
    (retentionPeriod_retentionStatements usable period) accepted
  obtain ⟨t', w₂, n, -, completed⟩ := (Alongside.pursues s w.service h.name
    (s.creating (i.databaseName id) (unquoted period)) .created).complete service follows accepted
      ⟨way, alongside⟩
  by_cases in_time : s.completes polls = true
  · rw [if_pos in_time] at completed
    obtain ⟨run, -, leaves⟩ := completed
    unfold Script.completion? at run
    cases leaves with
    | created fine left =>
      rw [fine] at run
      obtain ⟨w₃, read, stays, -⟩ := run_getDatabase service left.get?_eq
      have left' := stays.symm ▸ left
      obtain ⟨w', dropped, databases, backups⟩ := run_dropDatabase service left'.get?_eq
      have same : w'.service.databases = w.service.databases := by
        rw [databases]
        exact Catalog.eq_of_changed (Catalog.get?_erase_changed left'.databases) free
      refine ⟨.ok ⟨shortName (i.databaseName id), unquoted period, some s.now⟩, w', ?_, ?_⟩
      · refine (Session.run_bind_ok run).trans ?_
        rw [target, Session.run_bind_ok read]
        exact Session.run_bind_ok dropped
      · rw [if_pos ⟨in_time, fine⟩, shortName_databaseName i usable]
        exact ⟨rfl, same, same ▸ free, left'.backups ▸ backups⟩
    | @failed effect e fault left =>
      rw [fault] at run
      refine ⟨_, w₂, Session.run_bind_error run, ?_⟩
      rw [if_neg fun both => by simp [fault] at both]
      exact ⟨_, rfl⟩
  · rw [if_neg in_time] at completed
    refine ⟨_, w₂, Session.run_bind_error completed.1, ?_⟩
    rw [if_neg fun both => in_time both.1]
    exact ⟨_, rfl⟩

/-- What ends with a report has begun with a request that was accepted. -/
theorem accepted_of_report {report : RetentionReport} {w' : World Store}
    (run : (createDatabaseWithRetention c i id period p).run w = some (.ok report, w')) :
    ∃ h w₁, (c.submit i (.createDatabase (creation id) (retentionStatements id period))).run w =
      some (.ok h, w₁) := by
  obtain ⟨h, w₂, completed, -⟩ := Session.exists_of_run_bind run
  obtain ⟨w₁, accepted⟩ := accepted_of_complete completed
  exact ⟨h, w₁, accepted⟩

/-- What is reported is the id and the period up to the first quote in it, and nothing is left. -/
theorem traceless_of_report (service : s.Serves c.service)
    (follows : s.Follows c.service
      (Duration.ofSeconds p.createDatabaseTimeout ⌈/⌉ c.pollInterval + 1))
    (reachable : Reachable s w.service) (usable : idFault? id = none) {report : RetentionReport}
    {w' : World Store}
    (run : (createDatabaseWithRetention c i id period p).run w = some (.ok report, w')) :
    report = ⟨id, unquoted period, some s.now⟩ ∧
      Traceless (i.databaseName id) w.service w'.service := by
  obtain ⟨h, w₁, accepted⟩ := accepted_of_report run
  obtain ⟨result, w'', run', ends⟩ :=
    run_retention service reachable usable period p follows accepted
  obtain ⟨same, rfl⟩ := Prod.mk.inj (Option.some.inj (run.symm.trans run'))
  split at ends
  · obtain ⟨rfl, traceless⟩ := ends
    exact ⟨Except.ok.inj same, traceless⟩
  · obtain ⟨e, rfl⟩ := ends
    cases same

/-- It comes to a report when there is no such database and its creation succeeds in time. -/
theorem exists_report_iff (service : s.Serves c.service)
    (follows : s.Follows c.service
      (Duration.ofSeconds p.createDatabaseTimeout ⌈/⌉ c.pollInterval + 1))
    (reachable : Reachable s w.service) (usable : idFault? id = none) :
    (∃ report w', (createDatabaseWithRetention c i id period p).run w = some (.ok report, w')) ↔
      w.service.databases.get? (i.databaseName id) = none ∧ s.failure = none ∧
        ∃ k, s.completion = .afterPolls k ∧
          k ≤ Duration.ofSeconds p.createDatabaseTimeout ⌈/⌉ c.pollInterval + 1 := by
  constructor
  · rintro ⟨report, w', run⟩
    obtain ⟨h, w₁, accepted⟩ := accepted_of_report run
    obtain ⟨t, free, -⟩ := submit_creates service reachable (statementId?_creation usable)
      (lastWord_creation usable) (retentionPeriod_retentionStatements usable period) accepted
    obtain ⟨result, w'', run', ends⟩ :=
      run_retention service reachable usable period p follows accepted
    obtain ⟨rfl, -⟩ := Prod.mk.inj (Option.some.inj (run.symm.trans run'))
    split at ends
    case isTrue both => exact ⟨free, both.2, Script.completes_iff.1 both.1⟩
    case isFalse =>
      obtain ⟨e, same⟩ := ends
      cases same
  · rintro ⟨free, fine, in_time⟩
    obtain ⟨h, w₁, accepted⟩ := exists_accepted_of_free service (statementId?_creation usable)
      (lastWord_creation usable) usable free
    obtain ⟨result, w', run, ends⟩ :=
      run_retention service reachable usable period p follows accepted
    rw [if_pos ⟨Script.completes_iff.2 in_time, fine⟩] at ends
    obtain ⟨rfl, -⟩ := ends
    exact ⟨_, w', run⟩

end

/-- For an id that may be used and any period, also where the id names the option that the period is
set by: what is reported is the id and the period up to the first quote in it, and no trace of the
database is left. Where the counters have room for the polls, it comes to a report when there is no
such database and the script lets the creation succeed within the polls that there is time for, and
only then. -/
theorem createDatabaseWithRetention_traceless {s : Script} {c : Client Store} (i : Instance)
    (p : Polling) {w : World Store} (reachable : Reachable s w.service) {id : String}
    (usable : idFault? id = none) (period : String) :
    (c.service = Memory.service s → ∀ report w',
      (createDatabaseWithRetention c i id period p).run w = some (.ok report, w') →
      report.databaseId = id ∧
        report.versionRetentionPeriod = String.ofList (period.toList.takeWhile (· ≠ '\'')) ∧
        (report.versionRetentionPeriod = period ↔ '\'' ∉ period.toList) ∧
        Traceless (i.databaseName id) w.service w'.service) ∧
    (s.Serves c.service →
      s.Counts (Duration.ofSeconds p.createDatabaseTimeout ⌈/⌉ c.pollInterval + 1) →
      ((∃ report w', (createDatabaseWithRetention c i id period p).run w = some (.ok report, w')) ↔
        w.service.databases.get? (i.databaseName id) = none ∧ s.failure = none ∧
          ∃ k, s.completion = .afterPolls k ∧
            k ≤ Duration.ofSeconds p.createDatabaseTimeout ⌈/⌉ c.pollInterval + 1)) := by
  refine ⟨fun same report w' run => ?_, fun service counts =>
    exists_report_iff service (service.follows counts) reachable usable⟩
  obtain ⟨rfl, traceless⟩ := traceless_of_report (Script.serves_of_eq same)
    (Script.follows_of_eq same _) reachable usable run
  exact ⟨rfl, rfl, unquoted_eq_iff, traceless⟩

/-- The id of the database is the name of the option, and the period has a quote in it. -/
theorem createDatabaseWithRetention_traceless_option :
    let c : Client Store := { service := service thirdPoll }
    let i : Instance := ⟨"p", "i"⟩
    let p : Polling := { createDatabaseTimeout := 20 }
    let w := stocked thirdPoll i "db1" "b1"
    c.service = service thirdPoll ∧ Reachable thirdPoll w.service ∧
      idFault? "version_retention_period" = none ∧
      thirdPoll.Counts (Duration.ofSeconds 20 ⌈/⌉ c.pollInterval + 1) ∧
      ∃ report w', (createDatabaseWithRetention c i "version_retention_period" "7d' or so" p).run w =
          some (.ok report, w') ∧ report.databaseId = "version_retention_period" ∧
        report.versionRetentionPeriod = "7d" ∧ w'.service.databases = w.service.databases := by
  intro c i p w
  have reachable : Reachable thirdPoll w.service := .insertBackup (.insertDatabase .new _) _
  have usable : idFault? "version_retention_period" = none := by decide
  obtain ⟨reports, succeeds⟩ :=
    createDatabaseWithRetention_traceless (c := c) i p reachable usable "7d' or so"
  have counts : thirdPoll.Counts (Duration.ofSeconds 20 ⌈/⌉ c.pollInterval + 1) :=
    (Script.counts_afterPolls rfl).2 (by decide)
  have free : w.service.databases.get? (i.databaseName "version_retention_period") = none := by
    decide +kernel
  obtain ⟨report, w', run⟩ :=
    (succeeds thirdPoll.serves_service counts).2 ⟨free, rfl, 3, rfl, by decide⟩
  obtain ⟨same_id, same_period, -, traceless⟩ := reports rfl report w' run
  exact ⟨rfl, reachable, usable, counts, report, w', run, same_id,
    same_period.trans (by decide +kernel), traceless.databases⟩

end BackupAdmin.Memory
