import BackupAdmin.Catalog
import BackupAdmin.Admin.Filter
import BackupAdmin.Admin.Pager
import BackupAdmin.Admin.Waiting
import BackupAdmin.Config.Polling
import BackupAdmin.Workflow.Report

/-! The workflows: each makes its calls in a fixed order and reads back what it reports. -/
namespace BackupAdmin.Workflow
variable {σ : Type}

/-- Days that a new backup lives. -/
def backupDays : Nat := 14

/-- Days that a backup would live whose creation is cancelled. -/
def cancelDays : Nat := 30

/-- Days by which a backup's life is extended. -/
def extensionDays : Nat := 30

/-- The backup that an operation has made, which has to be ready. -/
def readyBackup (c : Client σ) (name : String) : Session σ Backup := do
  let b : Backup ← Session.call c.service (.getBackup name)
  if b.isReady then return b
  else throw (.preconditionFailed
    ("backup " ++ name ++ " is " ++ b.state.text ++ " after its operation completed"))

/-- Starts an operation and waits for its success. -/
def complete (c : Client σ) (i : Instance) (r : Request) (timeout : Duration) :
    Session σ Handle := do
  let h ← c.submit i r
  let result ← c.await h timeout
  let _ ← Session.ofExcept (result.toExcept h.name timeout)
  return h

def createBackup (c : Client σ) (i : Instance) (database backup : String)
    (version : Option Instant) (key : Option String) (p : Polling) : Session σ BackupReport := do
  let now ← Session.now
  let h ← complete c i (.createBackup backup (i.databaseName database) (now.plusDays backupDays)
    version (key.map .ofKey)) (Duration.ofSeconds p.backupTimeout)
  let b ← readyBackup c h.target
  return { BackupReport.ofBackup b with kmsKeyName := key }

def copyBackup (c : Client σ) (i : Instance) (backup source : String) (p : Polling) :
    Session σ BackupReport := do
  let now ← Session.now
  let h ← complete c i (.copyBackup backup source (now.plusDays backupDays) none)
    (Duration.ofSeconds p.backupTimeout)
  let b ← readyBackup c h.target
  return { BackupReport.ofBackup b with sourceBackup := some source }

/-- Whether a backup exists: an answer, or the lack of one, or another error. -/
def exists? (c : Client σ) (name : String) : Session σ Bool := Session.ofStep fun w =>
  let r := c.service.answer (.getBackup name) w.service
  let w := w.after (.getBackup name) r
  match r.result with
  | .ok _ => (.ok true, w)
  | .error e => if e.isNotFound then (.ok false, w) else (.error e, w)

/-- Deletes a backup that an operation has left although it was asked to stop. -/
def cleanUp (c : Client σ) (name : String) : Session σ CancelReport := do
  if ← exists? c name then
    Session.call c.service (.deleteBackup name)
    return ⟨name, .completedBeforeCancel⟩
  else return ⟨name, .cancelled⟩

/-- Starts to create a backup, cancels it, and deletes the backup if there is one all the same. -/
def cancelBackup (c : Client σ) (i : Instance) (database backup : String) (p : Polling) :
    Session σ CancelReport := do
  let now ← Session.now
  let h ← c.submit i (.createBackup backup (i.databaseName database) (now.plusDays cancelDays)
    none none)
  let _ ← c.cancelAndSettle h (Polling.interval p.cancelPollInterval)
    (Duration.ofSeconds p.cancelTimeout)
  cleanUp c h.target

/-- A later expire time, but not past the greatest one. -/
def extended (old : Instant) (max : Option Instant) : Instant :=
  let t := old.plusDays extensionDays
  (max.map t.earlier).getD t

def updateBackup (c : Client σ) (i : Instance) (backup : String) : Session σ ExpireReport := do
  let name := i.backupName backup
  let b : Backup ← Session.call c.service (.getBackup name)
  match b.expireTime with
  | none => throw (.decode (some ("backup " ++ name ++ " has no expire time")))
  | some old =>
    let new := extended old b.maxExpireTime
    let updated : Backup ← Session.call c.service (.updateExpireTime name new)
    return ⟨name, old, updated.expireTime.getD new⟩

def restoreDatabase (c : Client σ) (i : Instance) (database backup : String)
    (key : Option String) (p : Polling) : Session σ RestoreReport := do
  let h ← complete c i (.restoreDatabase database (i.backupName backup) (key.map .ofKey))
    (Duration.ofSeconds p.restoreTimeout)
  let d : Database ← Session.call c.service (.getDatabase h.target)
  match d.restoreInfo.bind (·.backupInfo) with
  | none => throw (.decode (some ("database " ++ d.name ++ " has no restore info")))
  | some info =>
    return { databaseId := database
             sourceDatabase := info.sourceDatabase
             backup := info.backup
             versionTime := info.versionTime
             kmsKeyName := key.bind fun _ => d.kmsKeyName }

/-- Pages of the listing that is read page by page. -/
def listPageSize : Nat := 2

/-- Backups larger than this many bytes have a section of their own. -/
def listMinBytes : Nat := 100

/-- The titles and filters of the sections of a listing at a time in whole seconds. -/
def sectionsAt (now : Instant) (database backup : String) : List (String × Option String) :=
  let soon := now.plusDays 30
  let lately := now.minusDays 1
  [("All backups:", none),
    ("All backups with backup name containing \"" ++ backup ++ "\":",
      some (Filter.nameContains backup)),
    ("All backups with database name containing \"" ++ database ++ "\":",
      some (Filter.databaseContains database)),
    ("All backups with expire_time before \"" ++ soon.filterText ++ "\":",
      some (Filter.expiresBefore soon)),
    ("All backups with backup size more than " ++ toString listMinBytes ++ " bytes:",
      some (Filter.largerThan listMinBytes)),
    ("All backups created after \"" ++ lately.filterText ++ "\" and are READY:",
      some (Filter.readyCreatedSince lately))]

def collect {α : Type} (p : Pager (World σ) α) : Session σ (List α) := ExceptT.mk p.collect

def backupNames (p : Pager (World σ) Backup) : Session σ (List String) := do
  return (← collect p).map (·.name)

/-- The distinct texts of a list in order. -/
def sortedSet (names : List String) : List String :=
  (Catalog.ofList (names.map (·, ()))).entries.map (·.1)

/-- Lists backups through several filters, and once more page by page. -/
def listBackups (c : Client σ) (i : Instance) (database backup : String) :
    Session σ BackupListReport := do
  let now ← Session.now
  let sections ← (sectionsAt now.wholeSeconds database backup).mapM fun (title, filter) => do
    return BackupListSection.mk title (← backupNames (c.backups i filter))
  let paged ← backupNames { c.backups i none with pageSize := some listPageSize }
  return ⟨sections ++ [⟨"All backups with pagination", sortedSet paged⟩]⟩

def createProgress? (o : Operation) : Option BackupProgress :=
  match o.metadata with
  | some (.createBackup name database p _) => some ⟨name, database, p.percent, false⟩
  | _ => none

def copyProgress? (o : Operation) : Option BackupProgress :=
  match o.metadata with
  | some (.copyBackup name source p _) => some ⟨name, source, p.percent, true⟩
  | _ => none

/-- Shows how far backups have come that are being created or copied. -/
def listBackupOperations (c : Client σ) (i : Instance) (database backup : String) :
    Session σ BackupOperationsReport := do
  let creates ← collect (c.operations .backup i (some (Filter.createBackupOperations database)))
  let copies ← collect (c.operations .backup i (some (Filter.copyBackupOperations backup)))
  return ⟨creates.filterMap createProgress? ++ copies.filterMap copyProgress?⟩

def optimizeProgress? (o : Operation) : Option OptimizeProgress :=
  match o.metadata with
  | some (.optimizeRestored name p) => some ⟨name, p.percent⟩
  | _ => none

/-- Shows how far the optimization of restored databases has come. -/
def listDatabaseOperations (c : Client σ) (i : Instance) : Session σ DatabaseOperationsReport := do
  let all ← collect (c.operations .database i (some Filter.optimizeOperations))
  return ⟨all.filterMap optimizeProgress?⟩

/-- Reads a backup from `began` on until no database refers to it. -/
def unreferencedFrom (c : Client σ) (name : String) (timeout interval began : Duration)
    (pos : 0 < interval) (w : World σ) : Except AdminError Unit × World σ :=
  let r := c.service.answer (.getBackup name) w.service
  let w₁ := w.after (.getBackup name) r
  match r.result with
  | .error e => (.error e, w₁)
  | .ok b =>
    if b.referencingDatabases.isEmpty then (.ok (), w₁)
    else if _h : timeout ≤ w₁.elapsed - began then (.error (.timeout timeout), w₁)
    else unreferencedFrom c name timeout interval began pos (w₁.sleep interval)
termination_by began + timeout - w.elapsed
decreasing_by
  exact Client.time_left_lt pos (Nat.le_add_right _ _) (Nat.lt_of_not_le _h)

/-- Waits until no database refers to a backup, deletes it and looks that it is gone. -/
def deleteBackup (c : Client σ) (i : Instance) (backup : String) (p : Polling) :
    Session σ DeleteReport := do
  let name := i.backupName backup
  Session.ofStep fun w => unreferencedFrom c name (Duration.ofSeconds p.referenceTimeout)
    (Polling.interval p.referencePollInterval) w.elapsed (Polling.interval_pos _) w
  Session.call c.service (.deleteBackup name)
  if ← exists? c name then
    throw (.preconditionFailed ("backup " ++ name ++ " still exists after delete"))
  else return ⟨name⟩

/-- The statements of the example tables, and the one that sets a retention period. -/
def retentionStatements (database period : String) : List String :=
  ["CREATE TABLE Singers (SingerId   INT64 NOT NULL,FirstName  STRING(1024)," ++
      "LastName   STRING(1024),SingerInfo BYTES(MAX)) PRIMARY KEY (SingerId)",
    "CREATE TABLE Albums (SingerId     INT64 NOT NULL,AlbumId      INT64 NOT NULL," ++
      "AlbumTitle   STRING(MAX)) PRIMARY KEY (SingerId, AlbumId)," ++
      "INTERLEAVE IN PARENT Singers ON DELETE CASCADE",
    "ALTER DATABASE `" ++ database ++ "` SET OPTIONS (version_retention_period = '" ++ period ++
      "')"]

/-- Creates a database with a retention period, reports it and drops it again. -/
def createDatabaseWithRetention (c : Client σ) (i : Instance) (database period : String)
    (p : Polling) : Session σ RetentionReport := do
  let h ← complete c i (.createDatabase ("CREATE DATABASE `" ++ database ++ "`")
    (retentionStatements database period)) (Duration.ofSeconds p.createDatabaseTimeout)
  let d : Database ← Session.call c.service (.getDatabase h.target)
  let report : RetentionReport :=
    ⟨shortName d.name, d.versionRetentionPeriod.getD "", d.earliestVersionTime⟩
  Session.call c.service (.dropDatabase d.name)
  return report

end BackupAdmin.Workflow
