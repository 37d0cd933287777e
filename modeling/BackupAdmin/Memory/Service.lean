import BackupAdmin.Catalog
import BackupAdmin.Admin.Service
import BackupAdmin.Memory.Match

/-! An admin service in memory that follows a script: when operations end, how they end, and
whether they can be cancelled. -/
namespace BackupAdmin.Memory

/-- When an operation is done: at its poll of some number above zero, or never. -/
inductive Completion where
  | afterPolls (n : Nat)
  | never
deriving DecidableEq

/-- What a service of this kind does with the operations that it starts. -/
structure Script where
  /-- The service's own time, which stands still. -/
  now : Instant
  completion : Completion := .afterPolls 1
  failure : Option OperationError := none
  ignoreCancel : Bool := false
  referencesClearAfter : Option Nat := none
deriving DecidableEq

/-- Operations are done at poll number `n`, or at the first for zero. -/
def Script.completeAfter (s : Script) (n : Nat) : Script :=
  { s with completion := .afterPolls (max n 1) }

/-- What the end of an operation brings about. -/
inductive Effect where
  | backup (name : String) (encryption : Option EncryptionConfig)
  | restore (database backup : String)
  | createDatabase (database : String)
  | nothing
deriving DecidableEq

/-- An operation with the number of times it was polled before its end. -/
structure Task where
  operation : Operation
  polls : Nat := 0
  effect : Effect := .nothing
deriving DecidableEq

/-- Everything that the service remembers. -/
structure Store where
  backups : Catalog Backup := .empty
  databases : Catalog Database := .empty
  tasks : List Task := []
  cancels : Catalog Nat := .empty
  backupReads : Catalog Nat := .empty
  submitted : Nat := 0
  nextId : Nat := 0
deriving DecidableEq

instance : Inhabited Store := ⟨{}⟩

def backupSize : Int64 := 2048

/-- The greatest number of days that a backup may live. -/
def maxDays : Nat := 366

namespace Store

def insertDatabase (s : Store) (now : Instant) (name : String) : Store :=
  { s with databases :=
      s.databases.insert name { name, state := "READY", createTime := some now } }

def insertBackup (s : Store) (b : Backup) : Store :=
  { s with backups := s.backups.insert b.name b }

/-- Adds an operation whose end brings about nothing. -/
def insertOperation (s : Store) (o : Operation) : Store :=
  { s with tasks := s.tasks ++ [{ operation := o }] }

/-- How often cancelling an operation was asked for. -/
def cancelCount (s : Store) (name : String) : Nat := (s.cancels.get? name).getD 0

/-- Counts that cancelling an operation was asked for. -/
def countCancel (s : Store) (name : String) : Store :=
  { s with cancels := s.cancels.insert name (s.cancelCount name + 1) }

/-- The place of the first operation with a name, and the operation. -/
def find? (s : Store) (name : String) : Option (Nat × Task) :=
  match s.tasks.findIdx? (·.operation.name = name) with
  | some i => s.tasks[i]?.map (i, ·)
  | none => none

/-- Records a new operation on a resource. -/
def begin (s : Store) (resource : String) (metadata : Metadata) (effect : Effect) :
    Operation × Store :=
  let o : Operation :=
    { name := resource ++ "/operations/op-" ++ toString (s.nextId + 1), metadata := some metadata }
  (o, { s with
    nextId := s.nextId + 1
    submitted := s.submitted + 1
    tasks := s.tasks ++ [{ operation := o, effect }] })

/-- Removes what an operation was about to make. -/
def removePending (s : Store) : Effect → Store
  | .backup name _ => { s with backups := s.backups.erase name }
  | .restore database _ | .createDatabase database =>
    { s with databases := s.databases.erase database }
  | .nothing => s

def update (s : Store) (i : Nat) (f : Task → Task) : Store :=
  { s with tasks := s.tasks.modify i f }

end Store

def setPercent (n : Int32) (o : Operation) : Operation :=
  { o with metadata := o.metadata.map (·.withPercent n) }

def reportedEncryption : Option EncryptionConfig → EncryptionInfo
  | some e => ⟨e.type.text, e.kmsKeyName.map (· ++ "/cryptoKeyVersions/1")⟩
  | none => ⟨EncryptionType.providerDefault.text, none⟩

namespace Script

def readyBackup (s : Script) (encryption : Option EncryptionConfig) (b : Backup) : Backup :=
  { b with
    state := .ready
    sizeBytes := backupSize
    createTime := some s.now
    maxExpireTime := some (s.now.plusDays maxDays)
    versionTime := some (b.versionTime.getD s.now)
    encryptionInfo := some (reportedEncryption encryption) }

def optimizing (s : Script) (name database : String) : Operation :=
  { name
    metadata := some (.optimizeRestored database { percent := 50, startTime := some s.now }) }

/-- Names the following operation in the work of a restore. -/
def withOptimize (name : String) (o : Operation) : Operation :=
  { o with metadata := o.metadata.map fun m => match m with
    | .restoreDatabase a b c d _ => .restoreDatabase a b c d name
    | m => m }

/-- Brings about the effect of the operation at place `i`, and gives the response. -/
def perform (s : Script) (st : Store) (i : Nat) : Effect → Option Json × Store
  | .backup name encryption =>
    let backups := st.backups.modify name (s.readyBackup encryption)
    ((backups.get? name).map Backup.encode, { st with backups })
  | .restore database backup =>
    let backups := st.backups.modify backup fun b =>
      { b with referencingDatabases := b.referencingDatabases ++ [database] }
    let databases := st.databases.modify database fun d => { d with state := "READY_OPTIMIZING" }
    let name := database ++ "/operations/optimize-" ++ toString (st.nextId + 1)
    let st := st.update i fun t => { t with operation := withOptimize name t.operation }
    ((databases.get? database).map Database.encode, { st with
      backups, databases
      nextId := st.nextId + 1
      tasks := st.tasks ++ [{ operation := s.optimizing name database }] })
  | .createDatabase database =>
    let databases := st.databases.modify database fun d => { d with state := "READY" }
    ((databases.get? database).map Database.encode, { st with databases })
  | .nothing => (none, st)

/-- Ends the operation at place `i`, with its effect or with the scripted failure. -/
def finish (s : Script) (st : Store) (i : Nat) (effect : Effect) : Store :=
  match s.failure with
  | some e =>
    (st.removePending effect).update i fun t =>
      { t with operation := { t.operation with done := true, error := some e } }
  | none =>
    let (response, st) := s.perform st i effect
    st.update i fun t =>
      { t with operation := setPercent 100 { t.operation with done := true, response } }

/-- The percentage of an operation that was polled and is not done. -/
def pendingPercent (s : Script) (polls : Nat) : Int32 :=
  match s.completion with
  | .afterPolls n => .ofNat (polls * 100 / n)
  | .never => 10

/-- An operation is done at this poll. -/
def completes (s : Script) (polls : Nat) : Bool :=
  match s.completion with
  | .afterPolls n => n ≤ polls
  | .never => false

/-- Counts one poll of the operation at place `i`, which may be its last. -/
def poll (s : Script) (st : Store) (i : Nat) (t : Task) : Store :=
  let polls := t.polls + 1
  let st := st.update i fun t => { t with polls }
  if s.completes polls then s.finish st i t.effect
  else st.update i fun t => { t with operation := setPercent (s.pendingPercent polls) t.operation }

def getOperation (s : Script) (name : String) (st : Store) : Reply Store Operation :=
  match st.find? name with
  | none => ⟨.error (.notFound name), st, 0⟩
  | some (i, t) =>
    let st := if t.operation.done then st else s.poll st i t
    match st.tasks[i]? with
    | some t => ⟨.ok t.operation, st, 0⟩
    | none => ⟨.error (.notFound name), st, 0⟩

/-- Notes in the work of a backup when it was cancelled. -/
def withCancelTime (now : Instant) : Metadata → Metadata
  | .createBackup a b c _ => .createBackup a b c (some now)
  | .copyBackup a b c _ => .copyBackup a b c (some now)
  | m => m

def cancelled (s : Script) (o : Operation) : Operation :=
  { o with
    done := true
    error := some ⟨OperationError.cancelledCode, "CANCELLED"⟩
    metadata := o.metadata.map (withCancelTime s.now) }

def cancelOperation (s : Script) (name : String) (st : Store) : Reply Store Unit :=
  let st := st.countCancel name
  match st.find? name with
  | none => ⟨.error (.notFound name), st, 0⟩
  | some (i, t) =>
    if t.operation.done then
      ⟨.error (.preconditionFailed ("operation " ++ name ++ " has already finished")), st, 0⟩
    else if s.ignoreCancel then ⟨.ok (), st, 0⟩
    else
      ⟨.ok (), (st.removePending t.effect).update i fun t =>
        { t with operation := s.cancelled t.operation }, 0⟩

/-- The expire time of a new backup lies in the time that backups may live. -/
def checkExpire (s : Script) (t : Instant) : Except AdminError Unit :=
  if !s.now.before t then .error (.invalidArgument "expire time must be in the future")
  else if (s.now.plusDays maxDays).before t then
    .error (.invalidArgument "expire time must be within 366 days")
  else .ok ()

def alreadyExists (kind name : String) : AdminError :=
  .preconditionFailed (kind ++ " " ++ name ++ " already exists")

def started (s : Script) : Progress := { startTime := some s.now }

def createBackup (s : Script) (i : Instance) (id database : String) (expire : Instant)
    (version : Option Instant) (encryption : Option EncryptionConfig) (st : Store) :
    Except AdminError (Operation × Store) := do
  s.checkExpire expire
  let name := i.backupName id
  if !st.databases.contains database then .error (.notFound database)
  else if st.backups.contains name then .error (alreadyExists "backup" name)
  else
    let b : Backup :=
      { name, database, expireTime := some expire, versionTime := version, state := .creating }
    .ok ((st.insertBackup b).begin name (.createBackup name database s.started none)
      (.backup name encryption))

def copyBackup (s : Script) (i : Instance) (id source : String) (expire : Instant)
    (encryption : Option EncryptionConfig) (st : Store) : Except AdminError (Operation × Store) := do
  s.checkExpire expire
  match st.backups.get? source with
  | none => .error (.notFound source)
  | some src =>
    let name := i.backupName id
    if !src.isReady then
      .error (.preconditionFailed ("source backup " ++ src.name ++ " is not ready"))
    else if st.backups.contains name then .error (alreadyExists "backup" name)
    else
      let b : Backup := { name, database := src.database, expireTime := some expire,
                          versionTime := src.versionTime, state := .creating }
      .ok ((st.insertBackup b).begin name (.copyBackup name source s.started none)
        (.backup name encryption))

def restoreDatabase (s : Script) (i : Instance) (id backup : String)
    (encryption : Option EncryptionConfig) (st : Store) : Except AdminError (Operation × Store) :=
  match st.backups.get? backup with
  | none => .error (.notFound backup)
  | some b =>
    let name := i.databaseName id
    if st.databases.contains name then .error (alreadyExists "database" name)
    else
      let info : BackupInfo := ⟨b.name, b.versionTime, b.createTime, b.database⟩
      let d : Database :=
        { name, state := "CREATING", createTime := some s.now
          restoreInfo := some ⟨"BACKUP", some info⟩
          kmsKeyName := encryption.bind (·.kmsKeyName) }
      .ok (({ st with databases := st.databases.insert name d }).begin name
        (.restoreDatabase name "BACKUP" (some info) s.started "") (.restore name b.name))

/-- The last word of a statement without the back quotes around it. -/
def lastWord (statement : String) : String :=
  String.ofList (Text.trimWhile (· = '`') (Text.lastPiece ' ' (Text.trim statement.toList)))

/-- What stands between the first two quotes after the option's name, in the first statement
that has it so. -/
def retentionPeriod (statements : List String) : Option String :=
  statements.findSome? fun statement => do
    let (_, rest) ← Text.splitFirst? "version_retention_period".toList statement.toList
    let (_, rest) ← Text.splitFirst? ['\''] rest
    let (period, _) ← Text.splitFirst? ['\''] rest
    some (String.ofList period)

def createDatabase (s : Script) (i : Instance) (statement : String) (extra : List String)
    (st : Store) : Except AdminError (Operation × Store) :=
  let name := i.databaseName (lastWord statement)
  if st.databases.contains name then .error (alreadyExists "database" name)
  else
    let d : Database :=
      { name, state := "CREATING", createTime := some s.now, earliestVersionTime := some s.now
        versionRetentionPeriod := some ((retentionPeriod extra).getD "1h") }
    .ok (({ st with databases := st.databases.insert name d }).begin name
      (.createDatabase name) (.createDatabase name))

/-- Starts an operation; a request that is refused leaves everything as it is. -/
def submit (s : Script) (i : Instance) (r : Request) (st : Store) : Reply Store Operation :=
  let result := match r with
    | .createBackup id database expire version encryption =>
      s.createBackup i id database expire version encryption st
    | .copyBackup id source expire encryption => s.copyBackup i id source expire encryption st
    | .restoreDatabase id backup encryption => s.restoreDatabase i id backup encryption st
    | .createDatabase statement extra => s.createDatabase i statement extra st
  match result with
  | .ok (o, st) => ⟨.ok o, st, 0⟩
  | .error e => ⟨.error e, st, 0⟩

end Script

def pageStart : Option String → Except AdminError Nat
  | none => .ok 0
  | some token =>
    let n := match token.toList with
      | '+' :: ds => Text.natOf? 10 ds
      | ds => Text.natOf? 10 ds
    match n.filter (· < UInt64.size) with
    | some n => .ok n
    | none => .error (.invalidArgument ("bad page token '" ++ token ++ "'"))

/-- The page of all items that a request asks for; its size is all of them for none or zero. -/
def pageOf {α : Type} (items : List α) (p : PageRequest) : Except AdminError (Page α) := do
  let start ← pageStart p.token
  let size := match p.pageSize with
    | some (n + 1) => n + 1
    | _ => max items.length 1
  let stop := min (start + size) items.length
  let next := if stop < items.length then some (toString stop) else none
  return .ofAnswer ((items.take stop).drop start) next

/-- The items that a test admits; the first item that the test fails on decides. -/
def filterM {α : Type} (test : α → Except AdminError Bool) : List α → Except AdminError (List α)
  | [] => .ok []
  | a :: as => do
    let admitted ← test a
    let rest ← filterM test as
    return if admitted then a :: rest else rest

/-- The work of a listing's operations. -/
def belongs (kind : OperationListKind) (o : Operation) : Bool :=
  match kind, o.metadata with
  | .backup, some (.createBackup ..) | .backup, some (.copyBackup ..) => true
  | .database, some (.restoreDatabase ..) | .database, some (.optimizeRestored ..)
  | .database, some (.createDatabase _) => true
  | _, _ => false

def listBackups (i : Instance) (p : PageRequest) (st : Store) : Except AdminError (Page Backup) := do
  let own := st.backups.values.filter (i.owns ·.name)
  pageOf (← filterM (fun b => admits (backupField b) p.filter) own) p

def listOperations (kind : OperationListKind) (i : Instance) (p : PageRequest) (st : Store) :
    Except AdminError (Page Operation) := do
  let own := (st.tasks.map (·.operation)).filter fun o => belongs kind o && i.owns o.name
  pageOf (← filterM (fun o => admits (operationField o) p.filter) own) p

namespace Script

/-- Counts that a backup was read; from some number of reads on it is no longer referenced. -/
def countRead (s : Script) (name : String) (st : Store) : Store :=
  let reads := (st.backupReads.get? name).getD 0 + 1
  let st := { st with backupReads := st.backupReads.insert name reads }
  if s.referencesClearAfter.any (· < reads) then
    { st with backups := st.backups.modify name fun b => { b with referencingDatabases := [] } }
  else st

def getBackup (s : Script) (name : String) (st : Store) : Reply Store Backup :=
  let st := s.countRead name st
  match st.backups.get? name with
  | some b => ⟨.ok b, st, 0⟩
  | none => ⟨.error (.notFound name), st, 0⟩

end Script

def updateExpireTime (name : String) (t : Instant) (st : Store) : Reply Store Backup :=
  match st.backups.get? name with
  | none => ⟨.error (.notFound name), st, 0⟩
  | some b =>
    if b.maxExpireTime.any (·.before t) then
      ⟨.error (.invalidArgument
        ("expire time " ++ t.messageText ++ " is past the max expire time")), st, 0⟩
    else
      let b := { b with expireTime := some t }
      ⟨.ok b, { st with backups := st.backups.insert name b }, 0⟩

def deleteBackup (name : String) (st : Store) : Reply Store Unit :=
  match st.backups.get? name with
  | none => ⟨.error (.notFound name), st, 0⟩
  | some b =>
    if b.referencingDatabases.isEmpty then ⟨.ok (), { st with backups := st.backups.erase name }, 0⟩
    else
      ⟨.error (.preconditionFailed ("backup " ++ shortName name ++ " is referenced by " ++
        Text.joinWith ", " b.referencingDatabases)), st, 0⟩

def getDatabase (name : String) (st : Store) : Reply Store Database :=
  match st.databases.get? name with
  | some d => ⟨.ok d, st, 0⟩
  | none => ⟨.error (.notFound name), st, 0⟩

/-- Drops a database; no backup is referenced by it any more. -/
def dropDatabase (name : String) (st : Store) : Reply Store Unit :=
  if st.databases.contains name then
    ⟨.ok (), { st with
      databases := st.databases.erase name
      backups := st.backups.mapValues fun _ b =>
        { b with referencingDatabases := b.referencingDatabases.filter (· ≠ name) } }, 0⟩
  else ⟨.error (.notFound name), st, 0⟩

/-- A listing leaves everything as it is. -/
def listing {α : Type} (r : Except AdminError α) (st : Store) : Reply Store α := ⟨r, st, 0⟩

def service (s : Script) : Service Store where
  answer
    | .submit i r, st => s.submit i r st
    | .getOperation name, st => s.getOperation name st
    | .cancelOperation name, st => s.cancelOperation name st
    | .listBackups i p, st => listing (listBackups i p st) st
    | .listOperations kind i p, st => listing (listOperations kind i p st) st
    | .getBackup name, st => s.getBackup name st
    | .updateExpireTime name t, st => updateExpireTime name t st
    | .deleteBackup name, st => deleteBackup name st
    | .getDatabase name, st => getDatabase name st
    | .dropDatabase name, st => dropDatabase name st

end BackupAdmin.Memory
