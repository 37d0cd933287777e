import BackupAdmin.Resource.Database

/-! What the workflows report: the text for people and the value for programs. -/
namespace BackupAdmin
open Json

def reportTime (t : Option Instant) : String := (t.map Instant.offsetText).getD "unknown"

structure BackupReport where
  name : String
  sizeBytes : Int64
  createTime : Option Instant
  versionTime : Option Instant
  expireTime : Option Instant
  kmsKeyName : Option String := none
  sourceBackup : Option String := none
deriving DecidableEq

namespace BackupReport

def ofBackup (b : Backup) : BackupReport :=
  ⟨b.name, b.sizeBytes, b.createTime, b.versionTime, b.expireTime, none, none⟩

def text (r : BackupReport) : String :=
  "Backup " ++ r.name ++ " of size " ++ toString r.sizeBytes.toInt ++ " bytes was created at " ++
    reportTime r.createTime ++
    match r.kmsKeyName, r.sourceBackup with
    | some key, _ => " using encryption key " ++ key
    | none, some _ => " with version time " ++ reportTime r.versionTime
    | none, none => " for version of database at " ++ reportTime r.versionTime

def encode (r : BackupReport) : Json :=
  record ([("name", .string r.name), ("size_bytes", .ofInt r.sizeBytes.toInt),
    ("create_time", ofOption ofInstant r.createTime),
    ("version_time", ofOption ofInstant r.versionTime),
    ("expire_time", ofOption ofInstant r.expireTime)] ++
    optionalMember "kms_key_name" .string r.kmsKeyName ++
    optionalMember "source_backup" .string r.sourceBackup)

end BackupReport

/-- What became of a backup whose creation was cancelled. -/
inductive CancelStatus where
  | cancelled
  | completedBeforeCancel
deriving DecidableEq

structure CancelReport where
  backup : String
  status : CancelStatus
deriving DecidableEq

namespace CancelReport

def text (r : CancelReport) : String :=
  match r.status with
  | .cancelled => "Backup creation was successfully cancelled."
  | .completedBeforeCancel =>
    "Backup was created before the cancel completed.\nBackup deleted."

def encode (r : CancelReport) : Json :=
  record [("backup", .string r.backup), ("status", .string (match r.status with
    | .cancelled => "cancelled"
    | .completedBeforeCancel => "completed_before_cancel"))]

end CancelReport

structure ExpireReport where
  name : String
  oldExpireTime : Instant
  newExpireTime : Instant
deriving DecidableEq

namespace ExpireReport

def text (r : ExpireReport) : String :=
  "Backup " ++ r.name ++ " expire time was updated from " ++ r.oldExpireTime.offsetText ++ " to " ++
    r.newExpireTime.offsetText ++ "."

def encode (r : ExpireReport) : Json :=
  record [("name", .string r.name), ("old_expire_time", ofInstant r.oldExpireTime),
    ("new_expire_time", ofInstant r.newExpireTime)]

end ExpireReport

structure RestoreReport where
  databaseId : String
  sourceDatabase : String
  backup : String
  versionTime : Option Instant
  kmsKeyName : Option String := none
deriving DecidableEq

namespace RestoreReport

def text (r : RestoreReport) : String :=
  "Database " ++ r.sourceDatabase ++ " restored to " ++ r.databaseId ++ " from backup " ++ r.backup ++
    match r.kmsKeyName with
    | some key => " with using encryption key " ++ key ++ "."
    | none => " with version time " ++ reportTime r.versionTime ++ "."

def encode (r : RestoreReport) : Json :=
  record ([("database_id", .string r.databaseId), ("source_database", .string r.sourceDatabase),
    ("backup", .string r.backup), ("version_time", ofOption ofInstant r.versionTime)] ++
    optionalMember "kms_key_name" .string r.kmsKeyName)

end RestoreReport

/-- The names of the backups that one listing found. -/
structure BackupListSection where
  title : String
  backups : List String
deriving DecidableEq

structure BackupListReport where
  sections : List BackupListSection
deriving DecidableEq

namespace BackupListReport

def text (r : BackupListReport) : String :=
  Text.joinWith "\n" (r.sections.map fun s => Text.joinWith "\n" (s.title :: s.backups))

def encode (r : BackupListReport) : Json :=
  record [("sections", .array (r.sections.map fun s =>
    record [("title", .string s.title), ("backups", .array (s.backups.map .string))]))]

end BackupListReport

/-- How far a backup has come that is being created or copied. -/
structure BackupProgress where
  backup : String
  source : String
  percent : Int32
  copy : Bool
deriving DecidableEq

structure BackupOperationsReport where
  operations : List BackupProgress
deriving DecidableEq

namespace BackupOperationsReport

def text (r : BackupOperationsReport) : String :=
  Text.joinWith "\n" (r.operations.map fun o =>
    "Backup " ++ o.backup ++ " on " ++ (if o.copy then "source backup" else "database") ++ " " ++
      o.source ++ ": " ++ toString o.percent.toInt ++ "% complete.")

def encode (r : BackupOperationsReport) : Json :=
  record [("operations", .array (r.operations.map fun o =>
    record [("backup", .string o.backup), ("source", .string o.source),
      ("progress_percent", .ofInt o.percent.toInt), ("copy", .bool o.copy)]))]

end BackupOperationsReport

/-- How far the optimization of a restored database has come. -/
structure OptimizeProgress where
  database : String
  percent : Int32
deriving DecidableEq

structure DatabaseOperationsReport where
  operations : List OptimizeProgress
deriving DecidableEq

namespace DatabaseOperationsReport

def text (r : DatabaseOperationsReport) : String :=
  Text.joinWith "\n" (r.operations.map fun o =>
    "Database " ++ o.database ++ " restored from backup is " ++ toString o.percent.toInt ++ "% optimized.")

def encode (r : DatabaseOperationsReport) : Json :=
  record [("operations", .array (r.operations.map fun o =>
    record [("database", .string o.database), ("progress_percent", .ofInt o.percent.toInt)]))]

end DatabaseOperationsReport

structure DeleteReport where
  name : String
deriving DecidableEq

namespace DeleteReport

def text (r : DeleteReport) : String := "Backup " ++ r.name ++ " has been deleted."

def encode (r : DeleteReport) : Json := record [("name", .string r.name)]

end DeleteReport

structure RetentionReport where
  databaseId : String
  versionRetentionPeriod : String
  earliestVersionTime : Option Instant
deriving DecidableEq

namespace RetentionReport

def text (r : RetentionReport) : String :=
  "Database " ++ r.databaseId ++ " created with version retention period " ++
    r.versionRetentionPeriod ++ " and earliest version time " ++ reportTime r.earliestVersionTime

def encode (r : RetentionReport) : Json :=
  record [("database_id", .string r.databaseId),
    ("version_retention_period", .string r.versionRetentionPeriod),
    ("earliest_version_time", ofOption ofInstant r.earliestVersionTime)]

end RetentionReport

inductive Report where
  | backup (r : BackupReport)
  | cancel (r : CancelReport)
  | expire (r : ExpireReport)
  | restore (r : RestoreReport)
  | backupList (r : BackupListReport)
  | backupOperations (r : BackupOperationsReport)
  | databaseOperations (r : DatabaseOperationsReport)
  | delete (r : DeleteReport)
  | retention (r : RetentionReport)
deriving DecidableEq

namespace Report

def text : Report → String
  | .backup r => r.text
  | .cancel r => r.text
  | .expire r => r.text
  | .restore r => r.text
  | .backupList r => r.text
  | .backupOperations r => r.text
  | .databaseOperations r => r.text
  | .delete r => r.text
  | .retention r => r.text

def encode : Report → Json
  | .backup r => r.encode
  | .cancel r => r.encode
  | .expire r => r.encode
  | .restore r => r.encode
  | .backupList r => r.encode
  | .backupOperations r => r.encode
  | .databaseOperations r => r.encode
  | .delete r => r.encode
  | .retention r => r.encode

end Report
end BackupAdmin
