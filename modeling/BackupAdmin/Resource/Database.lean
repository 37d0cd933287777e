import BackupAdmin.Resource.Backup

/-! A database as the service describes it, with what it was restored from, and the JSON forms. -/
namespace BackupAdmin

structure BackupInfo where
  backup : String := ""
  versionTime : Option Instant := none
  createTime : Option Instant := none
  sourceDatabase : String := ""
deriving DecidableEq

namespace BackupInfo
open Json

def encode (b : BackupInfo) : Json :=
  record (("backup", .string b.backup) :: optionalMember "versionTime" ofInstant b.versionTime ++
    optionalMember "createTime" ofInstant b.createTime ++
    [("sourceDatabase", .string b.sourceDatabase)])

def decode? (v : Json) : Option BackupInfo := do
  let fs ← fields? ["backup", "versionTime", "createTime", "sourceDatabase"] v
  let backup ← fs.orElse "backup" "" asString?
  let versionTime ← fs.optional "versionTime" asInstant?
  let createTime ← fs.optional "createTime" asInstant?
  let sourceDatabase ← fs.orElse "sourceDatabase" "" asString?
  some { backup, versionTime, createTime, sourceDatabase }

end BackupInfo

structure RestoreInfo where
  sourceType : String := ""
  backupInfo : Option BackupInfo := none
deriving DecidableEq

namespace RestoreInfo
open Json

def encode (r : RestoreInfo) : Json :=
  record (("sourceType", .string r.sourceType) ::
    optionalMember "backupInfo" BackupInfo.encode r.backupInfo)

def decode? (v : Json) : Option RestoreInfo := do
  let fs ← fields? ["sourceType", "backupInfo"] v
  let sourceType ← fs.orElse "sourceType" "" asString?
  let backupInfo ← fs.optional "backupInfo" BackupInfo.decode?
  some { sourceType, backupInfo }

end RestoreInfo

/-- The state of a database at the moment it was read; its key stands in `kmsKeyName`. -/
structure Database where
  name : String := ""
  state : String := ""
  createTime : Option Instant := none
  restoreInfo : Option RestoreInfo := none
  kmsKeyName : Option String := none
  versionRetentionPeriod : Option String := none
  earliestVersionTime : Option Instant := none
deriving DecidableEq

namespace Database
open Json

/-- The record around the name of a key. -/
def encodeKey (key : String) : Json := record [("kmsKeyName", .string key)]

def decodeKey? (v : Json) : Option String := do
  let fs ← fields? ["kmsKeyName"] v
  fs.orElse "kmsKeyName" "" asString?

def encode (d : Database) : Json :=
  record (("name", .string d.name) :: textMember "state" d.state ++
    optionalMember "createTime" ofInstant d.createTime ++
    optionalMember "restoreInfo" RestoreInfo.encode d.restoreInfo ++
    optionalMember "encryptionConfig" encodeKey d.kmsKeyName ++
    optionalMember "versionRetentionPeriod" .string d.versionRetentionPeriod ++
    optionalMember "earliestVersionTime" ofInstant d.earliestVersionTime)

def fieldNames : List String :=
  ["name", "state", "createTime", "restoreInfo", "encryptionConfig", "versionRetentionPeriod",
    "earliestVersionTime"]

def decode? (v : Json) : Option Database := do
  let fs ← fields? fieldNames v
  let name ← fs.orElse "name" "" asString?
  let state ← fs.orElse "state" "" asString?
  let createTime ← fs.optional "createTime" asInstant?
  let restoreInfo ← fs.optional "restoreInfo" RestoreInfo.decode?
  let kmsKeyName ← fs.optional "encryptionConfig" decodeKey?
  let versionRetentionPeriod ← fs.optional "versionRetentionPeriod" asString?
  let earliestVersionTime ← fs.optional "earliestVersionTime" asInstant?
  some { name, state, createTime, restoreInfo, kmsKeyName, versionRetentionPeriod,
         earliestVersionTime }

end Database
end BackupAdmin
