import BackupAdmin.Resource.Database

/-! What a long-running operation says about its work, by the kind of work, and the JSON forms. -/
namespace BackupAdmin

structure Progress where
  percent : Int32 := 0
  startTime : Option Instant := none
  endTime : Option Instant := none
deriving DecidableEq

namespace Progress
open Json

def encode (p : Progress) : Json :=
  record (("progressPercent", .ofInt p.percent.toInt) ::
    optionalMember "startTime" ofInstant p.startTime ++ optionalMember "endTime" ofInstant p.endTime)

def decode? (v : Json) : Option Progress := do
  let fs ← fields? ["progressPercent", "startTime", "endTime"] v
  let percent ← fs.orElse "progressPercent" 0 asInt32?
  let startTime ← fs.optional "startTime" asInstant?
  let endTime ← fs.optional "endTime" asInstant?
  some { percent, startTime, endTime }

end Progress

inductive Metadata where
  | createBackup (name database : String) (progress : Progress) (cancelTime : Option Instant)
  | copyBackup (name sourceBackup : String) (progress : Progress) (cancelTime : Option Instant)
  | restoreDatabase (name sourceType : String) (backupInfo : Option BackupInfo)
      (progress : Progress) (optimizeOperation : String)
  | optimizeRestored (name : String) (progress : Progress)
  | createDatabase (database : String)
  | unknown
deriving DecidableEq

namespace Metadata
open Json

def typeRoot : String := "type.googleapis.com/google.spanner.admin.database.v1."
def createBackupType : String := typeRoot ++ "CreateBackupMetadata"
def copyBackupType : String := typeRoot ++ "CopyBackupMetadata"
def restoreDatabaseType : String := typeRoot ++ "RestoreDatabaseMetadata"
def optimizeRestoredType : String := typeRoot ++ "OptimizeRestoredDatabaseMetadata"
def createDatabaseType : String := typeRoot ++ "CreateDatabaseMetadata"

/-- The progress, where the work reports any. -/
def progress? : Metadata → Option Progress
  | .createBackup _ _ p _ | .copyBackup _ _ p _ | .restoreDatabase _ _ _ p _
  | .optimizeRestored _ p => some p
  | .createDatabase _ | .unknown => none

def percent (m : Metadata) : Option Int32 := m.progress?.map (·.percent)

/-- The backup or database that the work makes. -/
def resourceName : Metadata → Option String
  | .createBackup name .. | .copyBackup name .. | .restoreDatabase name .. | .optimizeRestored name _
  | .createDatabase name => some name
  | .unknown => none

/-- The same work with another percentage, where it reports any. -/
def withPercent (n : Int32) : Metadata → Metadata
  | .createBackup a b p c => .createBackup a b { p with percent := n } c
  | .copyBackup a b p c => .copyBackup a b { p with percent := n } c
  | .restoreDatabase a b c p d => .restoreDatabase a b c { p with percent := n } d
  | .optimizeRestored a p => .optimizeRestored a { p with percent := n }
  | m => m

def encode : Metadata → Json
  | .createBackup name database progress cancelTime =>
    record (("@type", .string createBackupType) :: ("name", .string name) ::
      ("database", .string database) :: ("progress", progress.encode) ::
      optionalMember "cancelTime" ofInstant cancelTime)
  | .copyBackup name source progress cancelTime =>
    record (("@type", .string copyBackupType) :: ("name", .string name) ::
      ("sourceBackup", .string source) :: ("progress", progress.encode) ::
      optionalMember "cancelTime" ofInstant cancelTime)
  | .restoreDatabase name sourceType info progress optimize =>
    record (("@type", .string restoreDatabaseType) :: ("name", .string name) ::
      ("sourceType", .string sourceType) :: optionalMember "backupInfo" BackupInfo.encode info ++
      ("progress", progress.encode) :: textMember "optimizeDatabaseOperationName" optimize)
  | .optimizeRestored name progress =>
    record [("@type", .string optimizeRestoredType), ("name", .string name),
      ("progress", progress.encode)]
  | .createDatabase database =>
    record [("@type", .string createDatabaseType), ("database", .string database)]
  | .unknown => record [("@type", .string "Unknown")]

/-- Reads the fields of the work of a type; a type without a name here is unknown work. -/
def decodeAs? (type : String) (v : Json) : Option Metadata :=
  if type = createBackupType then do
    let fs ← fields? ["name", "database", "progress", "cancelTime"] v
    let name ← fs.orElse "name" "" asString?
    let database ← fs.orElse "database" "" asString?
    let progress ← fs.orElse "progress" {} Progress.decode?
    let cancelTime ← fs.optional "cancelTime" asInstant?
    some (.createBackup name database progress cancelTime)
  else if type = copyBackupType then do
    let fs ← fields? ["name", "sourceBackup", "progress", "cancelTime"] v
    let name ← fs.orElse "name" "" asString?
    let source ← fs.orElse "sourceBackup" "" asString?
    let progress ← fs.orElse "progress" {} Progress.decode?
    let cancelTime ← fs.optional "cancelTime" asInstant?
    some (.copyBackup name source progress cancelTime)
  else if type = restoreDatabaseType then do
    let fs ← fields?
      ["name", "sourceType", "backupInfo", "progress", "optimizeDatabaseOperationName"] v
    let name ← fs.orElse "name" "" asString?
    let sourceType ← fs.orElse "sourceType" "" asString?
    let info ← fs.optional "backupInfo" BackupInfo.decode?
    let progress ← fs.orElse "progress" {} Progress.decode?
    let optimize ← fs.orElse "optimizeDatabaseOperationName" "" asString?
    some (.restoreDatabase name sourceType info progress optimize)
  else if type = optimizeRestoredType then do
    let fs ← fields? ["name", "progress"] v
    let name ← fs.orElse "name" "" asString?
    let progress ← fs.orElse "progress" {} Progress.decode?
    some (.optimizeRestored name progress)
  else if type = createDatabaseType then do
    let fs ← fields? ["database"] v
    let database ← fs.orElse "database" "" asString?
    some (.createDatabase database)
  else if v = .array [] then some .unknown
  else match v with
    | .object _ => some .unknown
    | _ => none

/-- Reads work by its one type, a member `@type` or the first item; all of it has to be readable. -/
def decode? (v : Json) : Option Metadata :=
  match v with
  | .object ms =>
    match ms.filter (·.1 = "@type") with
    | [(_, .string type)] =>
      let rest := Json.object (ms.filter (·.1 ≠ "@type"))
      if rest.canonical?.isSome then decodeAs? type rest else none
    | _ => none
  | .array (.string type :: rest) =>
    if (Json.array rest).canonical?.isSome then decodeAs? type (.array rest) else none
  | _ => none

end Metadata
end BackupAdmin
