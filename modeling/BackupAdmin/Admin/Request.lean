import BackupAdmin.Admin.Error
import BackupAdmin.Resource.Name
import BackupAdmin.Operation.Basic

/-! Requests that start an operation: what they make, when they are refused, and their bodies. -/
namespace BackupAdmin

inductive OperationKind where
  | createBackup
  | copyBackup
  | restoreDatabase
  | createDatabase
deriving DecidableEq

def OperationKind.text : OperationKind → String
  | .createBackup => "create backup"
  | .copyBackup => "copy backup"
  | .restoreDatabase => "restore database"
  | .createDatabase => "create database"

inductive Request where
  | createBackup (backupId database : String) (expireTime : Instant)
      (versionTime : Option Instant) (encryption : Option EncryptionConfig)
  | copyBackup (backupId sourceBackup : String) (expireTime : Instant)
      (encryption : Option EncryptionConfig)
  | restoreDatabase (databaseId backup : String) (encryption : Option EncryptionConfig)
  | createDatabase (statement : String) (extraStatements : List String)
deriving DecidableEq

namespace Request

def kind : Request → OperationKind
  | .createBackup .. => .createBackup
  | .copyBackup .. => .copyBackup
  | .restoreDatabase .. => .restoreDatabase
  | .createDatabase .. => .createDatabase

def createWords : List Char := "create database".toList

/-- The id that a statement gives to its database: what follows the opening words, without
blanks and back quotes around it. -/
def statementId? (statement : String) : Option String :=
  let cs := Text.trim statement.toList
  if Text.equalFold (cs.take createWords.length) createWords then
    let id := Text.trimWhile (· = '`') (Text.trim (cs.drop createWords.length))
    if id.isEmpty then none else some (String.ofList id)
  else none

/-- The full name of the backup or database that the request makes. -/
def target (i : Instance) : Request → Except AdminError String
  | .createBackup id .. | .copyBackup id .. => .ok (i.backupName id)
  | .restoreDatabase id .. => .ok (i.databaseName id)
  | .createDatabase statement _ => match statementId? statement with
    | some id => .ok (i.databaseName id)
    | none => .error (.invalidArgument ("cannot find database name in '" ++ statement ++ "'"))

def checkId (kind id : String) : Except AdminError Unit :=
  match idFault? id with
  | none => .ok ()
  | some f => .error (.invalidArgument (f.message kind id))

def checkExpire (now t : Instant) : Except AdminError Unit :=
  if now.before t then .ok ()
  else .error (.invalidArgument ("expire time " ++ t.messageText ++ " is not in the future"))

/-- Refuses a request that cannot be meant at the time `now`; the first fault is the answer. -/
def check (now : Instant) : Request → Except AdminError Unit
  | .createBackup id _ expire version _ => do
    checkId "backup" id
    checkExpire now expire
    match version with
    | some t =>
      if now.before t then
        .error (.invalidArgument ("version time " ++ t.messageText ++ " is in the future"))
      else .ok ()
    | none => .ok ()
  | .copyBackup id source expire _ => do
    checkId "backup" id
    if source = "" then .error (.invalidArgument "source backup is required")
    checkExpire now expire
  | .restoreDatabase id _ _ => checkId "database" id
  | .createDatabase statement _ => checkId "database" ((statementId? statement).getD "")

/-- A request that is not refused makes something with a name. -/
theorem exists_target {r : Request} {now : Instant} (i : Instance) {u : Unit}
    (h : r.check now = .ok u) : ∃ name, r.target i = .ok name := by
  cases r with
  | createBackup id | copyBackup id | restoreDatabase id => exact ⟨_, rfl⟩
  | createDatabase statement =>
    cases id : statementId? statement with
    | none => simp [check, id, checkId, idFault?] at h
    | some id' => exact ⟨i.databaseName id', by simp [target, id]⟩

open Json in
/-- The body that carries the request; a new backup travels as a descriptor instead. -/
def body : Request → Json
  | .createBackup _ database expire version _ =>
    record (("database", .string database) :: ("expireTime", ofInstant expire) ::
      optionalMember "versionTime" ofInstant version)
  | .copyBackup id source expire encryption =>
    record (("backupId", .string id) :: ("sourceBackup", .string source) ::
      ("expireTime", ofInstant expire) ::
      optionalMember "encryptionConfig" EncryptionConfig.encode encryption)
  | .restoreDatabase id backup encryption =>
    record (("databaseId", .string id) :: ("backup", .string backup) ::
      optionalMember "encryptionConfig" EncryptionConfig.encode encryption)
  | .createDatabase statement extra =>
    record (("createStatement", .string statement) :: listMember "extraStatements" .string extra)

example : statementId? "create DATABASE `db1` " = some "db1" := by cbv
example : statementId? "DROP DATABASE db1" = none := by decide +kernel

end Request
end BackupAdmin
