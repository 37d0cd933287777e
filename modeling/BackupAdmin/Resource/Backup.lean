import BackupAdmin.Resource.Encryption
import BackupAdmin.Time.Rfc3339

/-! A backup as the service describes it, and its JSON form. -/
namespace BackupAdmin

inductive BackupState where
  | creating
  | ready
  | unspecified
deriving DecidableEq

namespace BackupState

def text : BackupState → String
  | .creating => "CREATING"
  | .ready => "READY"
  | .unspecified => "STATE_UNSPECIFIED"

/-- Any other text leaves the state unspecified. -/
def ofText (s : String) : BackupState :=
  if s = "CREATING" then .creating else if s = "READY" then .ready else .unspecified

end BackupState

structure Backup where
  name : String := ""
  database : String := ""
  sizeBytes : Int64 := 0
  createTime : Option Instant := none
  versionTime : Option Instant := none
  expireTime : Option Instant := none
  maxExpireTime : Option Instant := none
  state : BackupState := .unspecified
  referencingDatabases : List String := []
  encryptionInfo : Option EncryptionInfo := none
deriving DecidableEq

namespace Json

def ofInstant (t : Instant) : Json := .string t.text

def asInstant? (v : Json) : Option Instant := (asString? v).bind Instant.ofLenientText?

/-- A whole number of 64 bits with a sign, as a number or as its digits in a text. -/
def asSize? : Json → Option Int64
  | .string s => (Text.intOf? s.toList).bind Text.int64?
  | v => (asInt? v).bind Text.int64?

end Json

namespace Backup
open Json

def isReady (b : Backup) : Bool := b.state = .ready

def encryptionKey (b : Backup) : Option String := b.encryptionInfo.bind (·.kmsKeyVersion)

def encode (b : Backup) : Json :=
  record (("name", .string b.name) :: textMember "database" b.database ++
    ("sizeBytes", .string (toString b.sizeBytes.toInt)) ::
    optionalMember "createTime" ofInstant b.createTime ++
    optionalMember "versionTime" ofInstant b.versionTime ++
    optionalMember "expireTime" ofInstant b.expireTime ++
    optionalMember "maxExpireTime" ofInstant b.maxExpireTime ++
    ("state", .string b.state.text) ::
    listMember "referencingDatabases" .string b.referencingDatabases ++
    optionalMember "encryptionInfo" EncryptionInfo.encode b.encryptionInfo)

def fieldNames : List String :=
  ["name", "database", "sizeBytes", "createTime", "versionTime", "expireTime", "maxExpireTime",
    "state", "referencingDatabases", "encryptionInfo"]

def decode? (v : Json) : Option Backup := do
  let fs ← fields? fieldNames v
  let name ← fs.orElse "name" "" asString?
  let database ← fs.orElse "database" "" asString?
  let sizeBytes ← fs.orElse "sizeBytes" 0 asSize?
  let createTime ← fs.optional "createTime" asInstant?
  let versionTime ← fs.optional "versionTime" asInstant?
  let expireTime ← fs.optional "expireTime" asInstant?
  let maxExpireTime ← fs.optional "maxExpireTime" asInstant?
  let state ← fs.orElse "state" .unspecified fun v => v.choice?.map BackupState.ofText
  let referencingDatabases ← fs.orElse "referencingDatabases" [] (asListOf? asString?)
  let encryptionInfo ← fs.optional "encryptionInfo" EncryptionInfo.decode?
  some { name, database, sizeBytes, createTime, versionTime, expireTime, maxExpireTime, state,
         referencingDatabases, encryptionInfo }

end Backup
end BackupAdmin
