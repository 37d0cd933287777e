import BackupAdmin.Json.Decode

/-! How backups and databases are encrypted, and the JSON forms. -/
namespace BackupAdmin

inductive EncryptionType where
  | providerDefault
  | customerManaged
deriving DecidableEq

namespace EncryptionType

def text : EncryptionType → String
  | .providerDefault => "GOOGLE_DEFAULT_ENCRYPTION"
  | .customerManaged => "CUSTOMER_MANAGED_ENCRYPTION"

def ofText? (s : String) : Option EncryptionType :=
  if s = "GOOGLE_DEFAULT_ENCRYPTION" then some .providerDefault
  else if s = "CUSTOMER_MANAGED_ENCRYPTION" then some .customerManaged
  else none

end EncryptionType

namespace Json

/-- The name of a choice, given as a text or as an object with that one member, which is null. -/
def choice? : Json → Option String
  | .string s => some s
  | .object [(s, .null)] => some s
  | _ => none

end Json

structure EncryptionConfig where
  type : EncryptionType
  kmsKeyName : Option String := none
deriving DecidableEq

namespace EncryptionConfig
open Json

def ofKey (key : String) : EncryptionConfig := ⟨.customerManaged, some key⟩

def encode (e : EncryptionConfig) : Json :=
  record (("encryptionType", .string e.type.text) :: optionalMember "kmsKeyName" .string e.kmsKeyName)

def decode? (v : Json) : Option EncryptionConfig := do
  let fs ← fields? ["encryptionType", "kmsKeyName"] v
  let type ← fs.required "encryptionType" fun v => v.choice?.bind EncryptionType.ofText?
  let kmsKeyName ← fs.optional "kmsKeyName" asString?
  some { type, kmsKeyName }

end EncryptionConfig

/-- The encryption of a backup as the service reports it. -/
structure EncryptionInfo where
  type : String := ""
  kmsKeyVersion : Option String := none
deriving DecidableEq

namespace EncryptionInfo
open Json

def encode (e : EncryptionInfo) : Json :=
  record (("encryptionType", .string e.type) :: optionalMember "kmsKeyVersion" .string e.kmsKeyVersion)

def decode? (v : Json) : Option EncryptionInfo := do
  let fs ← fields? ["encryptionType", "kmsKeyVersion"] v
  let type ← fs.orElse "encryptionType" "" asString?
  let kmsKeyVersion ← fs.optional "kmsKeyVersion" asString?
  some { type, kmsKeyVersion }

end EncryptionInfo
end BackupAdmin
