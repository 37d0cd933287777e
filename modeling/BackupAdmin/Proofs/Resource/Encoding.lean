import BackupAdmin.Proofs.Json.Reading
import BackupAdmin.Proofs.Time.Reading
import BackupAdmin.Resource.Database

/-! The JSON forms of backups and databases, read back. Main statements: each form is decoded to what
it was encoded from, when the times in it are points of dates in range, and what is decoded has such
times. -/
namespace BackupAdmin
open Json

namespace Json

theorem asInstant?_ofInstant {t : Instant} (valid : t.Valid) :
    asInstant? (ofInstant t) = some t := by
  rw [asInstant?, ofInstant, asString?, Option.bind_some, Instant.ofLenientText?_text valid]

theorem optional_instant {fs : Fields} {k : String} {o : Option Instant}
    (valid : ∀ t ∈ o, t.Valid) (found : fs.lookup k = o.map ofInstant) :
    fs.optional k asInstant? = some o :=
  Fields.optional_of_lookup found fun t mem => ⟨asInstant?_ofInstant (valid t mem), nofun⟩

theorem valid_of_asInstant? {v : Json} {t : Instant} (read : asInstant? v = some t) : t.Valid := by
  obtain ⟨s, -, read⟩ := Option.bind_eq_some_iff.1 read
  exact Instant.valid_of_ofLenientText? read

theorem valid_of_optional {fs : Fields} {k : String} {o : Option Instant}
    (read : fs.optional k asInstant? = some o) : ∀ t ∈ o, t.Valid := by
  intro t mem
  obtain ⟨v, -, read⟩ := Fields.read_of_optional read t mem
  exact valid_of_asInstant? read

@[simp] theorem plain_ofInstant (n : Nat) (t : Instant) : Plain n (ofInstant t) := .string _

theorem asSize?_toString (w : Int64) : asSize? (.string (toString w.toInt)) = some w := by
  rw [asSize?, Text.intOf?_toString, Option.bind_some, Text.int64?_toInt]

end Json

theorem EncryptionType.ofText?_text (t : EncryptionType) : ofText? t.text = some t := by
  cases t <;> decide

theorem BackupState.ofText_text (s : BackupState) : ofText s.text = s := by
  cases s <;> decide

namespace EncryptionInfo

def slots (e : EncryptionInfo) : List (String × Option Json) :=
  [("encryptionType", some (.string e.type)), ("kmsKeyVersion", e.kmsKeyVersion.map .string)]

theorem encode_eq (e : EncryptionInfo) : e.encode = record (present e.slots) := by
  simp [encode, slots]

theorem plain_encode (e : EncryptionInfo) : Plain 1 e.encode := by
  rw [encode_eq]
  exact .present (by simp [slots])

theorem decode?_encode (e : EncryptionInfo) : decode? e.encode = some e := by
  obtain ⟨fs, read, found⟩ := fields?_record e.slots
    ["encryptionType", "kmsKeyVersion"] rfl (by decide)
  simp only [slots, List.forall_mem_cons] at found
  obtain ⟨type, key, -⟩ := found
  rw [encode_eq, decode?]
  simp only [Option.bind_eq_bind]
  rw [bind_of_eq_some read, bind_of_eq_some (Fields.orElse_string type _),
    bind_of_eq_some (Fields.optional_text key)]

end EncryptionInfo

namespace EncryptionConfig

def slots (e : EncryptionConfig) : List (String × Option Json) :=
  [("encryptionType", some (.string e.type.text)), ("kmsKeyName", e.kmsKeyName.map .string)]

theorem encode_eq (e : EncryptionConfig) : e.encode = record (present e.slots) := by
  simp [encode, slots]

theorem plain_encode (e : EncryptionConfig) : Plain 1 e.encode := by
  rw [encode_eq]
  exact .present (by simp [slots])

theorem decode?_encode (e : EncryptionConfig) : decode? e.encode = some e := by
  obtain ⟨fs, read, found⟩ := fields?_record e.slots
    ["encryptionType", "kmsKeyName"] rfl (by decide)
  simp only [slots, List.forall_mem_cons] at found
  obtain ⟨type, key, -⟩ := found
  rw [encode_eq, decode?]
  simp only [Option.bind_eq_bind]
  rw [bind_of_eq_some read,
    bind_of_eq_some (Fields.required_of_lookup type (EncryptionType.ofText?_text e.type)),
    bind_of_eq_some (Fields.optional_text key)]

end EncryptionConfig

namespace Backup
variable {b : Backup}

/-- The times are points of dates in range. -/
structure Dated (b : Backup) : Prop where
  createTime : ∀ t ∈ b.createTime, t.Valid
  versionTime : ∀ t ∈ b.versionTime, t.Valid
  expireTime : ∀ t ∈ b.expireTime, t.Valid
  maxExpireTime : ∀ t ∈ b.maxExpireTime, t.Valid

def slots (b : Backup) : List (String × Option Json) :=
  [("name", some (.string b.name)), ("database", textSlot b.database),
    ("sizeBytes", some (.string (toString b.sizeBytes.toInt))),
    ("createTime", b.createTime.map ofInstant), ("versionTime", b.versionTime.map ofInstant),
    ("expireTime", b.expireTime.map ofInstant), ("maxExpireTime", b.maxExpireTime.map ofInstant),
    ("state", some (.string b.state.text)),
    ("referencingDatabases", listSlot .string b.referencingDatabases),
    ("encryptionInfo", b.encryptionInfo.map EncryptionInfo.encode)]

theorem encode_eq (b : Backup) : b.encode = record (present b.slots) := by
  simp [encode, slots]

theorem plain_encode (b : Backup) : Plain 2 b.encode := by
  rw [encode_eq]
  exact .present (by simpa [slots, EncryptionInfo.plain_encode] using
    ⟨fun _ => plain_textSlot, fun _ => plain_listSlot⟩)

theorem decode?_encode (dated : b.Dated) : decode? b.encode = some b := by
  obtain ⟨fs, read, found⟩ := fields?_record b.slots fieldNames rfl (by decide)
  simp only [slots, List.forall_mem_cons] at found
  obtain ⟨name, database, size, create, version, expire, maxExpire, state, referencing, info, -⟩ :=
    found
  have state' : fs.orElse "state" .unspecified (fun v => v.choice?.map BackupState.ofText) =
      some b.state := by
    rw [Fields.orElse, state]
    exact congrArg some b.state.ofText_text
  have referencing' : fs.orElse "referencingDatabases" [] (asListOf? asString?) =
      some b.referencingDatabases :=
    Fields.orElse_list (fun _ => rfl) referencing
  have info' : fs.optional "encryptionInfo" EncryptionInfo.decode? = some b.encryptionInfo :=
    Fields.optional_of_lookup info fun e _ => ⟨e.decode?_encode, record_ne_null _⟩
  rw [encode_eq, decode?]
  simp only [Option.bind_eq_bind]
  rw [bind_of_eq_some read, bind_of_eq_some (Fields.orElse_string name _),
    bind_of_eq_some (Fields.orElse_text database),
    bind_of_eq_some (Fields.orElse_of_lookup size (asSize?_toString b.sizeBytes) _),
    bind_of_eq_some (optional_instant dated.createTime create),
    bind_of_eq_some (optional_instant dated.versionTime version),
    bind_of_eq_some (optional_instant dated.expireTime expire),
    bind_of_eq_some (optional_instant dated.maxExpireTime maxExpire), bind_of_eq_some state',
    bind_of_eq_some referencing', bind_of_eq_some info']

theorem dated_of_decode? {v : Json} (decoded : decode? v = some b) : b.Dated := by
  simp only [decode?, Option.bind_eq_bind, Option.bind_eq_some_iff] at decoded
  obtain ⟨fs, -, name, -, database, -, size, -, create, h₁, version, h₂, expire, h₃, maxExpire, h₄,
    state, -, referencing, -, info, -, same⟩ := decoded
  obtain rfl := Option.some.inj same
  exact ⟨valid_of_optional h₁, valid_of_optional h₂, valid_of_optional h₃, valid_of_optional h₄⟩

end Backup

namespace BackupInfo
variable {b : BackupInfo}

/-- The times are points of dates in range. -/
structure Dated (b : BackupInfo) : Prop where
  versionTime : ∀ t ∈ b.versionTime, t.Valid
  createTime : ∀ t ∈ b.createTime, t.Valid

def slots (b : BackupInfo) : List (String × Option Json) :=
  [("backup", some (.string b.backup)), ("versionTime", b.versionTime.map ofInstant),
    ("createTime", b.createTime.map ofInstant), ("sourceDatabase", some (.string b.sourceDatabase))]

theorem encode_eq (b : BackupInfo) : b.encode = record (present b.slots) := by
  simp [encode, slots]

theorem plain_encode (b : BackupInfo) : Plain 1 b.encode := by
  rw [encode_eq]
  exact .present (by simp [slots])

theorem decode?_encode (dated : b.Dated) : decode? b.encode = some b := by
  obtain ⟨fs, read, found⟩ := fields?_record b.slots
    ["backup", "versionTime", "createTime", "sourceDatabase"] rfl (by decide)
  simp only [slots, List.forall_mem_cons] at found
  obtain ⟨backup, version, create, source, -⟩ := found
  rw [encode_eq, decode?]
  simp only [Option.bind_eq_bind]
  rw [bind_of_eq_some read, bind_of_eq_some (Fields.orElse_string backup _),
    bind_of_eq_some (optional_instant dated.versionTime version),
    bind_of_eq_some (optional_instant dated.createTime create),
    bind_of_eq_some (Fields.orElse_string source _)]

theorem dated_of_decode? {v : Json} (decoded : decode? v = some b) : b.Dated := by
  simp only [decode?, Option.bind_eq_bind, Option.bind_eq_some_iff] at decoded
  obtain ⟨fs, -, backup, -, version, h₁, create, h₂, source, -, same⟩ := decoded
  obtain rfl := Option.some.inj same
  exact ⟨valid_of_optional h₁, valid_of_optional h₂⟩

end BackupInfo

namespace RestoreInfo
variable {r : RestoreInfo}

/-- The times of the backup are points of dates in range. -/
def Dated (r : RestoreInfo) : Prop := ∀ b ∈ r.backupInfo, b.Dated

def slots (r : RestoreInfo) : List (String × Option Json) :=
  [("sourceType", some (.string r.sourceType)), ("backupInfo", r.backupInfo.map BackupInfo.encode)]

theorem encode_eq (r : RestoreInfo) : r.encode = record (present r.slots) := by
  simp [encode, slots]

theorem plain_encode (r : RestoreInfo) : Plain 2 r.encode := by
  rw [encode_eq]
  exact .present (by simp [slots, BackupInfo.plain_encode])

theorem decode?_encode (dated : r.Dated) : decode? r.encode = some r := by
  obtain ⟨fs, read, found⟩ := fields?_record r.slots
    ["sourceType", "backupInfo"] rfl (by decide)
  simp only [slots, List.forall_mem_cons] at found
  obtain ⟨source, info, -⟩ := found
  have info' : fs.optional "backupInfo" BackupInfo.decode? = some r.backupInfo :=
    Fields.optional_of_lookup info fun b mem =>
      ⟨BackupInfo.decode?_encode (dated b mem), record_ne_null _⟩
  rw [encode_eq, decode?]
  simp only [Option.bind_eq_bind]
  rw [bind_of_eq_some read, bind_of_eq_some (Fields.orElse_string source _), bind_of_eq_some info']

theorem dated_of_decode? {v : Json} (decoded : decode? v = some r) : r.Dated := by
  simp only [decode?, Option.bind_eq_bind, Option.bind_eq_some_iff] at decoded
  obtain ⟨fs, -, source, -, info, h₁, same⟩ := decoded
  obtain rfl := Option.some.inj same
  intro b mem
  obtain ⟨w, -, read⟩ := Fields.read_of_optional h₁ b mem
  exact BackupInfo.dated_of_decode? read

end RestoreInfo

namespace Database
variable {d : Database}

/-- The times are points of dates in range. -/
structure Dated (d : Database) : Prop where
  createTime : ∀ t ∈ d.createTime, t.Valid
  restoreInfo : ∀ r ∈ d.restoreInfo, r.Dated
  earliestVersionTime : ∀ t ∈ d.earliestVersionTime, t.Valid

theorem plain_encodeKey (key : String) : Plain 2 (encodeKey key) := by
  rw [encodeKey, ← present_nil, ← present_some]
  exact .present (by simp)

theorem decodeKey?_encodeKey (key : String) : decodeKey? (encodeKey key) = some key := by
  obtain ⟨fs, read, found⟩ := fields?_record [("kmsKeyName", some (.string key))]
    ["kmsKeyName"] rfl (by decide)
  have name := found _ List.mem_cons_self
  rw [decodeKey?]
  simp only [Option.bind_eq_bind]
  rw [encodeKey, ← present_nil, ← present_some, bind_of_eq_some read, Fields.orElse_string name]

def slots (d : Database) : List (String × Option Json) :=
  [("name", some (.string d.name)), ("state", textSlot d.state),
    ("createTime", d.createTime.map ofInstant),
    ("restoreInfo", d.restoreInfo.map RestoreInfo.encode),
    ("encryptionConfig", d.kmsKeyName.map encodeKey),
    ("versionRetentionPeriod", d.versionRetentionPeriod.map .string),
    ("earliestVersionTime", d.earliestVersionTime.map ofInstant)]

theorem encode_eq (d : Database) : d.encode = record (present d.slots) := by
  simp [encode, slots]

theorem plain_encode (d : Database) : Plain 3 d.encode := by
  rw [encode_eq]
  exact .present (by simpa [slots, RestoreInfo.plain_encode, plain_encodeKey] using
    fun _ => plain_textSlot)

theorem decode?_encode (dated : d.Dated) : decode? d.encode = some d := by
  obtain ⟨fs, read, found⟩ := fields?_record d.slots fieldNames rfl (by decide)
  simp only [slots, List.forall_mem_cons] at found
  obtain ⟨name, state, create, info, key, retention, earliest, -⟩ := found
  have info' : fs.optional "restoreInfo" RestoreInfo.decode? = some d.restoreInfo :=
    Fields.optional_of_lookup info fun r mem =>
      ⟨RestoreInfo.decode?_encode (dated.restoreInfo r mem), record_ne_null _⟩
  have key' : fs.optional "encryptionConfig" decodeKey? = some d.kmsKeyName :=
    Fields.optional_of_lookup key fun key _ => ⟨decodeKey?_encodeKey key, record_ne_null _⟩
  rw [encode_eq, decode?]
  simp only [Option.bind_eq_bind]
  rw [bind_of_eq_some read, bind_of_eq_some (Fields.orElse_string name _),
    bind_of_eq_some (Fields.orElse_text state),
    bind_of_eq_some (optional_instant dated.createTime create), bind_of_eq_some info',
    bind_of_eq_some key', bind_of_eq_some (Fields.optional_text retention),
    bind_of_eq_some (optional_instant dated.earliestVersionTime earliest)]

theorem dated_of_decode? {v : Json} (decoded : decode? v = some d) : d.Dated := by
  simp only [decode?, Option.bind_eq_bind, Option.bind_eq_some_iff] at decoded
  obtain ⟨fs, -, name, -, state, -, create, h₁, info, h₂, key, -, retention, -, earliest, h₃,
    same⟩ := decoded
  obtain rfl := Option.some.inj same
  refine ⟨valid_of_optional h₁, fun r mem => ?_, valid_of_optional h₃⟩
  obtain ⟨w, -, read⟩ := Fields.read_of_optional h₂ r mem
  exact RestoreInfo.dated_of_decode? read

end Database
end BackupAdmin
