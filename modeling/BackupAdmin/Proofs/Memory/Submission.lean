import BackupAdmin.Memory.Service

/-! What a request that a service in memory accepts does to it: it puts in place what is to be
made, and begins an operation on it. -/
namespace BackupAdmin.Memory.Script
variable {s : Script} {st st' : Store} {i : Instance} {o : Operation}

/-- The database that a restore puts in place. -/
def restoring (s : Script) (name : String) (key : Option String) (b : Backup) : Database :=
  { name, state := "CREATING", createTime := some s.now
    restoreInfo := some ⟨"BACKUP", some ⟨b.name, b.versionTime, b.createTime, b.database⟩⟩
    kmsKeyName := key }

/-- The database that a request with a statement puts in place. -/
def creating (s : Script) (name period : String) : Database :=
  { name, state := "CREATING", createTime := some s.now, earliestVersionTime := some s.now
    versionRetentionPeriod := some period }

/-- A new backup is put in place under a name that was free. -/
theorem createBackup_ok {id database : String} {expire : Instant} {version : Option Instant}
    {encryption : Option EncryptionConfig}
    (h : s.createBackup i id database expire version encryption st = .ok (o, st')) :
    s.checkExpire expire = .ok () ∧ st.databases.contains database = true ∧
      st.backups.get? (i.backupName id) = none ∧
      (o, st') = (st.insertBackup
        { name := i.backupName id, database, expireTime := some expire, versionTime := version
          state := .creating }).begin (i.backupName id)
        (.createBackup (i.backupName id) database s.started none)
        (.backup (i.backupName id) encryption) := by
  unfold createBackup at h
  cases check : s.checkExpire expire with
  | error e => simp [check, bind, Except.bind] at h
  | ok u =>
    simp only [check, bind, Except.bind] at h
    split at h
    · contradiction
    case isFalse known =>
      split at h
      · contradiction
      case isFalse free =>
        injection h with h
        refine ⟨rfl, by simpa using known, ?_, h.symm⟩
        simpa [Catalog.contains] using free

/-- A copy is put in place under a name that was free, with what its source has. -/
theorem copyBackup_ok {id source : String} {expire : Instant} {encryption : Option EncryptionConfig}
    (h : s.copyBackup i id source expire encryption st = .ok (o, st')) :
    ∃ src, s.checkExpire expire = .ok () ∧ st.backups.get? source = some src ∧ src.isReady = true ∧
      st.backups.get? (i.backupName id) = none ∧
      (o, st') = (st.insertBackup
        { name := i.backupName id, database := src.database, expireTime := some expire
          versionTime := src.versionTime, state := .creating }).begin (i.backupName id)
        (.copyBackup (i.backupName id) source s.started none)
        (.backup (i.backupName id) encryption) := by
  unfold copyBackup at h
  cases check : s.checkExpire expire with
  | error e => simp [check, bind, Except.bind] at h
  | ok u =>
    simp only [check, bind, Except.bind] at h
    split at h
    · contradiction
    case h_2 src found =>
      split at h
      · contradiction
      case isFalse ready =>
        split at h
        · contradiction
        case isFalse free =>
          injection h with h
          refine ⟨src, rfl, found, by simpa using ready, ?_, h.symm⟩
          simpa [Catalog.contains] using free

/-- A database to restore into is put in place under a name that was free. -/
theorem restoreDatabase_ok {id backup : String} {encryption : Option EncryptionConfig}
    (h : s.restoreDatabase i id backup encryption st = .ok (o, st')) :
    ∃ b, st.backups.get? backup = some b ∧ st.databases.get? (i.databaseName id) = none ∧
      (o, st') = ({ st with databases := (st.databases.insert (i.databaseName id)
        (s.restoring (i.databaseName id) (encryption.bind (·.kmsKeyName)) b)) }).begin
        (i.databaseName id) (.restoreDatabase (i.databaseName id) "BACKUP"
          (some ⟨b.name, b.versionTime, b.createTime, b.database⟩) s.started "")
        (.restore (i.databaseName id) b.name) := by
  unfold restoreDatabase at h
  split at h
  · contradiction
  case h_2 b found =>
    dsimp only at h
    split at h
    · contradiction
    case isFalse free =>
      injection h with h
      exact ⟨b, found, by simpa [Catalog.contains] using free, h.symm⟩

/-- A database is put in place under a name that was free. -/
theorem createDatabase_ok {statement : String} {extra : List String}
    (h : s.createDatabase i statement extra st = .ok (o, st')) :
    st.databases.get? (i.databaseName (lastWord statement)) = none ∧
      (o, st') = ({ st with databases := (st.databases.insert (i.databaseName (lastWord statement))
        (s.creating (i.databaseName (lastWord statement)) ((retentionPeriod extra).getD "1h")))
        }).begin (i.databaseName (lastWord statement))
        (.createDatabase (i.databaseName (lastWord statement)))
        (.createDatabase (i.databaseName (lastWord statement))) := by
  unfold createDatabase at h
  dsimp only at h
  split at h
  · contradiction
  case isFalse free =>
    injection h with h
    exact ⟨by simpa [Catalog.contains] using free, h.symm⟩

/-- The request is accepted: it puts a backup in place under a name that was free, and begins the
operation that makes it. -/
def Places (s : Script) (i : Instance) (r : Request) (st : Store) (b : Backup)
    (encryption : Option EncryptionConfig) (o : Operation) : Prop :=
  ∃ st' metadata, s.submit i r st = ⟨.ok o, st', 0⟩ ∧ st.backups.get? b.name = none ∧
    (o, st') = (st.insertBackup b).begin b.name metadata (.backup b.name encryption)

/-- A reply with an operation comes from a request that was accepted. -/
theorem exists_of_reply {result : Except AdminError (Operation × Store)}
    (h : (match result with
      | .ok (o, st) => (⟨.ok o, st, 0⟩ : Reply Store Operation)
      | .error e => ⟨.error e, st, 0⟩).result = .ok o) : ∃ st', result = .ok (o, st') := by
  rcases result with e | ⟨o', st'⟩
  · contradiction
  · injection h with same
    exact ⟨st', by rw [same]⟩

/-- A request for a backup that is accepted puts it in place and begins its operation. -/
theorem submit_createBackup_ok {id database : String} {expire : Instant} {version : Option Instant}
    {encryption : Option EncryptionConfig}
    (h : (s.submit i (.createBackup id database expire version encryption) st).result = .ok o) :
    s.Places i (.createBackup id database expire version encryption) st
      { name := i.backupName id, database, expireTime := some expire, versionTime := version
        state := .creating } encryption o := by
  obtain ⟨st', accepted⟩ := exists_of_reply h
  obtain ⟨-, -, free, begun⟩ := createBackup_ok accepted
  exact ⟨st', _, by simp only [submit, accepted], free, begun⟩

/-- A request for a copy that is accepted puts it in place with what its source has. -/
theorem submit_copyBackup_ok {id source : String} {expire : Instant}
    {encryption : Option EncryptionConfig}
    (h : (s.submit i (.copyBackup id source expire encryption) st).result = .ok o) :
    ∃ src, st.backups.get? source = some src ∧
      s.Places i (.copyBackup id source expire encryption) st
        { name := i.backupName id, database := src.database, expireTime := some expire
          versionTime := src.versionTime, state := .creating } encryption o := by
  obtain ⟨st', accepted⟩ := exists_of_reply h
  obtain ⟨src, -, found, -, free, begun⟩ := copyBackup_ok accepted
  exact ⟨src, found, st', _, by simp only [submit, accepted], free, begun⟩

/-- A request for a database that is accepted puts it in place and begins its operation. -/
theorem submit_restoreDatabase_ok {id backup : String} {encryption : Option EncryptionConfig}
    (h : (s.submit i (.restoreDatabase id backup encryption) st).result = .ok o) :
    ∃ b st', s.submit i (.restoreDatabase id backup encryption) st = ⟨.ok o, st', 0⟩ ∧
      st.backups.get? backup = some b ∧ st.databases.get? (i.databaseName id) = none ∧
      (o, st') = ({ st with databases := (st.databases.insert (i.databaseName id)
        (s.restoring (i.databaseName id) (encryption.bind (·.kmsKeyName)) b)) }).begin
        (i.databaseName id) (.restoreDatabase (i.databaseName id) "BACKUP"
          (some ⟨b.name, b.versionTime, b.createTime, b.database⟩) s.started "")
        (.restore (i.databaseName id) b.name) := by
  obtain ⟨st', accepted⟩ := exists_of_reply h
  obtain ⟨b, found, free, begun⟩ := restoreDatabase_ok accepted
  exact ⟨b, st', by simp only [submit, accepted], found, free, begun⟩

/-- The same for a request with a statement, which is for the database that its last word names. -/
theorem submit_createDatabase_ok {statement : String} {extra : List String}
    (h : (s.submit i (.createDatabase statement extra) st).result = .ok o) :
    ∃ st', s.submit i (.createDatabase statement extra) st = ⟨.ok o, st', 0⟩ ∧
      st.databases.get? (i.databaseName (lastWord statement)) = none ∧
      (o, st') = ({ st with databases := (st.databases.insert (i.databaseName (lastWord statement))
        (s.creating (i.databaseName (lastWord statement)) ((retentionPeriod extra).getD "1h")))
        }).begin (i.databaseName (lastWord statement))
        (.createDatabase (i.databaseName (lastWord statement)))
        (.createDatabase (i.databaseName (lastWord statement))) := by
  obtain ⟨st', accepted⟩ := exists_of_reply h
  obtain ⟨free, begun⟩ := createDatabase_ok accepted
  exact ⟨st', by simp only [submit, accepted], free, begun⟩

/-- One operation was begun, and no other one was touched. -/
def Begins (st : Store) (o : Operation) (st' : Store) : Prop :=
  ∃ (st₁ : Store) (resource : String) (metadata : Metadata) (effect : Effect),
    st₁.tasks = st.tasks ∧ st₁.nextId = st.nextId ∧ (o, st') = st₁.begin resource metadata effect

/-- A request is refused and changes nothing, or it begins an operation. -/
theorem submit_begins (s : Script) (i : Instance) (r : Request) (st : Store) :
    (∃ e, s.submit i r st = ⟨.error e, st, 0⟩) ∨
      ∃ o st', s.submit i r st = ⟨.ok o, st', 0⟩ ∧ Begins st o st' := by
  unfold submit
  dsimp only
  split
  case h_2 e refused => exact .inl ⟨e, rfl⟩
  case h_1 o st' accepted =>
    refine .inr ⟨o, st', rfl, ?_⟩
    cases r with
    | createBackup id database expire version encryption =>
      obtain ⟨-, -, -, begun⟩ := createBackup_ok accepted
      refine ⟨_, _, _, _, ?_, ?_, begun⟩ <;> rfl
    | copyBackup id source expire encryption =>
      obtain ⟨src, -, -, -, -, begun⟩ := copyBackup_ok accepted
      refine ⟨_, _, _, _, ?_, ?_, begun⟩ <;> rfl
    | restoreDatabase id backup encryption =>
      obtain ⟨b, -, -, begun⟩ := restoreDatabase_ok accepted
      refine ⟨_, _, _, _, ?_, ?_, begun⟩ <;> rfl
    | createDatabase statement extra =>
      obtain ⟨-, begun⟩ := createDatabase_ok accepted
      refine ⟨_, _, _, _, ?_, ?_, begun⟩ <;> rfl

end BackupAdmin.Memory.Script
