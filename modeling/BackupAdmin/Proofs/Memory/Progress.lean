import BackupAdmin.Proofs.Memory.Filters
import BackupAdmin.Proofs.Memory.Listings
import BackupAdmin.Proofs.Operation.Encoding
import BackupAdmin.Workflow.Basic

/-! How far the operations of an instance have come. Main statement: on a service in memory the
overviews of operations succeed, and show just the operations that they are for, each of them once
and in the order in which they came. -/
namespace BackupAdmin.Memory
open Text

/-- A filter makes sense for every operation and admits just those that pass a test. -/
def Chooses (filter : String) (test : Operation → Bool) : Prop :=
  ∀ o, admits (operationField o) (some filter) = .ok (test o)

/-- The type of work that filters see is the one that stands in what is written of the work. -/
theorem field?_encode_type (m : Metadata) :
    m.encode.field? "@type" = some (.string (typeText m)) := by
  have distinct : ((("@type", some (Json.string m.slots.1)) :: m.slots.2).map (·.1)).Nodup := by
    cases m <;> simp [Metadata.slots]
  have same : m.slots.1 = typeText m := by cases m <;> rfl
  rw [Metadata.encode_eq, Json.record, Json.field?,
    Json.lookup_sortMembers ((Json.names_present _).nodup distinct), Json.present_some,
    List.lookup_cons_self, same]

/-- The type of an operation's work, as filters see it. -/
def workType (o : Operation) : String := (o.metadata.map typeText).getD ""

/-- The database that an operation makes a backup of, as filters see it. -/
def backedUp (o : Operation) : String :=
  match o.metadata with
  | some (.createBackup _ database _ _) => database
  | _ => ""

/-- The backup that an operation copies, as filters see it. -/
def copied (o : Operation) : String :=
  match o.metadata with
  | some (.copyBackup _ source _ _) => source
  | _ => ""

section
variable {filter type key id : String} {text : Operation → String}

/-- A type of work that a filter can look for. -/
structure PlainType (type : String) : Prop where
  chars : ∀ c ∈ type.toList, isIdChar c = true
  absent : 'A' ∉ type.toList

theorem plain_typeKey : ∀ c ∈ "metadata.@type".toList, isIdChar c = true ∨ c = '@' :=
  forall_mem_of_all (by decide)

theorem PlainType.admits (plain : PlainType type) (o : Operation) :
    termAdmits? (operationField o) (keyed "metadata.@type" type) =
      some (contains type.toList (workType o).toList) :=
  termAdmits?_keyed plain_typeKey plain.chars rfl

/-- A filter in brackets that looks for operations by the type of their work. -/
theorem chooses_type (written : filter.toList = '(' :: (keyed "metadata.@type" type ++ [')']))
    (plain : PlainType type) :
    Chooses filter fun o => contains type.toList (workType o).toList := by
  have bare := bare_keyed plain_typeKey plain.chars
  have absent : 'A' ∉ filter.toList := by
    rw [written]
    simp [keyed, plain.absent]
  intro o
  exact admits_one (written ▸ bare.bracketed) (by decide : 'A' ∈ " AND ".toList) absent
    (plain.admits o)

/-- A filter of two terms in brackets, the first of them for the type of the work and the second
for an id in a text. -/
theorem chooses_type_and_id
    (written : filter.toList = ('(' :: (keyed "metadata.@type" type ++ [')'])) ++
      (" AND ".toList ++ ('(' :: (keyed key id ++ [')']))))
    (plain : PlainType type) (plain_key : ∀ c ∈ key.toList, isIdChar c = true ∨ c = '@')
    (plain_id : ∀ c ∈ id.toList, isIdChar c = true)
    (named : ∀ o, operationField o key = some (.text (text o))) :
    Chooses filter fun o => contains type.toList (workType o).toList &&
      contains id.toList (text o).toList := by
  have bare := bare_keyed plain_typeKey plain.chars
  have bare' := bare_keyed plain_key plain_id
  have absent : 'A' ∉ '(' :: (keyed "metadata.@type" type ++ [')']) := by
    simp [keyed, plain.absent]
  have no_blank : ' ' ∉ keyed key id := notMem_keyed plain_key plain_id (by decide)
  have absent' : ' ' ∉ '(' :: (keyed key id ++ [')']) := by simp [no_blank]
  intro o
  exact admits_two written bare.bracketed bare'.bracketed absent (by decide) absent' (plain.admits o)
    (termAdmits?_keyed plain_key plain_id (named o))

theorem plainType_of_all (plain : type.toList.all (fun c => isIdChar c = true) = true)
    (absent : 'A' ∉ type.toList) : PlainType type :=
  ⟨forall_mem_of_all plain, absent⟩

theorem PlainType.append {rest : String} (plain : PlainType type) (plain' : PlainType rest) :
    PlainType (type ++ rest) := by
  constructor
  · simpa [or_imp, forall_and] using ⟨plain.chars, plain'.chars⟩
  · simpa using ⟨plain.absent, plain'.absent⟩

theorem plainType_root : PlainType Metadata.typeRoot :=
  plainType_of_all (by decide +kernel) (by decide +kernel)

theorem plainType_createBackup : PlainType Metadata.createBackupType :=
  plainType_root.append (plainType_of_all (by decide) (by decide))

theorem plainType_copyBackup : PlainType Metadata.copyBackupType :=
  plainType_root.append (plainType_of_all (by decide) (by decide))

theorem plainType_optimizeRestored : PlainType Metadata.optimizeRestoredType :=
  plainType_root.append (plainType_of_all (by decide) (by decide))

theorem chooses_createBackupOperations (plain : ∀ c ∈ id.toList, isIdChar c = true) :
    Chooses (Filter.createBackupOperations id) fun o =>
      contains Metadata.createBackupType.toList (workType o).toList &&
        contains id.toList (backedUp o).toList := by
  have text : Filter.createBackupOperations id = "(metadata.@type:" ++
    Metadata.createBackupType ++ ") AND (metadata.database:" ++ id ++ ")" := rfl
  have plain_type := plainType_createBackup
  have named : ∀ o, operationField o "metadata.database" = some (.text (backedUp o)) := fun o => rfl
  -- what the type is matters no more, and spelled out it is long
  generalize Metadata.createBackupType = type at text plain_type ⊢
  refine chooses_type_and_id ?_ plain_type (forall_mem_of_all (by decide)) plain named
  simp [text, keyed]

theorem chooses_copyBackupOperations (plain : ∀ c ∈ id.toList, isIdChar c = true) :
    Chooses (Filter.copyBackupOperations id) fun o =>
      contains Metadata.copyBackupType.toList (workType o).toList &&
        contains id.toList (copied o).toList := by
  have text : Filter.copyBackupOperations id = "(metadata.@type:" ++
    Metadata.copyBackupType ++ ") AND (metadata.source_backup:" ++ id ++ ")" := rfl
  have plain_type := plainType_copyBackup
  have named : ∀ o, operationField o "metadata.source_backup" = some (.text (copied o)) :=
    fun o => rfl
  generalize Metadata.copyBackupType = type at text plain_type ⊢
  refine chooses_type_and_id ?_ plain_type (forall_mem_of_all (by decide)) plain named
  simp [text, keyed]

theorem chooses_optimizeOperations :
    Chooses Filter.optimizeOperations fun o =>
      contains Metadata.optimizeRestoredType.toList (workType o).toList := by
  have text : Filter.optimizeOperations =
    "(metadata.@type:" ++ Metadata.optimizeRestoredType ++ ")" := rfl
  refine chooses_type ?_ plainType_optimizeRestored
  simp [text, keyed]

end

section
variable {s : Script} {c : Client Store} {w : World Store} {st : Store} {filter : String}
  {test : Operation → Bool}

/-- A selection by a test that makes sense everywhere has all that passes it. -/
theorem filterM_eq {α : Type} {test : α → Except AdminError Bool} {passes : α → Bool}
    (decided : ∀ a, test a = .ok (passes a)) (items : List α) :
    filterM test items = .ok (items.filter passes) := by
  have selects := selects_filterM test items
  generalize filterM test items = result at selects ⊢
  cases selects with
  | all => simp only [decided, Except.toOption, Option.getD_some]
  | failed before after a e split _ fails => cases (decided a).symm.trans fails

/-- Reading the operations of a listing that pass a test. -/
theorem run_operations (served : s.Serves c.service) (kind : OperationListKind) (i : Instance)
    (chooses : Chooses filter test) (w : World Store) :
    ∃ w', (Workflow.collect (c.operations kind i (some filter))).run w =
      some (.ok ((ownOperations kind i w.service).filter test), w') ∧ w'.service = w.service := by
  have pages := pages_operations served kind i (some filter) none w.service
  rw [filterM_eq chooses] at pages
  obtain ⟨w', read, stays, -⟩ := pages.collect_whole rfl
  exact ⟨w', read, stays⟩

/-- How far an operation has come, when an instance has it and it creates a backup of a database
with an id in its name. -/
def creating? (i : Instance) (id : String) (o : Operation) : Option BackupProgress :=
  match o.metadata with
  | some (.createBackup name database p _) =>
    if i.owns o.name = true ∧ id.toList <:+: database.toList then
      some ⟨name, database, p.percent, false⟩
    else none
  | _ => none

/-- How far an operation has come, when an instance has it and it copies a backup with an id in its
name. -/
def copying? (i : Instance) (id : String) (o : Operation) : Option BackupProgress :=
  match o.metadata with
  | some (.copyBackup name source p _) =>
    if i.owns o.name = true ∧ id.toList <:+: source.toList then
      some ⟨name, source, p.percent, true⟩
    else none
  | _ => none

/-- How far an operation has come, when an instance has it and it optimizes a restored database. -/
def optimizing? (i : Instance) (o : Operation) : Option OptimizeProgress :=
  match o.metadata with
  | some (.optimizeRestored name p) => if i.owns o.name then some ⟨name, p.percent⟩ else none
  | _ => none

theorem filterMap_ownOperations {α : Type} (kind : OperationListKind) (i : Instance) (st : Store)
    (test : Operation → Bool) (show? : Operation → Option α) :
    ((ownOperations kind i st).filter test).filterMap show? =
      (st.tasks.map (·.operation)).filterMap fun o =>
        if (belongs kind o && i.owns o.name) && test o then show? o else none := by
  rw [ownOperations, List.filter_filter, List.filterMap_filter]
  exact List.filterMap_congr fun o _ => by rw [Bool.and_comm]

theorem contains_self (cs : List Char) : contains cs cs = true := contains_iff.2 (List.infix_refl cs)

theorem filterMap_creating (i : Instance) (id : String) (st : Store) :
    ((ownOperations .backup i st).filter fun o =>
        contains Metadata.createBackupType.toList (workType o).toList &&
          contains id.toList (backedUp o).toList).filterMap Workflow.createProgress? =
      (st.tasks.map (·.operation)).filterMap (creating? i id) := by
  rw [filterMap_ownOperations]
  refine List.filterMap_congr fun o _ => ?_
  obtain ⟨name, metadata, done, error, response⟩ := o
  unfold Workflow.createProgress? creating?
  cases metadata with
  | none => simp
  | some m =>
    cases m with
    | createBackup =>
      simp [belongs, workType, typeText, backedUp, contains_self, contains_iff]
    | _ => simp

theorem filterMap_copying (i : Instance) (id : String) (st : Store) :
    ((ownOperations .backup i st).filter fun o =>
        contains Metadata.copyBackupType.toList (workType o).toList &&
          contains id.toList (copied o).toList).filterMap Workflow.copyProgress? =
      (st.tasks.map (·.operation)).filterMap (copying? i id) := by
  rw [filterMap_ownOperations]
  refine List.filterMap_congr fun o _ => ?_
  obtain ⟨name, metadata, done, error, response⟩ := o
  unfold Workflow.copyProgress? copying?
  cases metadata with
  | none => simp
  | some m =>
    cases m with
    | copyBackup => simp [belongs, workType, typeText, copied, contains_self, contains_iff]
    | _ => simp

theorem filterMap_optimizing (i : Instance) (st : Store) :
    ((ownOperations .database i st).filter fun o =>
        contains Metadata.optimizeRestoredType.toList (workType o).toList).filterMap
          Workflow.optimizeProgress? =
      (st.tasks.map (·.operation)).filterMap (optimizing? i) := by
  rw [filterMap_ownOperations]
  refine List.filterMap_congr fun o _ => ?_
  obtain ⟨name, metadata, done, error, response⟩ := o
  unfold Workflow.optimizeProgress? optimizing?
  cases metadata with
  | none => simp
  | some m =>
    cases m with
    | optimizeRestored => simp [belongs, workType, typeText, contains_self]
    | _ => simp

theorem run_listBackupOperations (served : s.Serves c.service) (i : Instance)
    {database backup : String} (plain_database : ∀ c ∈ database.toList, isIdChar c = true)
    (plain_backup : ∀ c ∈ backup.toList, isIdChar c = true) (w : World Store) :
    ∃ w', (Workflow.listBackupOperations c i database backup).run w =
      some (.ok ⟨(w.service.tasks.map (·.operation)).filterMap (creating? i database) ++
        (w.service.tasks.map (·.operation)).filterMap (copying? i backup)⟩, w') ∧
      w'.service = w.service := by
  obtain ⟨w₁, creates, stays⟩ :=
    run_operations served .backup i (chooses_createBackupOperations plain_database) w
  obtain ⟨w₂, copies, stays'⟩ :=
    run_operations served .backup i (chooses_copyBackupOperations plain_backup) w₁
  refine ⟨w₂, ?_, stays'.trans stays⟩
  rw [Workflow.listBackupOperations, Session.run_bind_ok creates, Session.run_bind_ok copies, stays,
    filterMap_creating, filterMap_copying]
  rfl

theorem run_listDatabaseOperations (served : s.Serves c.service) (i : Instance)
    (w : World Store) :
    ∃ w', (Workflow.listDatabaseOperations c i).run w =
      some (.ok ⟨(w.service.tasks.map (·.operation)).filterMap (optimizing? i)⟩, w') ∧
      w'.service = w.service := by
  obtain ⟨w', optimizes, stays⟩ := run_operations served .database i chooses_optimizeOperations w
  refine ⟨w', ?_, stays⟩
  rw [Workflow.listDatabaseOperations, Session.run_bind_ok optimizes, filterMap_optimizing]
  rfl

/-- Whatever operations there are, put in by hand or begun, the overview of backup operations
succeeds for ids of plain characters. It shows, in the order in which the operations came, how far
those of the instance are that create a backup of a database with the one id in its name, and then
those that copy a backup with the other id in its name. The overview of database operations
succeeds and shows in the same way the operations of the instance that optimize restored databases.
Both leave the service as it is. -/
theorem overviews_of_operations (served : c.service = service s) (i : Instance)
    {database backup : String} (plain_database : ∀ c ∈ database.toList, isIdChar c = true)
    (plain_backup : ∀ c ∈ backup.toList, isIdChar c = true) :
    let operations := w.service.tasks.map (·.operation)
    (∃ w', (Workflow.listBackupOperations c i database backup).run w =
      some (.ok ⟨operations.filterMap (creating? i database) ++
        operations.filterMap (copying? i backup)⟩, w') ∧ w'.service = w.service) ∧
    ∃ w', (Workflow.listDatabaseOperations c i).run w =
      some (.ok ⟨operations.filterMap (optimizing? i)⟩, w') ∧ w'.service = w.service :=
  have serves := Script.serves_of_eq served
  ⟨run_listBackupOperations serves i plain_database plain_backup w,
    run_listDatabaseOperations serves i w⟩

/-- Operations of all kinds, put in by hand, some of them of another instance. -/
def mixedOperations (i j : Instance) : Store :=
  let create (i : Instance) (database : String) (n : Int32) : Operation :=
    { name := i.backupName "b" ++ "/operations/o"
      metadata := some (.createBackup (i.backupName "b") (i.databaseName database)
        { percent := n } none) }
  let copy (source : String) : Operation :=
    { name := i.backupName "c" ++ "/operations/o"
      metadata := some (.copyBackup (i.backupName "c") (i.backupName source) { percent := 7 } none) }
  [create j "db" 20, copy "src", firstPoll.optimizing (i.databaseName "db" ++ "/operations/o")
      (i.databaseName "db"), create i "db" 30, create i "other" 40].foldl Store.insertOperation {}

/-- Of five operations put in out of order each overview shows its own. -/
theorem overviews_of_mixedOperations :
    let c : Client Store := { service := service firstPoll }
    let i : Instance := ⟨"p", "i"⟩
    let w : World Store := { service := mixedOperations i ⟨"p", "j"⟩, start := firstPoll.now }
    c.service = service firstPoll ∧ (∀ c ∈ "s/db".toList, isIdChar c = true) ∧
      (∀ c ∈ "src".toList, isIdChar c = true) ∧
      (∃ w', (Workflow.listBackupOperations c i "s/db" "src").run w =
        some (.ok ⟨[⟨i.backupName "b", i.databaseName "db", 30, false⟩,
          ⟨i.backupName "c", i.backupName "src", 7, true⟩]⟩, w') ∧ w'.service = w.service) ∧
      ∃ w', (Workflow.listDatabaseOperations c i).run w =
        some (.ok ⟨[⟨i.databaseName "db", 50⟩]⟩, w') ∧ w'.service = w.service := by
  intro c i w
  have served : c.service = service firstPoll := rfl
  have plain : ∀ c ∈ "s/db".toList, isIdChar c = true := forall_mem_of_all (by decide)
  have plain' : ∀ c ∈ "src".toList, isIdChar c = true := forall_mem_of_all (by decide)
  obtain ⟨⟨w₁, backups, stays⟩, w₂, databases, stays'⟩ :=
    overviews_of_operations (w := w) served i plain plain'
  refine ⟨served, plain, plain', ⟨w₁, backups.trans ?_, stays⟩, w₂, databases.trans ?_, stays'⟩
  · have shown : ((w.service.tasks.map (·.operation)).filterMap (creating? i "s/db") ++
        (w.service.tasks.map (·.operation)).filterMap (copying? i "src")) =
      [⟨i.backupName "b", i.databaseName "db", 30, false⟩,
        ⟨i.backupName "c", i.backupName "src", 7, true⟩] := by decide +kernel
    rw [shown]
  · have shown : (w.service.tasks.map (·.operation)).filterMap (optimizing? i) =
      [⟨i.databaseName "db", 50⟩] := by decide +kernel
    rw [shown]

end
end BackupAdmin.Memory
