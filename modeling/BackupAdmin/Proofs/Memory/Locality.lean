import BackupAdmin.Proofs.Memory.Changes
import BackupAdmin.Proofs.Memory.Deeds

/-! Calls on backups, and what they depend on. Main statement: what such a call answers and what it
changes is decided by its own backups, whatever else the store has. -/
namespace BackupAdmin

/-- The call asks for an operation to be started. -/
def Call.submits : Call → Bool
  | .submit .. => true
  | _ => false

namespace Memory

/-- All backups that the call reads or writes lie in `B`; for an operation it is the backup that the
operation makes, for a copy its source too. -/
def Store.Concerns (st : Store) (B : Set String) : Call → Prop
  | .submit i (.createBackup id ..) => i.backupName id ∈ B
  | .submit i (.copyBackup id source ..) => i.backupName id ∈ B ∧ source ∈ B
  | .getOperation name | .cancelOperation name =>
    (∀ b, OperationOn name b → b ∈ B) ∧
      ∀ i t, st.find? name = some (i, t) → ∃ b encryption, t.effect = .backup b encryption
  | .getBackup name | .updateExpireTime name _ | .deleteBackup name => name ∈ B
  | _ => False

/-- Changing the operation at a place puts another one there. -/
theorem update_eq_set {st : Store} {i : Nat} {t : Task} (at_i : st.tasks[i]? = some t)
    (f : Task → Task) : st.update i f = { st with tasks := st.tasks.set i (f t) } := by
  have tasks : (st.update i f).tasks = st.tasks.set i (f t) := by
    refine List.ext_getElem? fun j => ?_
    rw [Store.getElem?_update, List.getElem?_set]
    split
    case isTrue same =>
      rw [← same, if_pos (List.getElem?_eq_some_iff.1 at_i).1, at_i, Option.map_some]
    case isFalse => rfl
  exact Store.ext rfl rfl tasks rfl rfl rfl rfl

namespace Script

/-- What an operation is after a poll, when `made` is the backup that its end would make. -/
def afterPoll (s : Script) (t : Task) (made : Option Backup) : Task :=
  if s.completes (t.polls + 1) then
    match s.failure with
    | some e => failed e t
    | none => succeeded (made.map Backup.encode) t
  else s.polled t

/-- What a poll changes. -/
def pollChange (s : Script) (i : Nat) (t : Task) (name : String) (made : Option Backup) : Change :=
  { backup := if s.completes (t.polls + 1) then
      match s.failure with
      | some _ => some (name, none)
      | none => some (name, made)
    else none
    task := some (i, s.afterPoll t made) }

theorem poll_eq_apply (s : Script) {st : Store} {i : Nat} {t : Task} {name : String}
    {encryption : Option EncryptionConfig} (at_i : st.tasks[i]? = some t)
    (effect : t.effect = .backup name encryption) :
    s.poll st i t = (s.pollChange i t name
      ((st.backups.get? name).map (s.readyBackup encryption))).apply st := by
  let counted := st.update i fun u => { u with polls := t.polls + 1 }
  have set : counted = { st with tasks := st.tasks.set i { t with polls := t.polls + 1 } } :=
    update_eq_set at_i _
  have again (st' : Store) (tasks : st'.tasks = counted.tasks) (f : Task → Task) :
      st'.update i f =
        { st' with tasks := st.tasks.set i (f { t with polls := t.polls + 1 }) } := by
    have lt := (List.getElem?_eq_some_iff.1 at_i).1
    have at_i' : st'.tasks[i]? = some { t with polls := t.polls + 1 } := by
      rw [tasks, set, List.getElem?_set_self lt]
    rw [update_eq_set at_i', tasks, set, List.set_set]
  rw [Change.apply_of_begun rfl]
  unfold poll pollChange afterPoll Change.replaced
  dsimp only
  cases s.completes (t.polls + 1) with
  | false => exact (again counted rfl _).trans rfl
  | true =>
    simp only [if_true, finish, effect]
    cases s.failure with
    | some e => exact (again (counted.removePending (.backup name encryption)) rfl _).trans rfl
    | none =>
      let backups := st.backups.modify name (s.readyBackup encryption)
      have put : backups = st.backups.put name ((st.backups.get? name).map
        (s.readyBackup encryption)) := Catalog.modify_eq_put ..
      have made : backups.get? name = (st.backups.get? name).map (s.readyBackup encryption) := by
        rw [put, Catalog.get?_put, if_pos rfl]
      refine (again { counted with backups } rfl _).trans ?_
      simp only [Option.elim_some]
      rw [← put, ← made]
      rfl

end Script

/-- The call makes the change `ch` to backups in `B`, and is answered so and makes it in every store
that is alike on these. -/
structure Script.Does (s : Script) (c : Call) (B : Set String) (st : Store) (ch : Change) :
    Prop where
  on : ch.On B st
  begins : c.submits = false → ch.begun = none
  answers : ∀ st', st.Alike B st' → (c.submits = true → st'.nextId = st.nextId) →
    (service s).answer c st' = ⟨((service s).answer c st).result, ch.apply st', 0⟩

section
variable {s : Script} {st : Store} {B : Set String} {c : Call} {ch : Change}

theorem Script.Does.state (does : s.Does c B st ch) :
    ((service s).answer c st).state = ch.apply st :=
  congrArg (·.state) (does.answers st (.refl B st) fun _ => rfl)

theorem does_of_answers (result : Except AdminError c.Answer) (on : ch.On B st)
    (begins : c.submits = false → ch.begun = none)
    (answers : ∀ st', st.Alike B st' → (c.submits = true → st'.nextId = st.nextId) →
      (service s).answer c st' = ⟨result, ch.apply st', 0⟩) : s.Does c B st ch := by
  refine ⟨on, begins, fun st' alike same => ?_⟩
  rw [answers st' alike same, answers st (.refl B st) fun _ => rfl]

/-- A call that changes nothing, wherever the backups in `B` are the same. -/
theorem does_nothing (result : Except AdminError c.Answer)
    (answers : ∀ st', st.Alike B st' → (c.submits = true → st'.nextId = st.nextId) →
      (service s).answer c st' = ⟨result, st', 0⟩) : s.Does c B st {} :=
  does_of_answers result (Change.nothing_on B st) (fun _ => rfl) fun st' alike same => by
    rw [answers st' alike same, Change.apply_of_begun rfl]
    rfl

variable {name : String}

theorem does_getBackup (mem : name ∈ B) : ∃ ch, s.Does (.getBackup name) B st ch := by
  obtain ⟨cleared, eq⟩ : ∃ cleared, ((st.backups.get? name).map fun b =>
    { b with referencingDatabases := [] }) = cleared := ⟨_, rfl⟩
  cases clears : s.referencesClearAfter.any (· < (st.backupReads.get? name).getD 0 + 1) with
  | false =>
    refine ⟨{ read := some name }, does_of_answers
      ((st.backups.get? name).elim (.error (.notFound name)) .ok)
      ⟨by rintro _ ⟨⟩, by rintro _ ⟨⟩, by rintro _ ⟨⟩, by rintro _ ⟨⟩; exact mem⟩ (fun _ => rfl)
      fun st' alike _ => ?_⟩
    rw [Change.apply_of_begun rfl]
    change s.getBackup name st' = _
    simp only [Script.getBackup, Script.countRead, Catalog.count, Option.elim_some,
      alike.reads name mem, clears, Bool.false_eq_true, if_false, alike.backups name mem]
    cases st.backups.get? name <;> rfl
  | true =>
    refine ⟨{ read := some name, backup := some (name, cleared) }, does_of_answers
      (cleared.elim (.error (.notFound name)) .ok)
      ⟨by rintro _ ⟨⟩; exact mem, by rintro _ ⟨⟩, by rintro _ ⟨⟩, by rintro _ ⟨⟩; exact mem⟩
      (fun _ => rfl) fun st' alike _ => ?_⟩
    rw [Change.apply_of_begun rfl]
    change s.getBackup name st' = _
    simp only [Script.getBackup, Script.countRead, Catalog.count, Option.elim_some,
      alike.reads name mem, clears, if_true, Catalog.modify_eq_put, alike.backups name mem,
      Catalog.get?_put, eq]
    cases cleared <;> rfl

theorem does_updateExpireTime (mem : name ∈ B) (t : Instant) :
    ∃ ch, s.Does (.updateExpireTime name t) B st ch := by
  cases found : st.backups.get? name with
  | none =>
    refine ⟨{}, does_nothing (.error (.notFound name)) fun st' alike _ => ?_⟩
    change updateExpireTime name t st' = _
    simp only [updateExpireTime, alike.backups name mem, found]
  | some b =>
    cases late : b.maxExpireTime.any (·.before t) with
    | true =>
      refine ⟨{}, does_nothing (.error (.invalidArgument ("expire time " ++
        t.messageText ++ " is past the max expire time"))) fun st' alike _ => ?_⟩
      change updateExpireTime name t st' = _
      simp only [updateExpireTime, alike.backups name mem, found, late, if_true]
    | false =>
      let b' := { b with expireTime := some t }
      refine ⟨{ backup := some (name, some b') }, does_of_answers (.ok b')
        ⟨by rintro _ ⟨⟩; exact mem, by rintro _ ⟨⟩, by rintro _ ⟨⟩, by rintro _ ⟨⟩⟩ (fun _ => rfl)
        fun st' alike _ => ?_⟩
      rw [Change.apply_of_begun rfl]
      change updateExpireTime name t st' = _
      simp only [updateExpireTime, alike.backups name mem, found, late, Bool.false_eq_true,
        if_false]
      rfl

theorem does_deleteBackup (mem : name ∈ B) : ∃ ch, s.Does (.deleteBackup name) B st ch := by
  cases found : st.backups.get? name with
  | none =>
    refine ⟨{}, does_nothing (.error (.notFound name)) fun st' alike _ => ?_⟩
    change deleteBackup name st' = _
    simp only [deleteBackup, alike.backups name mem, found]
  | some b =>
    cases free : b.referencingDatabases.isEmpty with
    | false =>
      refine ⟨{}, does_nothing (.error (.preconditionFailed ("backup " ++ shortName name ++
        " is referenced by " ++ Text.joinWith ", " b.referencingDatabases))) fun st' alike _ => ?_⟩
      change deleteBackup name st' = _
      simp only [deleteBackup, alike.backups name mem, found, free, Bool.false_eq_true, if_false]
    | true =>
      refine ⟨{ backup := some (name, none) }, does_of_answers (.ok ())
        ⟨by rintro _ ⟨⟩; exact mem, by rintro _ ⟨⟩, by rintro _ ⟨⟩, by rintro _ ⟨⟩⟩ (fun _ => rfl)
        fun st' alike _ => ?_⟩
      rw [Change.apply_of_begun rfl]
      change deleteBackup name st' = _
      simp only [deleteBackup, alike.backups name mem, found, free, if_true]
      rfl

theorem afterPoll_keeps (s : Script) (t : Task) (made : Option Backup) :
    (s.afterPoll t made).operation.name = t.operation.name ∧
      (s.afterPoll t made).effect = t.effect := by
  unfold Script.afterPoll
  split
  · split <;> exact ⟨rfl, rfl⟩
  · exact ⟨rfl, rfl⟩

theorem pollChange_backup {i : Nat} {t : Task} {b : String} {made : Option Backup}
    {e : String × Option Backup} (change : (s.pollChange i t b made).backup = some e) :
    e.1 = b := by
  unfold Script.pollChange at change
  dsimp only at change
  split at change
  · split at change <;> cases change <;> rfl
  · contradiction

/-- An operation that makes a backup is called after it. -/
theorem operationOn_of_effect {i : Nat} {t : Task} {b : String}
    {encryption : Option EncryptionConfig} (reachable : Reachable s st)
    (at_i : st.tasks[i]? = some t) (effect : t.effect = .backup b encryption) :
    OperationOn t.operation.name b := by
  have sound := reachable.sound at_i
  have resource := sound.targets (.backup b) (by rw [effect]; rfl)
  obtain ⟨b', part, works_on, named, -, free⟩ := sound.named
  obtain rfl : b = b' := Option.some.inj (resource.symm.trans works_on)
  exact ⟨part, named, free⟩

theorem does_getOperation (reachable : Reachable s st)
    (concerned : st.Concerns B (.getOperation name)) :
    ∃ ch, s.Does (.getOperation name) B st ch := by
  obtain ⟨owned, of_backup⟩ := concerned
  cases found : st.find? name with
  | none =>
    refine ⟨{}, does_nothing (.error (.notFound name)) fun st' alike _ => ?_⟩
    exact Script.getOperation_none ((alike.found name owned).trans found)
  | some place =>
    obtain ⟨i, t⟩ := place
    obtain ⟨at_i, named, -⟩ := Store.find?_eq_some_iff.1 found
    cases done : t.operation.done with
    | true =>
      refine ⟨{}, does_nothing (.ok t.operation) fun st' alike _ => ?_⟩
      have found' := (alike.found name owned).trans found
      have at_i' := (Store.find?_eq_some_iff.1 found').1
      change s.getOperation name st' = _
      simp only [Script.getOperation, found', done, if_true, at_i']
    | false =>
      obtain ⟨b, encryption, effect⟩ := of_backup i t found
      have on_b : OperationOn t.operation.name b := operationOn_of_effect reachable at_i effect
      have mem : b ∈ B := owned b (named ▸ on_b)
      let made := (st.backups.get? b).map (s.readyBackup encryption)
      obtain ⟨keeps_name, keeps_effect⟩ := afterPoll_keeps s t made
      refine ⟨s.pollChange i t b made, does_of_answers (.ok (s.afterPoll t made).operation)
        ⟨fun e change => pollChange_backup change ▸ mem, ?_, by rintro _ ⟨⟩, by rintro _ ⟨⟩⟩
        (fun _ => rfl) fun st' alike _ => ?_⟩
      · rintro e ⟨⟩
        exact ⟨t, at_i, keeps_name, keeps_effect, b, mem, on_b⟩
      · have found' := (alike.found name owned).trans found
        have at_i' := (Store.find?_eq_some_iff.1 found').1
        have polled := s.poll_eq_apply at_i' effect
        rw [alike.backups b mem] at polled
        have at_new : ((s.pollChange i t b made).apply st').tasks[i]? =
            some (s.afterPoll t made) := by
          rw [Change.apply_of_begun rfl]
          exact List.getElem?_set_self (List.getElem?_eq_some_iff.1 at_i').1
        change s.getOperation name st' = _
        simp only [Script.getOperation, found', done, Bool.false_eq_true, if_false, polled]
        rw [at_new]

theorem does_cancelOperation (reachable : Reachable s st)
    (concerned : st.Concerns B (.cancelOperation name)) :
    ∃ ch, s.Does (.cancelOperation name) B st ch := by
  obtain ⟨owned, of_backup⟩ := concerned
  have counts : ({ cancelled := some name } : Change).On B st := by
    constructor <;> rintro _ ⟨⟩
  -- the request is counted in any case
  have only_counted (result : Except AdminError Unit)
      (answers : ∀ st', st.Alike B st' →
        s.cancelOperation name st' = ⟨result, st'.countCancel name, 0⟩) :
      s.Does (.cancelOperation name) B st { cancelled := some name } := by
    refine does_of_answers result counts (fun _ => rfl) fun st' alike _ => ?_
    rw [Change.apply_of_begun rfl]
    exact answers st' alike
  cases found : st.find? name with
  | none =>
    refine ⟨_, only_counted (.error (.notFound name)) fun st' alike => ?_⟩
    have found' : (st'.countCancel name).find? name = none := (alike.found name owned).trans found
    simp only [Script.cancelOperation, found']
  | some place =>
    obtain ⟨i, t⟩ := place
    obtain ⟨at_i, named, -⟩ := Store.find?_eq_some_iff.1 found
    have again {st' : Store} (alike : st.Alike B st') :
        (st'.countCancel name).find? name = some (i, t) := (alike.found name owned).trans found
    cases done : t.operation.done with
    | true =>
      refine ⟨_, only_counted (.error (.preconditionFailed
        ("operation " ++ name ++ " has already finished"))) fun st' alike => ?_⟩
      simp only [Script.cancelOperation, again alike, done, if_true]
    | false =>
      cases ignores : s.ignoreCancel with
      | true =>
        refine ⟨_, only_counted (.ok ()) fun st' alike => ?_⟩
        simp only [Script.cancelOperation, again alike, done, ignores, Bool.false_eq_true, if_false,
          if_true]
      | false =>
        obtain ⟨b, encryption, effect⟩ := of_backup i t found
        have on_b : OperationOn t.operation.name b := operationOn_of_effect reachable at_i effect
        have mem : b ∈ B := owned b (named ▸ on_b)
        let t' : Task := { t with operation := s.cancelled t.operation }
        refine ⟨{ backup := some (b, none), task := some (i, t'), cancelled := some name },
          does_of_answers (.ok ()) ⟨by rintro _ ⟨⟩; exact mem, ?_, by rintro _ ⟨⟩,
            by rintro _ ⟨⟩⟩ (fun _ => rfl) fun st' alike _ => ?_⟩
        · rintro e ⟨⟩
          exact ⟨t, at_i, rfl, rfl, b, mem, on_b⟩
        · have at_i' := (Store.find?_eq_some_iff.1 (again alike)).1
          rw [Change.apply_of_begun rfl]
          change s.cancelOperation name st' = _
          simp only [Script.cancelOperation, again alike, done, ignores, Bool.false_eq_true,
            if_false, effect]
          have at_removed : ((st'.countCancel name).removePending
              (.backup b encryption)).tasks[i]? = some t := at_i'
          rw [update_eq_set at_removed]
          rfl

/-- A new backup and the operation that makes it. -/
def begins (st : Store) (b : Backup) (metadata : Metadata) (encryption : Option EncryptionConfig) :
    Change :=
  { backup := some (b.name, some b)
    begun := some { operation := (st.begin b.name metadata (.backup b.name encryption)).1
                    effect := .backup b.name encryption } }

theorem begins_on {b : Backup} (mem : b.name ∈ B) (metadata : Metadata)
    (encryption : Option EncryptionConfig) : (begins st b metadata encryption).On B st := by
  refine ⟨by rintro _ ⟨⟩; exact mem, by rintro _ ⟨⟩, ?_, by rintro _ ⟨⟩⟩
  rintro t ⟨⟩
  refine ⟨⟨b.name, mem, "op-" ++ toString (st.nextId + 1), ?_,
    Store.slash_notMem_numbered (by decide) _⟩, b.name, encryption, rfl⟩
  have split : "/operations/op-" = "/operations/" ++ "op-" := rfl
  simp only [Store.begin, split, String.append_assoc]

/-- The new backup and its operation come to a store of the same number. -/
theorem begin_eq_apply {st' : Store} (same : st'.nextId = st.nextId) (b : Backup)
    (metadata : Metadata) (encryption : Option EncryptionConfig) :
    (st'.insertBackup b).begin b.name metadata (.backup b.name encryption) =
      ((st.begin b.name metadata (.backup b.name encryption)).1,
        (begins st b metadata encryption).apply st') := by
  have first : ((st'.insertBackup b).begin b.name metadata (.backup b.name encryption)).1 =
      (st.begin b.name metadata (.backup b.name encryption)).1 := by
    simp only [Store.begin, Store.insertBackup, same]
  let task (o : Operation) : Task := { operation := o, effect := .backup b.name encryption }
  exact Prod.ext first (Store.ext rfl rfl (congrArg (fun o => st'.tasks ++ [task o]) first) rfl rfl
    rfl rfl)

/-- A request that is refused or begins to make `b`, as backups in `B` decide. -/
theorem exists_does_submit {α : Type} {i : Instance} {r : Request} {b : Backup} (mem : b.name ∈ B)
    (metadata : Metadata) (encryption : Option EncryptionConfig) (verdict : Except AdminError α)
    (answers : ∀ st', st.Alike B st' → s.submit i r st' =
      match verdict.map fun _ =>
        (st'.insertBackup b).begin b.name metadata (.backup b.name encryption) with
      | .ok (o, st) => ⟨.ok o, st, 0⟩
      | .error e => ⟨.error e, st', 0⟩) :
    ∃ ch, s.Does (.submit i r) B st ch := by
  cases verdict with
  | error e =>
    exact ⟨{}, does_nothing (.error e) fun st' alike _ => answers st' alike⟩
  | ok a =>
    refine ⟨begins st b metadata encryption, does_of_answers
      (.ok (st.begin b.name metadata (.backup b.name encryption)).1)
      (begins_on mem metadata encryption) (fun no => by contradiction) fun st' alike same => ?_⟩
    have answer := answers st' alike
    simp only [Except.map] at answer
    rw [begin_eq_apply (same rfl)] at answer
    exact answer

section
variable {i : Instance} {name database source : String} {expire : Instant}
  {version : Option Instant} {encryption : Option EncryptionConfig} {st' : Store}

/-- Whether a new backup is accepted depends on the databases and on the backup of its name. -/
theorem createBackup_congr (databases : st'.databases = st.databases)
    (same : st'.backups.get? (i.backupName name) = st.backups.get? (i.backupName name)) :
    s.createBackup i name database expire version encryption st' =
      (s.createBackup i name database expire version encryption st).map fun _ =>
        (st'.insertBackup
          { name := i.backupName name, database, expireTime := some expire, versionTime := version
            state := .creating }).begin (i.backupName name)
          (.createBackup (i.backupName name) database s.started none)
          (.backup (i.backupName name) encryption) := by
  unfold Script.createBackup Catalog.contains
  dsimp only
  rw [databases, same]
  cases s.checkExpire expire with
  | error e => rfl
  | ok u =>
    cases (st.databases.get? database).isSome with
    | false => rfl
    | true => cases (st.backups.get? (i.backupName name)).isSome <;> rfl

/-- Whether a copy is accepted depends on its source and on the backup of its name. -/
theorem copyBackup_congr {src : Backup} (found : st.backups.get? source = some src)
    (same' : st'.backups.get? source = st.backups.get? source)
    (same : st'.backups.get? (i.backupName name) = st.backups.get? (i.backupName name)) :
    s.copyBackup i name source expire encryption st' =
      (s.copyBackup i name source expire encryption st).map fun _ =>
        (st'.insertBackup
          { name := i.backupName name, database := src.database, expireTime := some expire
            versionTime := src.versionTime, state := .creating }).begin (i.backupName name)
          (.copyBackup (i.backupName name) source s.started none)
          (.backup (i.backupName name) encryption) := by
  unfold Script.copyBackup Catalog.contains
  dsimp only
  rw [same', found]
  dsimp only
  rw [same]
  cases s.checkExpire expire with
  | error e => rfl
  | ok u =>
    dsimp only [bind, Except.bind]
    cases src.isReady with
    | false => rfl
    | true => cases (st.backups.get? (i.backupName name)).isSome <;> rfl

theorem copyBackup_absent (absent : st.backups.get? source = none) :
    s.copyBackup i name source expire encryption st =
      (s.checkExpire expire).bind fun _ => .error (.notFound source) := by
  unfold Script.copyBackup
  rw [absent]
  rfl

theorem does_createBackup (mem : i.backupName name ∈ B) :
    ∃ ch, s.Does (.submit i (.createBackup name database expire version encryption)) B st ch := by
  let b : Backup :=
    { name := i.backupName name, database, expireTime := some expire, versionTime := version
      state := .creating }
  refine exists_does_submit (b := b) mem
    (.createBackup (i.backupName name) database s.started none) encryption
    (s.createBackup i name database expire version encryption st) fun st' alike => ?_
  unfold Script.submit
  dsimp only
  exact createBackup_congr alike.databases (alike.backups _ mem) ▸ rfl

theorem does_copyBackup (mem : i.backupName name ∈ B) (mem' : source ∈ B) :
    ∃ ch, s.Does (.submit i (.copyBackup name source expire encryption)) B st ch := by
  cases found : st.backups.get? source with
  | none =>
    let verdict : Except AdminError Operation :=
      (s.checkExpire expire).bind fun _ => .error (.notFound source)
    refine ⟨{}, does_nothing verdict fun st' alike _ => ?_⟩
    change s.submit i (.copyBackup name source expire encryption) st' = _
    unfold Script.submit
    dsimp only
    rw [copyBackup_absent ((alike.backups _ mem').trans found)]
    cases check : s.checkExpire expire <;> simp only [verdict, check, Except.bind]
  | some src =>
    let b : Backup :=
      { name := i.backupName name, database := src.database, expireTime := some expire
        versionTime := src.versionTime, state := .creating }
    refine exists_does_submit (b := b) mem
      (.copyBackup (i.backupName name) source s.started none) encryption
      (s.copyBackup i name source expire encryption st) fun st' alike => ?_
    unfold Script.submit
    dsimp only
    exact copyBackup_congr found (alike.backups _ mem') (alike.backups _ mem) ▸ rfl

end

/-- Every call on backups in `B` makes a change to these, and depends on nothing else. -/
theorem exists_does (reachable : Reachable s st) (concerned : st.Concerns B c) :
    ∃ ch, s.Does c B st ch := by
  cases c with
  | submit i r =>
    cases r with
    | createBackup => exact does_createBackup concerned
    | copyBackup => exact does_copyBackup concerned.1 concerned.2
    | restoreDatabase | createDatabase => exact concerned.elim
  | getOperation name => exact does_getOperation reachable concerned
  | cancelOperation name => exact does_cancelOperation reachable concerned
  | getBackup name => exact does_getBackup concerned
  | updateExpireTime name t => exact does_updateExpireTime concerned t
  | deleteBackup name => exact does_deleteBackup concerned
  | listBackups | listOperations | getDatabase | dropDatabase => exact concerned.elim

end

end Memory
end BackupAdmin
