import BackupAdmin.Proofs.Catalog
import BackupAdmin.Proofs.Memory.Task

/-! The operation that makes a backup, from its beginning to its end: nothing is touched but it and
its backup. -/
namespace BackupAdmin.Memory

/-- Apart from the backup under `name`, which is now `b`, and from operations behind those of `st₀`,
of which `t` is the first, everything is as in `st₀`. -/
structure Apart (st₀ : Store) (name : String) (b : Option Backup) (t : Task) (st : Store) :
    Prop where
  holds : st.Holds st₀.tasks t
  backups : ∀ k, st.backups.get? k = if k = name then b else st₀.backups.get? k
  databases : st.databases = st₀.databases

namespace Apart
variable {s : Script} {st₀ st st' : Store} {name : String} {b : Option Backup} {t t' : Task}
  {encryption : Option EncryptionConfig}

/-- A backup that is as it was leaves all backups as they were. -/
theorem backups_eq (h : Apart st₀ name b t st) (same : st₀.backups.get? name = b) :
    st.backups = st₀.backups :=
  Catalog.eq_of_changed h.backups same

theorem get?_ne (h : Apart st₀ name b t st) {k : String} (ne : k ≠ name) :
    st.backups.get? k = st₀.backups.get? k := by
  rw [h.backups, if_neg ne]

theorem get?_eq (h : Apart st₀ name b t st) : st.backups.get? name = b := by
  rw [h.backups, if_pos rfl]

/-- The backup is given up. -/
theorem removed (h : Apart st₀ name b t st) (holds : st'.Holds st₀.tasks t')
    (backups : st'.backups = st.backups.erase name) (databases : st'.databases = st.databases) :
    Apart st₀ name none t' st' := by
  refine ⟨holds, fun k => ?_, databases.trans h.databases⟩
  rw [backups]
  exact Catalog.get?_erase_changed h.backups k

/-- The backup is changed. -/
theorem modified (h : Apart st₀ name b t st) (holds : st'.Holds st₀.tasks t') {f : Backup → Backup}
    (backups : st'.backups = st.backups.modify name f) (databases : st'.databases = st.databases) :
    Apart st₀ name (b.map f) t' st' := by
  refine ⟨holds, fun k => ?_, databases.trans h.databases⟩
  rw [backups]
  exact Catalog.get?_modify_changed h.backups f k

/-- The backup is left as it is. -/
theorem kept (h : Apart st₀ name b t st) (holds : st'.Holds st₀.tasks t')
    (backups : st'.backups = st.backups) (databases : st'.databases = st.databases) :
    Apart st₀ name b t' st' :=
  ⟨holds, fun k => backups ▸ h.backups k, databases.trans h.databases⟩

/-- A poll before the last one. -/
theorem poll_pending (h : Apart st₀ name b t st) (pending : t.operation.done = false)
    (more : s.completes (t.polls + 1) = false) :
    ∃ st', s.getOperation t.operation.name st = ⟨.ok (s.polled t).operation, st', 0⟩ ∧
      Apart st₀ name b (s.polled t) st' := by
  have next := Script.holds_poll_pending h.holds more
  refine ⟨_, Script.getOperation_pending h.holds pending next, h.kept next ?_ ?_⟩ <;>
    simp only [Script.poll, more, Bool.false_eq_true, if_false, Store.update]

/-- The last poll, when a failure is scripted. -/
theorem poll_failed (h : Apart st₀ name b t st) (pending : t.operation.done = false)
    (effect : t.effect = .backup name encryption) (last : s.completes (t.polls + 1) = true)
    {e : OperationError} (fault : s.failure = some e) :
    ∃ st', s.getOperation t.operation.name st = ⟨.ok (Script.failed e t).operation, st', 0⟩ ∧
      Apart st₀ name none (Script.failed e t) st' := by
  have next := Script.holds_poll_failed h.holds last fault
  refine ⟨_, Script.getOperation_pending h.holds pending next, h.removed next ?_ ?_⟩ <;>
    simp only [Script.poll, last, if_true, Script.finish, fault, effect, Store.update,
      Store.removePending]

/-- The last poll, when no failure is scripted. -/
theorem poll_succeeded (h : Apart st₀ name b t st) (pending : t.operation.done = false)
    (effect : t.effect = .backup name encryption) (last : s.completes (t.polls + 1) = true)
    (fine : s.failure = none) :
    ∃ response st', s.getOperation t.operation.name st =
        ⟨.ok (Script.succeeded response t).operation, st', 0⟩ ∧
      Apart st₀ name (b.map (s.readyBackup encryption)) (Script.succeeded response t) st' := by
  let ready := st.backups.modify name (s.readyBackup encryption)
  let response := (ready.get? name).map Backup.encode
  have next : (s.poll st st₀.tasks.length t).Holds st₀.tasks (Script.succeeded response t) := by
    have counted := h.holds.update (fun u => { u with polls := t.polls + 1 }) rfl
    have made : ({ st.update st₀.tasks.length (fun u => { u with polls := t.polls + 1 }) with
      backups := ready } : Store).Holds st₀.tasks _ := counted.of_tasks rfl
    simp only [Script.poll, last, if_true, Script.finish, fine, effect, Script.perform]
    exact made.update (fun u =>
      { u with operation := setPercent 100 { u.operation with done := true, response } }) rfl
  refine ⟨response, _, Script.getOperation_pending h.holds pending next,
    h.modified (f := s.readyBackup encryption) next ?_ ?_⟩ <;>
    simp only [Script.poll, last, if_true, Script.finish, fine, effect, Script.perform,
      Store.update]

theorem cancel_honoured (h : Apart st₀ name b t st) (pending : t.operation.done = false)
    (effect : t.effect = .backup name encryption) (honours : s.ignoreCancel = false) :
    ∃ st', s.cancelOperation t.operation.name st = ⟨.ok (), st', 0⟩ ∧
      Apart st₀ name none { t with operation := s.cancelled t.operation } st' := by
  obtain ⟨st', answer, holds, backups, databases⟩ :=
    Script.cancelOperation_honoured h.holds pending honours
  rw [effect] at backups databases
  exact ⟨st', answer, h.removed holds backups databases⟩

theorem cancel_ignored (h : Apart st₀ name b t st) (pending : t.operation.done = false)
    (ignores : s.ignoreCancel = true) :
    ∃ st', s.cancelOperation t.operation.name st = ⟨.ok (), st', 0⟩ ∧ Apart st₀ name b t st' :=
  ⟨_, Script.cancelOperation_ignored h.holds pending ignores,
    h.kept (h.holds.of_tasks rfl) rfl rfl⟩

theorem cleared_eq {b : Backup} (free : b.referencingDatabases = []) :
    { b with referencingDatabases := [] } = b := by
  rw [← free]

theorem countRead (h : Apart st₀ name b t st)
    (free : ∀ b', b = some b' → b'.referencingDatabases = []) :
    Apart st₀ name b t (s.countRead name st) := by
  have same : b.map (fun b => { b with referencingDatabases := [] }) = b := by
    cases b with
    | none => rfl
    | some b => rw [Option.map_some, cleared_eq (free b rfl)]
  unfold Script.countRead
  dsimp only
  split
  · rw [← same]
    refine h.modified ?_ ?_ ?_
    · exact h.holds.of_tasks rfl
    · rfl
    · rfl
  · exact h.kept (h.holds.of_tasks rfl) rfl rfl

/-- Reading the backup tells whether it is there; if nothing refers to it, it is left as it is. -/
theorem getBackup (h : Apart st₀ name b t st)
    (free : ∀ b', b = some b' → b'.referencingDatabases = []) :
    ∃ st', s.getBackup name st = ⟨b.elim (.error (.notFound name)) .ok, st', 0⟩ ∧
      Apart st₀ name b t st' := by
  have counted := h.countRead (s := s) free
  refine ⟨_, ?_, counted⟩
  have found := counted.get?_eq
  cases b <;> simp only [Script.getBackup, found, Option.elim]

theorem deleteBackup {b : Backup} (h : Apart st₀ name (some b) t st)
    (free : b.referencingDatabases = []) :
    ∃ st', Memory.deleteBackup name st = ⟨.ok (), st', 0⟩ ∧ Apart st₀ name none t st' := by
  refine ⟨{ st with backups := st.backups.erase name }, ?_,
    h.removed (h.holds.of_tasks rfl) rfl rfl⟩
  simp only [Memory.deleteBackup, h.get?_eq, free, List.isEmpty_nil, if_true]

end Apart

/-- An operation that makes a backup and was polled `n` times. -/
abbrev Task.Makes (t : Task) (operation backup : String) (encryption : Option EncryptionConfig)
    (n : Nat) : Prop :=
  t.UnderWay operation (.backup backup encryption) n

/-- What the end of an operation leaves of the backup that it makes. -/
def Script.left (s : Script) (encryption : Option EncryptionConfig) (b : Backup) : Option Backup :=
  if s.failure.isSome then none else some (s.readyBackup encryption b)

theorem left_free {s : Script} {encryption : Option EncryptionConfig} {b b' : Backup}
    (free : b.referencingDatabases = []) (h : s.left encryption b = some b') :
    b'.referencingDatabases = [] := by
  unfold Script.left at h
  split at h
  · contradiction
  · cases h
    exact free

section
variable {s : Script} {st₀ st : Store} {name operation : String} {b : Backup} {t : Task}
  {encryption : Option EncryptionConfig} {n : Nat}

/-- A poll before the last one leaves the operation under way. -/
theorem Apart.poll_more (h : Apart st₀ name (some b) t st)
    (makes : t.Makes operation name encryption n) (more : s.completes (n + 1) = false) :
    ∃ t' st', s.getOperation operation st = ⟨.ok t'.operation, st', 0⟩ ∧
      t'.Makes operation name encryption (n + 1) ∧ Apart st₀ name (some b) t' st' := by
  obtain ⟨rfl, pending, fault, effect, rfl⟩ := makes
  obtain ⟨st', answer, apart⟩ := h.poll_pending pending more
  exact ⟨_, st', answer, ⟨rfl, pending, fault, effect, rfl⟩, apart⟩

/-- The last poll ends the operation as the script says. -/
theorem Apart.poll_last (h : Apart st₀ name (some b) t st)
    (makes : t.Makes operation name encryption n) (last : s.completes (n + 1) = true) :
    ∃ t' st', s.getOperation operation st = ⟨.ok t'.operation, st', 0⟩ ∧
      t'.Ended operation s.failure ∧ Apart st₀ name (s.left encryption b) t' st' := by
  obtain ⟨rfl, pending, fault, effect, rfl⟩ := makes
  unfold Script.left
  cases failure : s.failure with
  | some e =>
    obtain ⟨st', answer, apart⟩ := h.poll_failed pending effect last failure
    exact ⟨_, st', answer, ⟨rfl, rfl, rfl⟩, apart⟩
  | none =>
    obtain ⟨response, st', answer, apart⟩ := h.poll_succeeded pending effect last failure
    exact ⟨_, st', answer, ⟨rfl, rfl, fault⟩, apart⟩

/-- The course of an operation that makes a backup. -/
theorem Apart.pursues (s : Script) (st₀ : Store) (operation name : String)
    (encryption : Option EncryptionConfig) (b : Backup) :
    s.Pursues operation
      (fun n t st => t.Makes operation name encryption n ∧ Apart st₀ name (some b) t st)
      (fun t st => t.Ended operation s.failure ∧ Apart st₀ name (s.left encryption b) t st) where
  way h := ⟨_, _, h.2.holds, h.1⟩
  ended h := h.1
  more h := h.2.poll_more h.1
  last h := h.2.poll_last h.1

/-- An operation that has ended stays as it is. -/
theorem Apart.poll_ended {left : Option Backup} {fault : Option OperationError}
    (h : Apart st₀ name left t st) (ended : t.Ended operation fault) :
    s.getOperation operation st = ⟨.ok t.operation, st, 0⟩ := by
  obtain ⟨rfl, done, -⟩ := ended
  exact Script.getOperation_done h.holds done

end

/-- A backup that is put in place by a request is made by an operation of its own. -/
theorem Reachable.apart {s : Script} {st₀ st : Store} {b : Backup} {o : Operation}
    {metadata : Metadata} {encryption : Option EncryptionConfig} (h : Reachable s st₀)
    (begun : (o, st) = (st₀.insertBackup b).begin b.name metadata (.backup b.name encryption)) :
    ∃ t, Apart st₀ b.name (some b) t st ∧ t.Makes o.name b.name encryption 0 := by
  have fresh := h.begun_notMem ⟨st₀.insertBackup b, b.name, metadata, .backup b.name encryption,
    rfl, rfl, begun⟩
  obtain ⟨rfl, rfl⟩ := Prod.mk.inj begun
  refine ⟨_, ⟨⟨⟨[], rfl⟩, fun u mem same => fresh ?_⟩, fun k => ?_, rfl⟩, ⟨rfl, rfl, rfl, rfl, rfl⟩⟩
  · exact List.mem_map.2 ⟨u, mem, same⟩
  · exact Catalog.get?_insert ..

end BackupAdmin.Memory
