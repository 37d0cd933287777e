import BackupAdmin.Proofs.Memory.Numbering
import Mathlib.Logic.Relation

/-! What holds of every store that a service in memory comes to. Main statements: each backup and
each database is filed under its own name, and operations stand in the order in which they came. -/
open Relation (ReflTransGen)
namespace BackupAdmin.Memory

/-- Everything in a catalog is filed under its own name. -/
def FiledBy {α : Type} (name : α → String) (c : Catalog α) : Prop :=
  ∀ k a, c.get? k = some a → name a = k

namespace FiledBy
variable {α : Type} {name : α → String} {c : Catalog α}

theorem empty : FiledBy name .empty := fun k a found => by simp at found

theorem insert (h : FiledBy name c) {k : String} {a : α} (own : name a = k) :
    FiledBy name (c.insert k a) := by
  intro l b found
  rw [Catalog.get?_insert] at found
  split at found
  case isTrue same => rw [same, ← own, Option.some.inj found]
  case isFalse => exact h l b found

theorem erase (h : FiledBy name c) (k : String) : FiledBy name (c.erase k) := by
  intro l a found
  rw [Catalog.get?_erase] at found
  split at found
  · contradiction
  · exact h l a found

theorem mapValues (h : FiledBy name c) {f : String → α → α}
    (keeps : ∀ k a, name (f k a) = name a) : FiledBy name (c.mapValues f) := by
  intro k a found
  rw [Catalog.get?_mapValues] at found
  obtain ⟨b, filed, rfl⟩ := Option.map_eq_some_iff.1 found
  rw [keeps, h k b filed]

theorem modify (h : FiledBy name c) (k : String) {f : α → α}
    (keeps : ∀ a, name (f a) = name a) : FiledBy name (c.modify k f) := by
  refine h.mapValues fun l a => ?_
  split
  · exact keeps a
  · rfl

end FiledBy

/-- Every backup is filed under its own name. -/
def Filed (backups : Catalog Backup) : Prop :=
  ∀ name b, backups.get? name = some b → b.name = name

namespace Filed
variable {backups : Catalog Backup}

theorem name_of_mem (h : Filed backups) {e : String × Backup} (mem : e ∈ backups.entries) :
    e.2.name = e.1 := h e.1 e.2 ((Catalog.lookup_eq_some_iff backups.sorted).2 mem)

/-- The names of filed backups increase in the order in which the backups are listed. -/
theorem increasing (h : Filed backups) : backups.values.Pairwise (·.name < ·.name) := by
  refine List.pairwise_map.2 (backups.sorted.imp_of_mem fun {a b} mem mem' lt => ?_)
  rwa [h.name_of_mem mem, h.name_of_mem mem']

theorem mem_values_iff (h : Filed backups) {b : Backup} :
    b ∈ backups.values ↔ backups.get? b.name = some b := by
  constructor
  · intro listed
    obtain ⟨e, mem, rfl⟩ := List.mem_map.1 listed
    rw [h.name_of_mem mem]
    exact (Catalog.lookup_eq_some_iff backups.sorted).2 mem
  · intro found
    exact List.mem_map.2 ⟨_, (Catalog.lookup_eq_some_iff backups.sorted).1 found, rfl⟩

end Filed

/-- The backups and the databases of a store are filed under their own names. -/
structure Titled (st : Store) : Prop where
  backups : FiledBy Backup.name st.backups
  databases : FiledBy Database.name st.databases

section
variable {s : Script} {st : Store}

theorem Titled.insertDatabase (h : Titled st) (now : Instant) (name : String) :
    Titled (st.insertDatabase now name) :=
  ⟨h.backups, h.databases.insert rfl⟩

theorem Titled.insertBackup (h : Titled st) (b : Backup) : Titled (st.insertBackup b) :=
  ⟨h.backups.insert rfl, h.databases⟩

theorem Titled.removePending (h : Titled st) (e : Effect) : Titled (st.removePending e) := by
  cases e with
  | backup name encryption => exact ⟨h.backups.erase name, h.databases⟩
  | restore name | createDatabase name => exact ⟨h.backups, h.databases.erase name⟩
  | nothing => exact h

theorem Titled.perform (h : Titled st) (s : Script) (i : Nat) (e : Effect) :
    Titled (s.perform st i e).2 := by
  cases e with
  | backup name encryption => exact ⟨h.backups.modify name fun b => rfl, h.databases⟩
  | restore name backup =>
    exact ⟨h.backups.modify backup fun b => rfl, h.databases.modify name fun d => rfl⟩
  | createDatabase name => exact ⟨h.backups, h.databases.modify name fun d => rfl⟩
  | nothing => exact h

/-- What becomes of an operation has to do with no name. -/
theorem Titled.update (h : Titled st) (i : Nat) (f : Task → Task) : Titled (st.update i f) :=
  ⟨h.backups, h.databases⟩

theorem Titled.finish (h : Titled st) (s : Script) (i : Nat) (e : Effect) :
    Titled (s.finish st i e) := by
  unfold Script.finish
  cases s.failure with
  | some fault => exact (h.removePending e).update i _
  | none => exact (h.perform s i e).update i _

theorem Titled.poll (h : Titled st) (s : Script) (i : Nat) (t : Task) :
    Titled (s.poll st i t) := by
  unfold Script.poll
  dsimp only
  split
  · exact (h.update i _).finish s i t.effect
  · exact (h.update i _).update i _

theorem Titled.getOperation (h : Titled st) (s : Script) (name : String) :
    Titled (s.getOperation name st).state := by
  unfold Script.getOperation
  cases st.find? name with
  | none => exact h
  | some found =>
    obtain ⟨i, t⟩ := found
    have polled : Titled (if t.operation.done then st else s.poll st i t) := by
      split
      · exact h
      · exact h.poll s i t
    dsimp only
    split <;> exact polled

theorem Titled.cancelOperation (h : Titled st) (s : Script) (name : String) :
    Titled (s.cancelOperation name st).state := by
  have counted : Titled (st.countCancel name) := ⟨h.backups, h.databases⟩
  unfold Script.cancelOperation
  dsimp only
  split
  · exact counted
  · split
    · exact counted
    · split
      · exact counted
      · exact (counted.removePending _).update _ _

theorem Titled.submit (h : Titled st) (s : Script) (i : Instance) (r : Request) :
    Titled (s.submit i r st).state := by
  unfold Script.submit
  dsimp only
  split
  case h_2 e refused => exact h
  case h_1 o st' accepted =>
    cases r with
    | createBackup id database expire version encryption =>
      obtain ⟨-, -, -, begun⟩ := Script.createBackup_ok accepted
      obtain rfl := congrArg (·.2) begun
      exact ⟨h.backups.insert rfl, h.databases⟩
    | copyBackup id source expire encryption =>
      obtain ⟨src, -, -, -, -, begun⟩ := Script.copyBackup_ok accepted
      obtain rfl := congrArg (·.2) begun
      exact ⟨h.backups.insert rfl, h.databases⟩
    | restoreDatabase id backup encryption =>
      obtain ⟨b, -, -, begun⟩ := Script.restoreDatabase_ok accepted
      obtain rfl := congrArg (·.2) begun
      exact ⟨h.backups, h.databases.insert rfl⟩
    | createDatabase statement extra =>
      obtain ⟨-, begun⟩ := Script.createDatabase_ok accepted
      obtain rfl := congrArg (·.2) begun
      exact ⟨h.backups, h.databases.insert rfl⟩

theorem Titled.getBackup (h : Titled st) (s : Script) (name : String) :
    Titled (s.getBackup name st).state := by
  have counted : Titled (s.countRead name st) := by
    unfold Script.countRead
    dsimp only
    split
    · exact ⟨h.backups.modify name fun b => rfl, h.databases⟩
    · exact ⟨h.backups, h.databases⟩
  unfold Script.getBackup
  dsimp only
  split <;> exact counted

theorem Titled.updateExpireTime (h : Titled st) (name : String) (t : Instant) :
    Titled (updateExpireTime name t st).state := by
  unfold Memory.updateExpireTime
  split
  · exact h
  case h_2 b found =>
    split
    · exact h
    · -- the backup goes back to the place where it was found
      have own : b.name = name := h.backups name b found
      exact own ▸ h.insertBackup { b with expireTime := some t }

theorem Titled.deleteBackup (h : Titled st) (name : String) :
    Titled (deleteBackup name st).state := by
  unfold Memory.deleteBackup
  split
  · exact h
  · split
    · exact ⟨h.backups.erase name, h.databases⟩
    · exact h

theorem Titled.dropDatabase (h : Titled st) (name : String) :
    Titled (dropDatabase name st).state := by
  unfold Memory.dropDatabase
  split
  · exact ⟨h.backups.mapValues fun name b => rfl, h.databases.erase name⟩
  · exact h

/-- Every call leaves each backup and each database under its own name. -/
theorem Titled.answer (h : Titled st) (s : Script) (c : Call) :
    Titled ((service s).answer c st).state := by
  cases c with
  | submit i r => exact h.submit s i r
  | getOperation name => exact h.getOperation s name
  | cancelOperation name => exact h.cancelOperation s name
  | listBackups i p | listOperations kind i p => exact h
  | getBackup name => exact h.getBackup s name
  | updateExpireTime name t => exact h.updateExpireTime name t
  | deleteBackup name => exact h.deleteBackup name
  | getDatabase name =>
    change Titled (getDatabase name st).state
    exact (getDatabase_state name st).symm ▸ h
  | dropDatabase name => exact h.dropDatabase name

/-- One thing that happens to a store: something is put in by hand, or a call is answered. -/
inductive Moves (s : Script) (st : Store) : Store → Prop
  | insertDatabase (name : String) : Moves s st (st.insertDatabase s.now name)
  | insertBackup (b : Backup) : Moves s st (st.insertBackup b)
  | insertOperation (o : Operation) : Moves s st (st.insertOperation o)
  | call (c : Call) : Moves s st ((service s).answer c st).state

/-- The stores that a service comes to by calls, with anything put in by hand at any time. -/
def Arises (s : Script) : Store → Prop := ReflTransGen (Moves s) {}

theorem Arises.titled (h : Arises s st) : Titled st := by
  induction h with
  | refl => exact ⟨.empty, .empty⟩
  | tail _ move ih =>
    cases move with
    | insertDatabase name => exact ih.insertDatabase s.now name
    | insertBackup b => exact ih.insertBackup b
    | insertOperation o => exact ⟨ih.backups, ih.databases⟩
    | call c => exact ih.answer s c

theorem Reachable.titled (h : Reachable s st) : Titled st := by
  induction h with
  | new => exact ⟨.empty, .empty⟩
  | insertDatabase h name ih => exact ih.insertDatabase s.now name
  | insertBackup h b ih => exact ih.insertBackup b
  | call h c ih => exact ih.answer s c

theorem Arises.filed (h : Arises s st) : Filed st.backups := h.titled.backups

end

end BackupAdmin.Memory
