import BackupAdmin.Proofs.Memory.Counters
import BackupAdmin.Proofs.Memory.Paging

/-! Listing the backups and operations of an instance. Main statement: in every store that a service
comes to, a listing has all that its filter admits, whatever its page size, or the error of its
filter. -/
open Relation (ReflTransGen)
namespace BackupAdmin.Memory

/-- The backups of an instance, in the order of their names. -/
def ownBackups (i : Instance) (st : Store) : List Backup :=
  st.backups.values.filter (i.owns ·.name)

/-- The operations of an instance and kind, in the order in which they came. -/
def ownOperations (kind : OperationListKind) (i : Instance) (st : Store) : List Operation :=
  (st.tasks.map (·.operation)).filter fun o => belongs kind o && i.owns o.name

/-- A store that a machine with words of 64 bits has room for. -/
structure Store.Fits (st : Store) : Prop where
  backups : st.backups.entries.length < UInt64.size
  tasks : st.tasks.length < UInt64.size

section
variable {s : Script} {c : Client Store} {w : World Store} {st : Store} {b : Backup}
  {filter : Option String} {i : Instance}

theorem Selects.length_le {α : Type} {test : α → Except AdminError Bool} {items selected : List α}
    (h : Selects test items (.ok selected)) : selected.length ≤ items.length := by
  cases h with
  | all => exact List.length_filter_le ..

theorem Selects.mem_iff {α : Type} {test : α → Except AdminError Bool} {items selected : List α}
    (h : Selects test items (.ok selected)) {a : α} :
    a ∈ selected ↔ a ∈ items ∧ test a = .ok true := by
  cases h with
  | all decided =>
    rw [List.mem_filter]
    refine and_congr_right fun mem => ?_
    obtain ⟨d, eq⟩ := decided a mem
    simp [eq, Except.toOption]

theorem pages_backups (served : c.service = service s) (i : Instance) (filter : Option String)
    (size : Option Nat) (st : Store) :
    Pages { c.backups i filter with pageSize := size } (.listBackups i) st
      (filterM (fun b => admits (backupField b) filter) (ownBackups i st)) := by
  rintro token w rfl
  cases c with | mk answers _ _ _ =>
  subst served
  exact ⟨_, Prod.ext (id_map (listBackups i ⟨filter, size, token⟩ w.service)) rfl, rfl,
    World.after_calls ..⟩

theorem pages_operations (served : s.Serves c.service) (kind : OperationListKind) (i : Instance)
    (filter : Option String) (size : Option Nat) (st : Store) :
    Pages { c.operations kind i filter with pageSize := size } (.listOperations kind i) st
      (filterM (fun o => admits (operationField o) filter) (ownOperations kind i st)) := by
  rintro token w rfl
  let r := listOperations kind i ⟨filter, size, token⟩ w.service
  have reply : c.service.answer (.listOperations kind i ⟨filter, size, token⟩) w.service =
      listing r w.service := served _ _ trivial
  refine ⟨w.after (.listOperations kind i ⟨filter, size, token⟩) (listing r w.service), ?_, rfl,
    World.after_calls ..⟩
  simp only [Client.operations, Client.fetch, Pager.request, reply]
  exact Prod.ext (id_map r) rfl

theorem length_ownBackups_le (i : Instance) (st : Store) :
    (ownBackups i st).length ≤ st.backups.entries.length :=
  (List.length_filter_le ..).trans_eq (List.length_map ..)

/-- The backups of an instance that a filter admits, in the order of their names. -/
theorem selected_backups {selected : List Backup} (filed : Filed st.backups)
    (selects : Selects (fun b => admits (backupField b) filter) (ownBackups i st) (.ok selected)) :
    selected.Pairwise (·.name < ·.name) ∧
      ∀ b, b ∈ selected ↔ st.backups.get? b.name = some b ∧ i.owns b.name = true ∧
        admits (backupField b) filter = .ok true := by
  constructor
  · cases selects with
    | all => exact (filed.increasing.filter _).filter _
  · intro b
    rw [selects.mem_iff, ownBackups, List.mem_filter, filed.mem_values_iff, and_assoc]

end

/-- A service that ends operations at their first poll. -/
def firstPoll : Script := { now := ⟨0, 0⟩ }

/-- Three backups of an instance, put in out of order. -/
def threeBackups (i : Instance) : Store :=
  ((({} : Store).insertBackup { name := i.backupName "c" }).insertBackup
    { name := i.backupName "a" }).insertBackup { name := i.backupName "b" }

theorem arises_threeBackups (i : Instance) : Arises firstPoll (threeBackups i) :=
  ((ReflTransGen.refl.tail (.insertBackup _)).tail (.insertBackup _)).tail (.insertBackup _)

end BackupAdmin.Memory
