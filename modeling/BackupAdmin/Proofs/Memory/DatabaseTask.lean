import BackupAdmin.Proofs.Catalog
import BackupAdmin.Proofs.Memory.Progress
import BackupAdmin.Proofs.Memory.Task

/-! The operation that makes a database, anew or from a backup, from its beginning to its end:
nothing is touched but it, its database and, when it has succeeded, the backup that the database
comes from. -/
namespace BackupAdmin.Memory

theorem modify_behind {α : Type} (as : List α) (a : α) (bs : List α) (f : α → α) :
    (as ++ a :: bs).modify as.length f = as ++ f a :: bs := by
  rw [List.modify_eq_take_cons_drop (by simp)]
  simp

theorem typeText_withPercent (n : Int32) (m : Metadata) : typeText (m.withPercent n) = typeText m := by
  cases m <;> rfl

@[simp] theorem workType_setPercent (n : Int32) (o : Operation) :
    workType (setPercent n o) = workType o := by
  unfold workType setPercent
  cases o.metadata with
  | none => rfl
  | some m => exact typeText_withPercent n m

@[simp] theorem workType_withOptimize (name : String) (o : Operation) :
    workType (Script.withOptimize name o) = workType o := by
  unfold workType Script.withOptimize
  cases o.metadata with
  | none => rfl
  | some m => cases m <;> rfl

/-- What is no optimization is not shown among the optimizations. -/
theorem optimizing?_of_other (i : Instance) {o : Operation}
    (other : workType o ≠ Metadata.optimizeRestoredType) : optimizing? i o = none := by
  unfold optimizing?
  split
  case h_1 name p same =>
    refine absurd ?_ other
    rw [workType, same]
    rfl
  · rfl

/-- Behind the operations of `st₀` stand `t`, which is no optimization, and the operations `rest`;
the database under `name` is `d`, and the other ones are as in `st₀`. -/
structure Alongside (st₀ : Store) (name : String) (d : Option Database) (backups : Catalog Backup)
    (t : Task) (rest : List Task) (st : Store) : Prop where
  tasks : st.tasks = st₀.tasks ++ t :: rest
  first : ∀ u ∈ st₀.tasks, u.operation.name ≠ t.operation.name
  work : workType t.operation ≠ Metadata.optimizeRestoredType
  databases : ∀ k, st.databases.get? k = if k = name then d else st₀.databases.get? k
  backups : st.backups = backups

/-- Operations that make a database. -/
inductive Builds (name : String) : Effect → Prop
  | created : Builds name (.createDatabase name)
  | restored (backup : String) : Builds name (.restore name backup)

/-- The backup that a database was restored from is referred to by it. -/
def refer (name : String) (b : Backup) : Backup :=
  { b with referencingDatabases := b.referencingDatabases ++ [name] }

/-- The operation that goes on optimizing a restored database. -/
def Script.optimization (s : Script) (name : String) (n : Nat) : Task :=
  { operation := s.optimizing (name ++ "/operations/optimize-" ++ toString n) name }

/-- What the end of an operation leaves of the database that it makes and of its backup. -/
inductive Leaves (s : Script) (st₀ : Store) (name : String) (d : Database) (t : Task) (st : Store) :
    Effect → Prop
  | failed {effect : Effect} {e : OperationError} (fault : s.failure = some e)
      (left : Alongside st₀ name none st₀.backups t [] st) : Leaves s st₀ name d t st effect
  | created (fine : s.failure = none)
      (left : Alongside st₀ name (some { d with state := "READY" }) st₀.backups t [] st) :
      Leaves s st₀ name d t st (.createDatabase name)
  | restored {backup : String} (fine : s.failure = none) (n : Nat)
      (left : Alongside st₀ name (some { d with state := "READY_OPTIMIZING" })
        (st₀.backups.modify backup (refer name)) t [s.optimization name n] st) :
      Leaves s st₀ name d t st (.restore name backup)

namespace Alongside
variable {s : Script} {st₀ st st' : Store} {name operation : String} {d : Option Database}
  {backups : Catalog Backup} {t t' : Task} {rest : List Task} {effect : Effect} {n : Nat}

theorem holds (h : Alongside st₀ name d backups t rest st) : st.Holds st₀.tasks t :=
  ⟨⟨rest, h.tasks⟩, h.first⟩

theorem get?_eq (h : Alongside st₀ name d backups t rest st) : st.databases.get? name = d := by
  rw [h.databases, if_pos rfl]

theorem get?_ne (h : Alongside st₀ name d backups t rest st) {k : String} (ne : k ≠ name) :
    st.databases.get? k = st₀.databases.get? k := by
  rw [h.databases, if_neg ne]

/-- The optimizations that an instance shows are those it has shown and those among `rest`. -/
theorem optimizations_eq (h : Alongside st₀ name d backups t rest st) (i : Instance) :
    (st.tasks.map (·.operation)).filterMap (optimizing? i) =
      (st₀.tasks.map (·.operation)).filterMap (optimizing? i) ++
        (rest.map (·.operation)).filterMap (optimizing? i) := by
  rw [h.tasks, List.map_append, List.map_cons, List.filterMap_append, List.filterMap_cons,
    optimizing?_of_other i h.work]

/-- What an update of the operation leaves as it is. -/
theorem update (h : Alongside st₀ name d backups t rest st) {f : Task → Task}
    (named : (f t).operation.name = t.operation.name)
    (work : workType (f t).operation = workType t.operation) :
    Alongside st₀ name d backups (f t) rest (st.update st₀.tasks.length f) := by
  refine ⟨?_, named ▸ h.first, work ▸ h.work, h.databases, h.backups⟩
  rw [Store.update, h.tasks, modify_behind]

/-- The database is changed. -/
theorem modified (h : Alongside st₀ name d backups t rest st) (f : Database → Database) :
    Alongside st₀ name (d.map f) backups t rest
      { st with databases := st.databases.modify name f } :=
  ⟨h.tasks, h.first, h.work, Catalog.get?_modify_changed h.databases f, h.backups⟩

/-- The database is given up. -/
theorem removed (h : Alongside st₀ name d backups t rest st) (builds : Builds name effect) :
    Alongside st₀ name none backups t rest (st.removePending effect) := by
  have erased := Catalog.get?_erase_changed h.databases
  cases builds <;> exact ⟨h.tasks, h.first, h.work, erased, h.backups⟩

/-- A poll before the last one leaves the operation under way. -/
theorem poll_more (h : Alongside st₀ name d backups t rest st)
    (way : t.UnderWay operation effect n) (more : s.completes (n + 1) = false) :
    ∃ t' st', s.getOperation operation st = ⟨.ok t'.operation, st', 0⟩ ∧
      t'.UnderWay operation effect (n + 1) ∧ Alongside st₀ name d backups t' rest st' := by
  obtain ⟨rfl, pending, fault, effect, rfl⟩ := way
  have next : Alongside st₀ name d backups (s.polled t) rest (s.poll st st₀.tasks.length t) := by
    have counted := h.update (f := fun u => { u with polls := t.polls + 1 }) rfl rfl
    simp only [Script.poll, more, Bool.false_eq_true, if_false]
    exact counted.update (f := fun u =>
      { u with operation := setPercent (s.pendingPercent (t.polls + 1)) u.operation }) rfl
        (workType_setPercent ..)
  exact ⟨_, _, Script.getOperation_pending h.holds pending next.holds,
    ⟨rfl, pending, fault, effect, rfl⟩, next⟩

/-- The last poll, when a failure is scripted. -/
theorem poll_failed (h : Alongside st₀ name d backups t rest st)
    (way : t.UnderWay operation effect n) (builds : Builds name effect)
    (last : s.completes (n + 1) = true) {e : OperationError} (fault : s.failure = some e) :
    ∃ t' st', s.getOperation operation st = ⟨.ok t'.operation, st', 0⟩ ∧
      t'.Ended operation (some e) ∧ Alongside st₀ name none backups t' rest st' := by
  obtain ⟨rfl, pending, -, rfl, rfl⟩ := way
  have next : Alongside st₀ name none backups (Script.failed e t) rest
      (s.poll st st₀.tasks.length t) := by
    have counted := h.update (f := fun u => { u with polls := t.polls + 1 }) rfl rfl
    simp only [Script.poll, last, if_true, Script.finish, fault]
    exact (counted.removed builds).update (f := fun u =>
      { u with operation := { u.operation with done := true, error := some e } }) rfl rfl
  exact ⟨_, _, Script.getOperation_pending h.holds pending next.holds, ⟨rfl, rfl, rfl⟩, next⟩

/-- A database that was to be created is ready. -/
theorem performed_created (h : Alongside st₀ name d backups t rest st) :
    Alongside st₀ name (d.map fun d => { d with state := "READY" }) backups t rest
      (s.perform st st₀.tasks.length (.createDatabase name)).2 :=
  h.modified fun d => { d with state := "READY" }

/-- A database that was to be restored is there and refers to its backup, and another operation goes
on optimizing it. -/
theorem performed_restored (h : Alongside st₀ name d backups t rest st) (backup : String) :
    ∃ optimize, Alongside st₀ name (d.map fun d => { d with state := "READY_OPTIMIZING" })
      (backups.modify backup (refer name))
      { t with operation := Script.withOptimize optimize t.operation }
      (rest ++ [s.optimization name (st.nextId + 1)])
      (s.perform st st₀.tasks.length (.restore name backup)).2 := by
  let optimize := name ++ "/operations/optimize-" ++ toString (st.nextId + 1)
  have made := (h.update (f := fun u =>
    { u with operation := Script.withOptimize optimize u.operation }) rfl
      (workType_withOptimize ..)).modified fun d => { d with state := "READY_OPTIMIZING" }
  refine ⟨optimize, ?_, made.first, made.work, made.databases, ?_⟩
  · exact (congrArg (· ++ _) made.tasks).trans (List.append_assoc ..)
  · exact congrArg (·.modify backup (refer name)) made.backups

/-- The last poll, when no failure is scripted: the effect is brought about. -/
theorem poll_performed {d' : Option Database} {backups' : Catalog Backup} {rest' : List Task}
    (h : Alongside st₀ name d backups t rest st) (way : t.UnderWay operation effect n)
    (last : s.completes (n + 1) = true) (fine : s.failure = none)
    (performed : ∀ u st₁, st₁.nextId = st.nextId → Alongside st₀ name d backups u rest st₁ → ∃ u',
      Alongside st₀ name d' backups' u' rest' (s.perform st₁ st₀.tasks.length effect).2 ∧
        u'.operation.name = u.operation.name ∧ u'.operation.error = u.operation.error) :
    ∃ t' st', s.getOperation operation st = ⟨.ok t'.operation, st', 0⟩ ∧
      t'.Ended operation none ∧ Alongside st₀ name d' backups' t' rest' st' := by
  obtain ⟨rfl, pending, fault, rfl, rfl⟩ := way
  have counted := h.update (f := fun u => { u with polls := t.polls + 1 }) rfl rfl
  have same_id : (st.update st₀.tasks.length fun u =>
    { u with polls := t.polls + 1 }).nextId = st.nextId := rfl
  obtain ⟨u, made, same_name, same_error⟩ := performed _ _ same_id counted
  rcases result : s.perform (st.update st₀.tasks.length fun u =>
    { u with polls := t.polls + 1 }) st₀.tasks.length t.effect with ⟨response, st₁⟩
  rw [result] at made
  have ended := made.update (f := fun u =>
    { u with operation := setPercent 100 { u.operation with done := true, response } }) rfl
      (workType_setPercent ..)
  have next : s.poll st st₀.tasks.length t = st₁.update st₀.tasks.length fun u =>
      { u with operation := setPercent 100 { u.operation with done := true, response } } := by
    simp only [Script.poll, last, if_true, Script.finish, fine, result]
  rw [← next] at ended
  exact ⟨_, _, Script.getOperation_pending h.holds pending ended.holds,
    ⟨same_name, rfl, same_error.trans fault⟩, ended⟩

end Alongside

section
variable {s : Script} {st₀ st : Store} {name operation : String} {d : Database} {t : Task}
  {effect : Effect} {n : Nat}

/-- The last poll ends the operation as the script says. -/
theorem Alongside.poll_last (h : Alongside st₀ name (some d) st₀.backups t [] st)
    (way : t.UnderWay operation effect n) (builds : Builds name effect)
    (last : s.completes (n + 1) = true) :
    ∃ t' st', s.getOperation operation st = ⟨.ok t'.operation, st', 0⟩ ∧
      t'.Ended operation s.failure ∧ Leaves s st₀ name d t' st' effect := by
  cases fault : s.failure with
  | some e =>
    obtain ⟨t', st', answer, ended, left⟩ := h.poll_failed way builds last fault
    exact ⟨t', st', answer, ended, .failed fault left⟩
  | none =>
    cases builds with
    | created =>
      obtain ⟨t', st', answer, ended, left⟩ := h.poll_performed way last fault
        fun u st₁ _ here => ⟨u, here.performed_created, rfl, rfl⟩
      exact ⟨t', st', answer, ended, .created fault left⟩
    | restored backup =>
      obtain ⟨t', st', answer, ended, left⟩ := h.poll_performed way last fault
        fun u st₁ same here => by
          obtain ⟨optimize, made⟩ := here.performed_restored (s := s) backup
          rw [same] at made
          exact ⟨_, made, rfl, rfl⟩
      exact ⟨t', st', answer, ended, .restored fault _ left⟩

/-- The course of an operation that makes a database. -/
theorem Alongside.pursues (s : Script) (st₀ : Store) (operation : String) (d : Database)
    (builds : Builds name effect) :
    s.Pursues operation
      (fun n t st => t.UnderWay operation effect n ∧
        Alongside st₀ name (some d) st₀.backups t [] st)
      (fun t st => t.Ended operation s.failure ∧ Leaves s st₀ name d t st effect) where
  way h := ⟨_, _, h.2.holds, h.1⟩
  ended h := h.1
  more h := h.2.poll_more h.1
  last h := h.2.poll_last h.1 builds

/-- A database that is put in place by a request is made by an operation of its own. -/
theorem Reachable.alongside {o : Operation} {metadata : Metadata} (h : Reachable s st₀)
    (begun : (o, st) = ({ st₀ with databases := st₀.databases.insert name d } : Store).begin name
      metadata effect) (work : typeText metadata ≠ Metadata.optimizeRestoredType) :
    ∃ t, Alongside st₀ name (some d) st₀.backups t [] st ∧ t.UnderWay o.name effect 0 := by
  have fresh := h.begun_notMem ⟨{ st₀ with databases := st₀.databases.insert name d }, name,
    metadata, effect, rfl, rfl, begun⟩
  obtain ⟨rfl, rfl⟩ := Prod.mk.inj begun
  refine ⟨_, ⟨rfl, fun u mem same => fresh ?_, work, fun k => ?_, rfl⟩, ⟨rfl, rfl, rfl, rfl, rfl⟩⟩
  · exact List.mem_map.2 ⟨u, mem, same⟩
  · exact Catalog.get?_insert ..

end
end BackupAdmin.Memory
