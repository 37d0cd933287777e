import BackupAdmin.Proofs.Memory.Accounts

/-! The databases that a backup in memory says were restored from it. Main statement: as long as no
database is dropped while an operation makes it, every database that a backup lists is there, was
restored from this backup, and is listed once in all; when no restored database is left, every
backup may be deleted. -/
namespace BackupAdmin.Memory
open Store

/-- What is put in before any call: databases, and backups that list none. -/
def Deed.Prepares : Deed → Prop
  | .insertDatabase _ => True
  | .insertBackup b => b.referencingDatabases = []
  | .call _ => False

/-- No call drops the database while an operation under way makes it. -/
def Script.Spares (s : Script) (database : String) : List Call → Store → Prop
  | [], _ => True
  | c :: cs, st => (c = .dropDatabase database → ∀ i t, ¬ st.Makes database i t) ∧
      s.Spares database cs (s.doing st (.call c))

section
variable {s : Script} {st : Store} {n : String} {prep : List Deed} {cs : List Call}

/-- Before any call no operation is under way and no backup lists a database. -/
theorem Script.run_prepares (prepares : ∀ d ∈ prep, d.Prepares) (fresh : st.tasks = [])
    (unlisted : ∀ k, st.references k = []) :
    (s.run prep st).tasks = [] ∧ ∀ k, (s.run prep st).references k = [] := by
  induction prep generalizing st with
  | nil => exact ⟨fresh, unlisted⟩
  | cons d prep ih =>
    obtain ⟨first, rest⟩ := List.forall_mem_cons.1 prepares
    cases d with
    | insertDatabase name => exact ih rest fresh unlisted
    | insertBackup b =>
      exact ih rest fresh fun k =>
        List.sublist_nil.1 (unlisted k ▸ references_insertBackup first k)
    | call c => exact first.elim

theorem Store.Accounts.run (h : st.Accounts n) (spares : s.Spares n cs st) :
    (s.run (cs.map .call) st).Accounts n := by
  induction cs generalizing st with
  | nil => exact h
  | cons c cs ih => exact ih (h.answer s c spares.1) spares.2

theorem accounts_run (prepares : ∀ d ∈ prep, d.Prepares) (spares : s.Spares n cs (s.run prep {})) :
    (s.run (cs.map .call) (s.run prep {})).Accounts n := by
  have empty (k : String) : ({} : Store).references k = [] := rfl
  obtain ⟨fresh, unlisted⟩ := Script.run_prepares (s := s) prepares rfl empty
  refine Store.Accounts.run (.of_unlisted (fun i t makes => ?_) fun k => ?_) spares
  · have at_i := makes.1
    rw [fresh] at at_i
    contradiction
  · rw [unlisted]
    exact List.not_mem_nil

/-- A name that is listed at most once by each backup, and by one backup only, is listed at most
once in all. -/
theorem count_flatMap_le {es : List (String × Backup)} (increasing : es.Pairwise (·.1 < ·.1))
    (once : ∀ e ∈ es, e.2.referencingDatabases.count n ≤ 1) {source : Option (Option String)}
    (only : ∀ e ∈ es, n ∈ e.2.referencingDatabases → source = some (some e.1)) :
    (es.flatMap (·.2.referencingDatabases)).count n ≤ 1 := by
  induction es with
  | nil => exact Nat.zero_le 1
  | cons e es ih =>
    obtain ⟨before, increasing⟩ := List.pairwise_cons.1 increasing
    obtain ⟨once_e, once⟩ := List.forall_mem_cons.1 once
    obtain ⟨only_e, only⟩ := List.forall_mem_cons.1 only
    rw [List.flatMap_cons, List.count_append]
    by_cases listed : n ∈ e.2.referencingDatabases
    · have others : n ∉ es.flatMap (·.2.referencingDatabases) := by
        rw [List.mem_flatMap]
        rintro ⟨e', mem, listed'⟩
        have same : e.1 = e'.1 := by
          simpa using (only_e listed).symm.trans (only e' mem listed')
        exact String.lt_irrefl _ (same ▸ before e' mem)
      rw [List.count_eq_zero.2 others]
      exact once_e
    · rw [List.count_eq_zero.2 listed, Nat.zero_add]
      exact ih increasing once only

theorem Store.Accounts.count_le (h : st.Accounts n) :
    (st.backups.values.flatMap (·.referencingDatabases)).count n ≤ 1 := by
  have listed (e : String × Backup) (mem : e ∈ st.backups.entries) :
      st.references e.1 = e.2.referencingDatabases :=
    references_of_found ((Catalog.lookup_eq_some_iff st.backups.sorted).2 mem)
  have only (e : String × Backup) (mem : e ∈ st.backups.entries)
      (here : n ∈ e.2.referencingDatabases) : st.origin n = some (some e.1) :=
    h.restored e.1 (listed e mem ▸ here)
  rw [Catalog.values, List.flatMap_map]
  exact count_flatMap_le st.backups.sorted (fun e mem => listed e mem ▸ h.once e.1) only

end

/-- The databases that backups list after databases were put in, and backups that list none, and any
calls were answered. A database that no call drops while an operation makes it is listed once at
most, by the backup that it was restored from, and is there. When no restored database is left, a
backup that lists only such databases may be deleted. -/
theorem references_restored (s : Script) {prep : List Deed} (prepares : ∀ d ∈ prep, d.Prepares)
    (cs : List Call) :
    let st₀ := s.run prep {}
    let st := s.run (cs.map .call) st₀
    (∀ n, s.Spares n cs st₀ →
      (∀ k b, st.backups.get? k = some b → n ∈ b.referencingDatabases →
        ∃ d, st.databases.get? n = some d ∧ d.source = some k) ∧
      (st.backups.values.flatMap (·.referencingDatabases)).count n ≤ 1) ∧
    ((∀ n d, st.databases.get? n = some d → d.restoreInfo = none) →
      ∀ k b, st.backups.get? k = some b → (∀ n ∈ b.referencingDatabases, s.Spares n cs st₀) →
        deleteBackup k st = ⟨.ok (), { st with backups := st.backups.erase k }, 0⟩) := by
  intro st₀ st
  have there (n : String) (spares : s.Spares n cs st₀) {k : String} {b : Backup}
      (found : st.backups.get? k = some b) (listed : n ∈ b.referencingDatabases) :
      ∃ d, st.databases.get? n = some d ∧ d.source = some k :=
    Option.map_eq_some_iff.1 <|
      (accounts_run prepares spares).restored k (references_of_found found ▸ listed)
  refine ⟨fun n spares => ⟨fun k b => there n spares, (accounts_run prepares spares).count_le⟩,
    fun none_left k b found spares => ?_⟩
  have empty : b.referencingDatabases = [] := List.eq_nil_iff_forall_not_mem.2 fun n listed => by
    obtain ⟨d, found', source⟩ := there n (spares n listed) found listed
    rw [Database.source, none_left n d found'] at source
    contradiction
  simp only [deleteBackup, found, empty, List.isEmpty_nil, if_true]

/-- A restored database is listed until it is dropped, and then its backup may be deleted. -/
theorem references_restored_dropped :
    let s : Script := { now := ⟨0, 0⟩ }
    let i : Instance := ⟨"p", "i"⟩
    let k := i.backupName "b1"
    let n := i.databaseName "r1"
    let prep : List Deed := [.insertBackup { name := k, state := .ready }]
    let cs : List Call :=
      [.submit i (.restoreDatabase "r1" k none), .getOperation (n ++ "/operations/op-1")]
    let st₀ := s.run prep {}
    let st := s.run (cs.map .call) st₀
    let cs' : List Call := cs ++ [.dropDatabase n]
    let st' := s.run (cs'.map .call) st₀
    (∀ d ∈ prep, d.Prepares) ∧ s.Spares n cs' st₀ ∧
      st.references k = [n] ∧ (∃ d, st.databases.get? n = some d ∧ d.source = some k) ∧
      (deleteBackup k st').result = .ok () := by
  intro s i k n prep cs st₀ st cs' st'
  have prepares : ∀ d ∈ prep, d.Prepares := List.forall_mem_singleton.2 rfl
  have settled : ∀ t ∈ st.tasks, t.operation.done = true ∨ t.effect.target = none := by
    decide +kernel
  have spares : s.Spares n cs' st₀ := by
    refine ⟨nofun, nofun, fun _ i t makes => ?_, trivial⟩
    rcases settled t (List.mem_of_getElem? makes.1) with done | idle
    · rw [makes.2.1] at done
      contradiction
    · rw [makes.2.2] at idle
      contradiction
  have before : s.Spares n cs st₀ := ⟨nofun, nofun, trivial⟩
  obtain ⟨b, found, listed⟩ : ∃ b, st.backups.get? k = some b ∧ b.referencingDatabases = [n] :=
    Option.map_eq_some_iff.1 (by decide +kernel)
  obtain ⟨b', found', listed'⟩ : ∃ b, st'.backups.get? k = some b ∧ b.referencingDatabases = [] :=
    Option.map_eq_some_iff.1 (by decide +kernel)
  have none_left (m : String) (d : Database) (found : st'.databases.get? m = some d) :
      d.restoreInfo = none := by
    have none : st'.databases = .empty := by decide +kernel
    rw [none] at found
    contradiction
  refine ⟨prepares, spares, (references_of_found found).trans listed, ?_, ?_⟩
  · exact ((references_restored s prepares cs).1 n before).1 k b found (by simp [listed])
  · rw [(references_restored s prepares cs').2 none_left k b' found' (by simp [listed'])]

/-- A backup that lists a database may not be deleted. -/
theorem deleteBackup_of_listed {st : Store} {n k : String} (listed : n ∈ st.references k) :
    ∃ text, deleteBackup k st = ⟨.error (.preconditionFailed text), st, 0⟩ := by
  cases found : st.backups.get? k with
  | none => simp [references, found] at listed
  | some b =>
    rw [references_of_found found] at listed
    have some_left : b.referencingDatabases.isEmpty = false := by
      cases empty : b.referencingDatabases with
      | nil => simp [empty] at listed
      | cons => rfl
    simp only [deleteBackup, found, some_left, Bool.false_eq_true, if_false]
    exact ⟨_, rfl⟩

/-- A database that is dropped while its restore is under way is listed from the end of the restore
on, though it is not there and may not be dropped again, and its backup may not be deleted. -/
theorem listed_of_dropped {s : Script} {st : Store} {n k : String} {i : Nat} {t : Task} {b : Backup}
    (apart : st.names.Nodup) (makes : st.Makes n i t) (effect : t.effect = .restore n k)
    (found : st.backups.get? k = some b) (there : st.databases.contains n = true)
    (fine : s.failure = none) (last : s.completes (t.polls + 1) = true) :
    let st' := s.run [.call (.dropDatabase n), .poll t.operation.name] st
    n ∈ st'.references k ∧ st'.databases.get? n = none ∧
      dropDatabase n st' = ⟨.error (.notFound n), st', 0⟩ ∧
      ∃ text, deleteBackup k st' = ⟨.error (.preconditionFailed text), st', 0⟩ := by
  intro st'
  let dropped : Store := { st with
    databases := st.databases.erase n
    backups := st.backups.mapValues fun _ b =>
      { b with referencingDatabases := b.referencingDatabases.filter (· ≠ n) } }
  have drop : (dropDatabase n st).state = dropped := by
    rw [dropDatabase, if_pos there]
  have polled : st' = s.poll dropped i t := by
    change (s.getOperation t.operation.name (dropDatabase n st).state).state = _
    have same : dropped.names = st.names := rfl
    rw [drop]
    exact state_getOperation s (find?_of_apart (same ▸ apart) makes.1) makes.2.1
  have performed : st'.backups = (s.perform dropped i t.effect).2.backups ∧
      st'.databases = (s.perform dropped i t.effect).2.databases := by
    rw [polled, Script.poll, if_pos last, Script.finish, fine, effect]
    exact ⟨rfl, rfl⟩
  have listed : n ∈ st'.references k := by
    rw [references_congr performed.1, effect]
    simp [Script.perform, references, dropped, found]
  have gone : st'.databases.get? n = none := by
    rw [performed.2, effect]
    simp [Script.perform, dropped]
  refine ⟨listed, gone, ?_, deleteBackup_of_listed listed⟩
  rw [dropDatabase, if_neg (by simp [Catalog.contains, gone])]

/-- Here no database is left at all, and the backup may not be deleted. -/
theorem listed_of_dropped_last :
    let s : Script := { now := ⟨0, 0⟩ }
    let i : Instance := ⟨"p", "i"⟩
    let k := i.backupName "b1"
    let n := i.databaseName "r1"
    let prep : List Deed := [.insertBackup { name := k, state := .ready }]
    let cs : List Call := [.submit i (.restoreDatabase "r1" k none), .dropDatabase n,
      .getOperation (n ++ "/operations/op-1")]
    let st := s.run (cs.map .call) (s.run prep {})
    (∀ d ∈ prep, d.Prepares) ∧ st.references k = [n] ∧ st.databases = .empty ∧
      ∃ text, deleteBackup k st = ⟨.error (.preconditionFailed text), st, 0⟩ := by
  intro s i k n prep cs st
  have listed : st.references k = [n] := by decide +kernel
  have gone : st.databases = .empty := by decide +kernel
  exact ⟨List.forall_mem_singleton.2 rfl, listed, gone,
    deleteBackup_of_listed (listed ▸ List.mem_singleton_self n)⟩

end BackupAdmin.Memory
