import BackupAdmin.Proofs.Memory.Steps

/-! How often cancelling was asked for. Main statement: a service in memory counts it, and does with
the count nothing else. -/
namespace BackupAdmin.Memory

/-- The store with other counts of cancels. -/
def Store.withCancels (st : Store) (counts : Catalog Nat) : Store := { st with cancels := counts }

theorem withCancels_backups (st : Store) (counts : Catalog Nat) :
    (st.withCancels counts).backups = st.backups := rfl

theorem withCancels_databases (st : Store) (counts : Catalog Nat) :
    (st.withCancels counts).databases = st.databases := rfl

/-- The counts of cancels after a call. -/
def countsAfter : Call → Catalog Nat → Catalog Nat
  | .cancelOperation name, counts => counts.insert name ((counts.get? name).getD 0 + 1)
  | _, counts => counts

section
variable (s : Script) (st : Store) (counts : Catalog Nat)

theorem removePending_withCancels (e : Effect) :
    (st.withCancels counts).removePending e = (st.removePending e).withCancels counts := by
  cases e <;> rfl

theorem perform_withCancels (i : Nat) (e : Effect) :
    s.perform (st.withCancels counts) i e =
      ((s.perform st i e).1, (s.perform st i e).2.withCancels counts) := by
  cases e <;> rfl

theorem finish_withCancels (i : Nat) (e : Effect) :
    s.finish (st.withCancels counts) i e = (s.finish st i e).withCancels counts := by
  unfold Script.finish
  cases s.failure with
  | some fault => rw [removePending_withCancels]; rfl
  | none => rw [perform_withCancels]; rfl

theorem poll_withCancels (i : Nat) (t : Task) :
    s.poll (st.withCancels counts) i t = (s.poll st i t).withCancels counts := by
  unfold Script.poll
  dsimp only
  split
  · exact finish_withCancels s (st.update i fun u => { u with polls := t.polls + 1 }) counts i
      t.effect
  · rfl

theorem getOperation_withCancels (name : String) :
    s.getOperation name (st.withCancels counts) =
      ⟨(s.getOperation name st).result, (s.getOperation name st).state.withCancels counts,
        (s.getOperation name st).took⟩ := by
  cases found : st.find? name with
  | none =>
    have found' : (st.withCancels counts).find? name = none := found
    rw [Script.getOperation_none found, Script.getOperation_none found']
  | some place =>
    obtain ⟨i, t⟩ := place
    have found' : (st.withCancels counts).find? name = some (i, t) := found
    obtain ⟨u, st', asked, rfl, -, at_i, -⟩ := Script.getOperation_found (s := s) found
    obtain ⟨v, st', asked', rfl, -, at_i', -⟩ := Script.getOperation_found (s := s) found'
    have state : (if t.operation.done then st.withCancels counts
        else s.poll (st.withCancels counts) i t) =
          (if t.operation.done then st else s.poll st i t).withCancels counts := by
      split
      · rfl
      · exact poll_withCancels s st counts i t
    rw [state] at at_i'
    obtain rfl : u = v := Option.some.inj (at_i.symm.trans at_i')
    rw [asked, asked', state]

theorem cancelOperation_withCancels (name : String) :
    s.cancelOperation name (st.withCancels counts) =
      ⟨(s.cancelOperation name st).result, (s.cancelOperation name st).state.withCancels
        (countsAfter (.cancelOperation name) counts), (s.cancelOperation name st).took⟩ := by
  have same : ((st.withCancels counts).countCancel name).find? name =
    (st.countCancel name).find? name := rfl
  unfold Script.cancelOperation
  dsimp only
  rw [same]
  split
  · rfl
  case h_2 i t found =>
    split
    · rfl
    · split
      · rfl
      · cases t.effect <;> rfl

theorem submit_withCancels (i : Instance) (r : Request) :
    s.submit i r (st.withCancels counts) =
      ⟨(s.submit i r st).result, (s.submit i r st).state.withCancels counts,
        (s.submit i r st).took⟩ := by
  cases r with
  | createBackup id database expire version encryption =>
    simp only [Script.submit, Script.createBackup, withCancels_backups, withCancels_databases]
    cases s.checkExpire expire with
    | error e => rfl
    | ok u =>
      by_cases known : st.databases.contains database
      · by_cases taken : st.backups.contains (i.backupName id)
        · simp [known, taken, bind, Except.bind]
        · simp [known, taken, bind, Except.bind]
          exact ⟨rfl, rfl⟩
      · simp [known, bind, Except.bind]
  | copyBackup id source expire encryption =>
    simp only [Script.submit, Script.copyBackup, withCancels_backups]
    cases s.checkExpire expire with
    | error e => rfl
    | ok u =>
      cases st.backups.get? source with
      | none => rfl
      | some src =>
        by_cases ready : src.isReady
        · by_cases taken : st.backups.contains (i.backupName id)
          · simp [ready, taken, bind, Except.bind]
          · simp [ready, taken, bind, Except.bind]
            exact ⟨rfl, rfl⟩
        · simp [ready, bind, Except.bind]
  | restoreDatabase id backup encryption =>
    simp only [Script.submit, Script.restoreDatabase, withCancels_backups, withCancels_databases]
    cases st.backups.get? backup with
    | none => rfl
    | some b =>
      by_cases taken : st.databases.contains (i.databaseName id)
      · simp [taken]
      · simp [taken]
        exact ⟨rfl, rfl⟩
  | createDatabase statement extra =>
    simp only [Script.submit, Script.createDatabase, withCancels_databases]
    by_cases taken : st.databases.contains (i.databaseName (Script.lastWord statement))
    · simp [taken]
    · simp [taken]
      exact ⟨rfl, rfl⟩

theorem getBackup_withCancels (name : String) :
    s.getBackup name (st.withCancels counts) =
      ⟨(s.getBackup name st).result, (s.getBackup name st).state.withCancels counts,
        (s.getBackup name st).took⟩ := by
  have counted : s.countRead name (st.withCancels counts) =
      (s.countRead name st).withCancels counts := by
    unfold Script.countRead
    dsimp only [Store.withCancels]
    split <;> rfl
  simp only [Script.getBackup, counted, withCancels_backups]
  cases (s.countRead name st).backups.get? name <;> rfl

theorem updateExpireTime_withCancels (name : String) (t : Instant) :
    updateExpireTime name t (st.withCancels counts) =
      ⟨(updateExpireTime name t st).result, (updateExpireTime name t st).state.withCancels counts,
        (updateExpireTime name t st).took⟩ := by
  simp only [updateExpireTime, withCancels_backups]
  cases st.backups.get? name with
  | none => rfl
  | some b =>
    by_cases late : b.maxExpireTime.any (·.before t)
    · simp only [late, if_true]
    · simp only [late, Bool.false_eq_true, if_false]
      rfl

theorem deleteBackup_withCancels (name : String) :
    deleteBackup name (st.withCancels counts) =
      ⟨(deleteBackup name st).result, (deleteBackup name st).state.withCancels counts,
        (deleteBackup name st).took⟩ := by
  simp only [deleteBackup, withCancels_backups]
  cases st.backups.get? name with
  | none => rfl
  | some b =>
    by_cases free : b.referencingDatabases.isEmpty
    · simp only [free, if_true]
      rfl
    · simp only [free, Bool.false_eq_true, if_false]

theorem dropDatabase_withCancels (name : String) :
    dropDatabase name (st.withCancels counts) =
      ⟨(dropDatabase name st).result, (dropDatabase name st).state.withCancels counts,
        (dropDatabase name st).took⟩ := by
  simp only [dropDatabase, withCancels_databases]
  by_cases known : st.databases.contains name
  · simp only [known, if_true]
    rfl
  · simp only [known, Bool.false_eq_true, if_false]

/-- What a call does has nothing to do with the counts of cancels. -/
theorem answer_withCancels (d : Call) :
    (service s).answer d (st.withCancels counts) =
      ⟨((service s).answer d st).result,
        ((service s).answer d st).state.withCancels (countsAfter d counts),
        ((service s).answer d st).took⟩ := by
  cases d with
  | submit i r => exact submit_withCancels s st counts i r
  | getOperation name => exact getOperation_withCancels s st counts name
  | cancelOperation name => exact cancelOperation_withCancels s st counts name
  | listBackups i p | listOperations kind i p => rfl
  | getBackup name => exact getBackup_withCancels s st counts name
  | updateExpireTime name t => exact updateExpireTime_withCancels st counts name t
  | deleteBackup name => exact deleteBackup_withCancels st counts name
  | getDatabase name =>
    change getDatabase name (st.withCancels counts) = ⟨(getDatabase name st).result,
      (getDatabase name st).state.withCancels counts, (getDatabase name st).took⟩
    simp only [getDatabase, withCancels_databases]
    cases st.databases.get? name <;> rfl
  | dropDatabase name => exact dropDatabase_withCancels st counts name

end

theorem get?_countsAfter (d : Call) (counts : Catalog Nat) (k : String) :
    (countsAfter d counts).get? k =
      if d = .cancelOperation k then some ((counts.get? k).getD 0 + 1) else counts.get? k := by
  cases d with
  | cancelOperation name =>
    simp only [countsAfter, Catalog.get?_insert, Call.cancelOperation.injEq]
    by_cases same : name = k
    · simp [same]
    · simp [same, Ne.symm same]
  | _ => simp [countsAfter]

theorem cancels_answer (s : Script) (d : Call) (st : Store) :
    ((service s).answer d st).state.cancels = countsAfter d st.cancels :=
  congrArg (·.state.cancels) (answer_withCancels s st st.cancels d)

end BackupAdmin.Memory
