import BackupAdmin.Proofs.Memory.Submission

/-! The numbers of operations. Main statement: a service in memory gives its operations numbers that
increase, so no two of them have the same name. -/
namespace BackupAdmin.Memory

/-- The number at the end of an operation's name. -/
def operationNumber (name : String) : Nat :=
  Nat.ofDigitChars 10 (Text.lastPiece '-' name.toList) 0

theorem operationNumber_append {word : String} {cs : List Char} (dash : word.toList = cs ++ ['-'])
    (resource : String) (n : Nat) : operationNumber (resource ++ word ++ toString n) = n := by
  have digits : '-' ∉ Nat.toDigits 10 n := fun mem => by
    simpa using Nat.isDigit_of_mem_toDigits (by decide) (by decide) mem
  have split : (resource ++ word ++ toString n).toList =
      (resource.toList ++ cs) ++ '-' :: Nat.toDigits 10 n := by
    simp [dash]
  rw [operationNumber, split, Text.lastPiece_append _ digits, Nat.ofDigitChars_ten_toDigits]

namespace Store

/-- The names of the operations in their order. -/
def names (st : Store) : List String := st.tasks.map (·.operation.name)

/-- From one store to another, operations keep their names, and new ones come behind them with
higher and higher numbers. -/
structure Grows (st st' : Store) : Prop where
  names : ∃ new, st'.names = st.names ++ new ∧
    new.Pairwise (operationNumber · < operationNumber ·) ∧
    ∀ a ∈ new, st.nextId < operationNumber a ∧ operationNumber a ≤ st'.nextId
  nextId : st.nextId ≤ st'.nextId

section
variable {st st' st'' : Store}

theorem Grows.of_names (names : st'.names = st.names) (nextId : st'.nextId = st.nextId) :
    st.Grows st' := ⟨⟨[], by simp [names]⟩, Nat.le_of_eq nextId.symm⟩

theorem Grows.refl (st : Store) : st.Grows st := .of_names rfl rfl

theorem Grows.trans (h : st.Grows st') (h' : st'.Grows st'') : st.Grows st'' := by
  obtain ⟨⟨new, names, increase, bounds⟩, le⟩ := h
  obtain ⟨⟨new', names', increase', bounds'⟩, le'⟩ := h'
  refine ⟨⟨new ++ new', by rw [names', names, List.append_assoc], ?_, ?_⟩,
    Nat.le_trans le le'⟩
  · exact List.pairwise_append.2 ⟨increase, increase', fun a mem b mem' =>
      Nat.lt_of_le_of_lt (bounds a mem).2 (bounds' b mem').1⟩
  · refine List.forall_mem_append.2 ⟨fun a mem => ?_, fun a mem => ?_⟩
    · exact ⟨(bounds a mem).1, Nat.le_trans (bounds a mem).2 le'⟩
    · exact ⟨Nat.lt_of_le_of_lt le (bounds' a mem).1, (bounds' a mem).2⟩

/-- A new operation with the next number. -/
theorem Grows.of_append {a : String} (names : st'.names = st.names ++ [a])
    (number : operationNumber a = st.nextId + 1) (nextId : st'.nextId = st.nextId + 1) :
    st.Grows st' := by
  refine ⟨⟨[a], names, List.pairwise_singleton .., fun b mem => ?_⟩, by omega⟩
  rw [List.mem_singleton.1 mem]
  omega

/-- What an update of one operation keeps is the same of all operations. -/
theorem map_update {α : Type} (st : Store) (i : Nat) {f : Task → Task} {g : Task → α}
    (keeps : ∀ t, g (f t) = g t) : (st.update i f).tasks.map g = st.tasks.map g := by
  refine List.ext_getElem? fun j => ?_
  simp only [update, List.getElem?_map, List.getElem?_modify]
  cases st.tasks[j]? with
  | none => rfl
  | some t =>
    by_cases same : i = j
    · simp [same, keeps]
    · simp [same]

theorem names_update (st : Store) (i : Nat) {f : Task → Task}
    (keeps : ∀ t, (f t).operation.name = t.operation.name) : (st.update i f).names = st.names :=
  st.map_update i keeps

theorem grows_update (st : Store) (i : Nat) {f : Task → Task}
    (keeps : ∀ t, (f t).operation.name = t.operation.name) : st.Grows (st.update i f) :=
  .of_names (names_update st i keeps) rfl

theorem number_begin (st : Store) (resource : String) (metadata : Metadata) (effect : Effect) :
    operationNumber (st.begin resource metadata effect).1.name = st.nextId + 1 := by
  have dash : "/operations/op-".toList = "/operations/op".toList ++ ['-'] := rfl
  exact operationNumber_append dash ..

theorem grows_begin (st : Store) (resource : String) (metadata : Metadata) (effect : Effect) :
    st.Grows (st.begin resource metadata effect).2 :=
  .of_append (List.map_append ..) (st.number_begin resource metadata effect) rfl

theorem grows_removePending (st : Store) (e : Effect) : st.Grows (st.removePending e) := by
  cases e <;> exact .of_names rfl rfl

end

end Store

namespace Script
variable (s : Script) (st : Store)

theorem grows_perform (i : Nat) (e : Effect) : st.Grows (s.perform st i e).2 := by
  cases e with
  | restore database backup =>
    have dash : "/operations/optimize-".toList = "/operations/optimize".toList ++ ['-'] := rfl
    refine (st.grows_update i fun t => ?_).trans
      (.of_append (List.map_append ..) (operationNumber_append dash ..) rfl)
    rfl
  | backup | createDatabase | nothing => exact .of_names rfl rfl

theorem grows_finish (i : Nat) (e : Effect) : st.Grows (s.finish st i e) := by
  unfold finish
  cases s.failure with
  | some fault => exact (st.grows_removePending e).trans (Store.grows_update _ i fun t => rfl)
  | none => exact (s.grows_perform st i e).trans (Store.grows_update _ i fun t => rfl)

theorem grows_poll (i : Nat) (t : Task) : st.Grows (s.poll st i t) := by
  refine (st.grows_update i (f := fun u => { u with polls := t.polls + 1 }) fun u => rfl).trans ?_
  unfold poll
  dsimp only
  split
  · exact s.grows_finish _ i t.effect
  · exact Store.grows_update _ i fun u => rfl

theorem grows_getOperation (name : String) : st.Grows (s.getOperation name st).state := by
  unfold getOperation
  cases st.find? name with
  | none => exact .refl st
  | some found =>
    obtain ⟨i, t⟩ := found
    have polled : st.Grows (if t.operation.done then st else s.poll st i t) := by
      split
      · exact .refl st
      · exact s.grows_poll st i t
    dsimp only
    split <;> exact polled

theorem grows_cancelOperation (name : String) : st.Grows (s.cancelOperation name st).state := by
  have counted : st.Grows (st.countCancel name) := .of_names rfl rfl
  refine counted.trans ?_
  unfold cancelOperation
  dsimp only
  split
  · exact .refl _
  · split
    · exact .refl _
    · split
      · exact .refl _
      · exact (Store.grows_removePending _ _).trans (Store.grows_update _ _ fun t => rfl)

theorem grows_submit (i : Instance) (r : Request) : st.Grows (s.submit i r st).state := by
  rcases s.submit_begins i r st with ⟨e, refused⟩ | ⟨o, st', accepted, begins⟩
  · rw [refused]
    exact .refl st
  · rw [accepted]
    obtain ⟨st₁, resource, metadata, effect, tasks, nextId, begun⟩ := begins
    have same : st.Grows st₁ := .of_names (by rw [Store.names, tasks, Store.names]) nextId
    have now : st' = (st₁.begin resource metadata effect).2 := congrArg (·.2) begun
    exact same.trans (now ▸ st₁.grows_begin resource metadata effect)

end Script

theorem getDatabase_state (name : String) (st : Store) : (getDatabase name st).state = st := by
  unfold getDatabase
  split <;> rfl

/-- The call may start an operation or change one. -/
def tends : Call → Bool
  | .submit .. | .getOperation _ | .cancelOperation _ => true
  | _ => false

/-- What is done to backups and databases is not done to operations. -/
theorem tasks_answer {s : Script} {c : Call} (other : tends c = false) (st : Store) :
    ((service s).answer c st).state.tasks = st.tasks ∧
      ((service s).answer c st).state.nextId = st.nextId := by
  cases c with
  | submit | getOperation | cancelOperation => contradiction
  | listBackups | listOperations => exact ⟨rfl, rfl⟩
  | getBackup name =>
    have counted : (s.countRead name st).tasks = st.tasks ∧
        (s.countRead name st).nextId = st.nextId := by
      unfold Script.countRead
      dsimp only
      split <;> exact ⟨rfl, rfl⟩
    have state : ((service s).answer (.getBackup name) st).state = s.countRead name st := by
      change (s.getBackup name st).state = _
      unfold Script.getBackup
      dsimp only
      split <;> rfl
    exact state ▸ counted
  | updateExpireTime name t =>
    change (updateExpireTime name t st).state.tasks = st.tasks ∧
      (updateExpireTime name t st).state.nextId = st.nextId
    unfold updateExpireTime
    split
    · exact ⟨rfl, rfl⟩
    · split <;> exact ⟨rfl, rfl⟩
  | deleteBackup name =>
    change (deleteBackup name st).state.tasks = st.tasks ∧
      (deleteBackup name st).state.nextId = st.nextId
    unfold deleteBackup
    split
    · exact ⟨rfl, rfl⟩
    · split <;> exact ⟨rfl, rfl⟩
  | getDatabase name =>
    have state : ((service s).answer (.getDatabase name) st).state = st := getDatabase_state name st
    exact ⟨congrArg (·.tasks) state, congrArg (·.nextId) state⟩
  | dropDatabase name =>
    change (dropDatabase name st).state.tasks = st.tasks ∧
      (dropDatabase name st).state.nextId = st.nextId
    unfold dropDatabase
    split <;> exact ⟨rfl, rfl⟩

/-- Every call keeps the operations there are and numbers the new ones. -/
theorem grows_answer (s : Script) (c : Call) (st : Store) :
    st.Grows ((service s).answer c st).state := by
  cases c with
  | submit i r => exact s.grows_submit st i r
  | getOperation name => exact s.grows_getOperation st name
  | cancelOperation name => exact s.grows_cancelOperation st name
  | _ =>
    exact .of_names (congrArg (·.map (·.operation.name)) (tasks_answer rfl st).1)
      (tasks_answer rfl st).2

/-- The stores that a service comes to by calls, with databases and backups put in at any time. -/
inductive Reachable (s : Script) : Store → Prop
  | new : Reachable s {}
  | insertDatabase {st : Store} (h : Reachable s st) (name : String) :
      Reachable s (st.insertDatabase s.now name)
  | insertBackup {st : Store} (h : Reachable s st) (b : Backup) : Reachable s (st.insertBackup b)
  | call {st : Store} (h : Reachable s st) (c : Call) :
      Reachable s ((service s).answer c st).state

namespace Reachable
variable {s : Script} {st : Store}

theorem grows (h : Reachable s st) : ({} : Store).Grows st := by
  induction h with
  | new => exact .refl _
  | insertDatabase h name ih => exact ih.trans (.of_names rfl rfl)
  | insertBackup h b ih => exact ih.trans (.of_names rfl rfl)
  | call h c ih => exact ih.trans (grows_answer s c _)

/-- The numbers of the operations increase. -/
theorem increasing (h : Reachable s st) :
    st.names.Pairwise (operationNumber · < operationNumber ·) := by
  obtain ⟨new, names, increase, -⟩ := h.grows.names
  exact names ▸ increase

theorem names_nodup (h : Reachable s st) : st.names.Nodup :=
  h.increasing.imp fun lt same => by
    rw [same] at lt
    exact Nat.lt_irrefl _ lt

theorem number_le (h : Reachable s st) {a : String} (mem : a ∈ st.names) :
    operationNumber a ≤ st.nextId := by
  obtain ⟨new, names, -, bounds⟩ := h.grows.names
  rw [names] at mem
  exact (bounds a mem).2

/-- An operation that is begun has a name of its own. -/
theorem begun_notMem (h : Reachable s st) {o : Operation} {st' : Store}
    (begins : Script.Begins st o st') : o.name ∉ st.names := by
  obtain ⟨st₁, resource, metadata, effect, -, nextId, begun⟩ := begins
  intro mem
  have number : operationNumber o.name = st.nextId + 1 := by
    rw [← nextId, congrArg (·.1.name) begun]
    exact st₁.number_begin resource metadata effect
  have le := h.number_le mem
  omega

end Reachable
end BackupAdmin.Memory
