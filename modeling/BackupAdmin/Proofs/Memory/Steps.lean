import BackupAdmin.Proofs.Memory.Course
import BackupAdmin.Proofs.Memory.Task

/-! What one call does to the operations of a service in memory: a request starts one, a poll and a
cancel may end one. Main statement: every call lets all operations continue. -/
namespace BackupAdmin.Memory

namespace Script
variable {s : Script} {st st' : Store} {i : Nat} {t : Task}

/-- What is to be made is put in place, and the operation that makes it begins. -/
structure Starts (st : Store) (x : Target) (o : Operation) (st' : Store) : Prop where
  begun : ∃ (st₁ : Store) (metadata : Metadata) (effect : Effect),
    (o, st') = st₁.begin x.name metadata effect ∧ metadata.resourceName = some x.name ∧
      effect.target = some x ∧ st₁.tasks = st.tasks
  creating : ∀ y, st'.Creating y → y = x ∨ st.Creating y

section
variable {o : Operation} {name : String} {metadata : Metadata}

/-- A backup is put in place, and the operation that makes it begins. -/
theorem starts_insertBackup {b : Backup} {encryption : Option EncryptionConfig}
    (begun : (o, st') = (Store.begin { st with backups := st.backups.insert name b } name metadata
      (.backup name encryption)))
    (resource : metadata.resourceName = some name) (unfinished : b.state = .creating) :
    Starts st (.backup name) o st' ∧ st'.Creating (.backup name) := by
  have backups : st'.backups = st.backups.insert name b := congrArg (·.2.backups) begun
  have databases : st'.databases = st.databases := congrArg (·.2.databases) begun
  exact ⟨⟨⟨_, _, _, begun, resource, rfl, rfl⟩, fun y new =>
    (Store.creating_of_insertBackup backups databases new).imp_left And.left⟩,
    Store.creating_insertBackup backups unfinished⟩

/-- A database is put in place, and the operation that makes it begins. -/
theorem starts_insertDatabase {d : Database} {effect : Effect}
    (begun : (o, st') = (Store.begin { st with databases := st.databases.insert name d } name
      metadata effect))
    (resource : metadata.resourceName = some name) (unfinished : d.state = "CREATING")
    (target : effect.target = some (.database name)) :
    Starts st (.database name) o st' ∧ st'.Creating (.database name) := by
  have backups : st'.backups = st.backups := congrArg (·.2.backups) begun
  have databases : st'.databases = st.databases.insert name d := congrArg (·.2.databases) begun
  exact ⟨⟨⟨_, _, _, begun, resource, target, rfl⟩, fun y new =>
    (Store.creating_of_insertDatabase backups databases new).imp_left And.left⟩,
    Store.creating_insertDatabase databases unfinished⟩

end

/-- What is made for a request when it is accepted. -/
def made (i : Instance) : Request → Target
  | .createBackup id .. | .copyBackup id .. => .backup (i.backupName id)
  | .restoreDatabase id .. => .database (i.databaseName id)
  | .createDatabase statement _ => .database (i.databaseName (lastWord statement))

/-- A request is refused and changes nothing, or it starts what it asks for. -/
theorem submit_starts (s : Script) (i : Instance) (r : Request) (st : Store) :
    (∃ e, s.submit i r st = ⟨.error e, st, 0⟩) ∨
      ∃ o st', s.submit i r st = ⟨.ok o, st', 0⟩ ∧ Starts st (made i r) o st' ∧
        st'.Creating (made i r) := by
  unfold submit
  dsimp only
  split
  case h_2 e refused => exact .inl ⟨e, rfl⟩
  case h_1 o st' accepted =>
    refine .inr ⟨o, st', rfl, ?_⟩
    cases r with
    | createBackup id database expire version encryption =>
      obtain ⟨-, -, -, begun⟩ := createBackup_ok accepted
      exact starts_insertBackup begun rfl rfl
    | copyBackup id source expire encryption =>
      obtain ⟨src, -, -, -, -, begun⟩ := copyBackup_ok accepted
      exact starts_insertBackup begun rfl rfl
    | restoreDatabase id backup encryption =>
      obtain ⟨b, -, -, begun⟩ := restoreDatabase_ok accepted
      exact starts_insertDatabase begun rfl rfl rfl
    | createDatabase statement extra =>
      obtain ⟨-, begun⟩ := createDatabase_ok accepted
      exact starts_insertDatabase begun rfl rfl rfl

/-- The operation that a request starts stands behind all others, and is sound. -/
theorem Starts.task {x : Target} {o : Operation} (h : Starts st x o st') :
    ∃ t, st'.tasks = st.tasks ++ [t] ∧ t.operation = o ∧ t.operation.done = false ∧
      t.Targets x ∧ t.Sound := by
  obtain ⟨st₁, metadata, effect, begun, resource, target, tasks⟩ := h.begun
  obtain ⟨rfl, rfl⟩ := Prod.mk.inj begun
  have split : "/operations/op-" = "/operations/" ++ "op-" := rfl
  refine ⟨_, congrArg (· ++ _) tasks, rfl, rfl, ⟨target, resource⟩, ?_, fun _ => ⟨rfl, rfl⟩,
    fun y aim => ?_⟩
  · have free : '/' ∉ "op-".toList := by decide
    refine Store.named_numbered (n := st₁.nextId + 1) resource ?_ free (by decide)
    simp only [split, String.append_assoc]
  · obtain rfl : x = y := Option.some.inj (target.symm.trans aim)
    exact resource

end Script

namespace Store

/-- The operation `t` at place `i` comes to its end: what it was making is not being made any more,
and the other operations stay as they are. -/
structure Ends (st : Store) (i : Nat) (t : Task) (st' : Store) : Prop where
  advances : st.Advances st'
  done : ∃ t', st'.tasks[i]? = some t' ∧ t'.operation.done = true
  others : ∀ (j : Nat) (u : Task), j ≠ i → st.tasks[j]? = some u → st'.tasks[j]? = some u
  creating : ∀ x, st'.Creating x → st.Creating x ∧ t.effect.target ≠ some x

section
variable {st st' : Store} {i : Nat} {t : Task}

theorem creating_removePending {e : Effect} {x : Target} (h : (st.removePending e).Creating x) :
    st.Creating x ∧ e.target ≠ some x := by
  have erased {α : Type} {c : Catalog α} {name other : String} {a : α}
      (found : (c.erase name).get? other = some a) : c.get? other = some a ∧ name ≠ other := by
    rw [Catalog.get?_erase] at found
    split at found
    · contradiction
    case isFalse ne => exact ⟨found, Ne.symm ne⟩
  cases e with
  | nothing => exact ⟨h, by simp [Effect.target]⟩
  | backup name encryption =>
    cases x with
    | database other => exact ⟨h, by simp [Effect.target]⟩
    | backup other =>
      obtain ⟨b, found, creating⟩ := h
      obtain ⟨found, ne⟩ := erased found
      exact ⟨⟨b, found, creating⟩, by simpa [Effect.target] using ne⟩
  | restore name | createDatabase name =>
    cases x with
    | backup other => exact ⟨h, by simp [Effect.target]⟩
    | database other =>
      obtain ⟨d, found, creating⟩ := h
      obtain ⟨found, ne⟩ := erased found
      exact ⟨⟨d, found, creating⟩, by simpa [Effect.target] using ne⟩

/-- An operation ends in a store that differs from the one before at its place only. -/
theorem Ends.of_update (at_i : st.tasks[i]? = some t) {f : Task → Task}
    (continues : t.Continues (f t)) (h : (st.update i f).Ends i (f t) st') : st.Ends i t st' where
  advances := (Advances.update at_i continues).trans h.advances
  done := h.done
  others j u ne at_j := h.others j u ne (by rw [getElem?_update, if_neg (Ne.symm ne), at_j])
  creating x new := continues.effect ▸ h.creating x new

/-- An operation whose last change is made ends, when what it was making is settled. -/
theorem Ends.of_last (advances : st.Advances st') {t' : Task} (at_i : st'.tasks[i]? = some t')
    (pending : t'.operation.done = false) {f : Task → Task} (done : (f t').operation.done = true)
    (name : (f t').operation.name = t'.operation.name) (resource : (f t').resource = t'.resource)
    (effect : (f t').effect = t'.effect)
    (others : ∀ (j : Nat) (u : Task), j ≠ i → st.tasks[j]? = some u → st'.tasks[j]? = some u)
    (creating : ∀ x, st'.Creating x → st.Creating x ∧ t.effect.target ≠ some x) :
    st.Ends i t (st'.update i f) where
  advances := advances.trans (.update at_i (.of_ended pending done name resource effect))
  done := ⟨f t', by rw [getElem?_update, if_pos rfl, at_i, Option.map_some], done⟩
  others j u ne at_j := by rw [getElem?_update, if_neg (Ne.symm ne), others j u ne at_j]
  creating := creating

/-- An operation ends when what it was making is given up. -/
theorem Ends.of_removed (at_i : st.tasks[i]? = some t) (pending : t.operation.done = false)
    {f : Task → Task} (done : (f t).operation.done = true)
    (name : (f t).operation.name = t.operation.name) (resource : (f t).resource = t.resource)
    (effect : (f t).effect = t.effect) :
    st.Ends i t ((st.removePending t.effect).update i f) := by
  have same := st.removePending_tasks t.effect
  exact .of_last (.of_tasks same) (same ▸ at_i) pending done name resource effect
    (fun j u ne at_j => same ▸ at_j) fun x new => creating_removePending new

end

end Store

namespace Script
variable {s : Script} {st st' : Store} {i : Nat} {t : Task}

/-- A value of a catalog in which one value was changed. -/
theorem exists_of_get?_modify {α : Type} {c : Catalog α} {k l : String} {f : α → α} {a : α}
    (h : (c.modify k f).get? l = some a) :
    ∃ b, c.get? l = some b ∧ a = if l = k then f b else b := by
  rw [Catalog.get?_modify] at h
  split at h
  case isTrue same =>
    obtain ⟨b, found, rfl⟩ := Option.map_eq_some_iff.1 h
    exact ⟨b, found, (if_pos same).symm⟩
  case isFalse ne => exact ⟨a, h, (if_neg ne).symm⟩

/-- What an operation was making is made when the operation is carried out. -/
theorem creating_perform (s : Script) (i : Nat) {e : Effect} {x : Target}
    (h : (s.perform st i e).2.Creating x) : st.Creating x ∧ e.target ≠ some x := by
  cases x with
  | backup other =>
    obtain ⟨b, found, creating⟩ := h
    cases e with
    | backup name encryption =>
      obtain ⟨c, before, rfl⟩ := exists_of_get?_modify found
      split at creating
      · contradiction
      case isFalse ne =>
        exact ⟨⟨c, before, creating⟩, by simpa [Effect.target] using Ne.symm ne⟩
    | restore name source =>
      obtain ⟨c, before, rfl⟩ := exists_of_get?_modify found
      refine ⟨⟨c, before, ?_⟩, by simp [Effect.target]⟩
      split at creating <;> exact creating
    | createDatabase | nothing => exact ⟨⟨b, found, creating⟩, by simp [Effect.target]⟩
  | database other =>
    obtain ⟨d, found, creating⟩ := h
    cases e with
    | restore name | createDatabase name =>
      obtain ⟨c, before, rfl⟩ := exists_of_get?_modify found
      split at creating
      · simp at creating
      case isFalse ne =>
        exact ⟨⟨c, before, creating⟩, by simpa [Effect.target] using Ne.symm ne⟩
    | backup | nothing => exact ⟨⟨d, found, creating⟩, by simp [Effect.target]⟩

/-- The operation that follows a restore is sound. -/
theorem sound_optimizing (s : Script) (database : String) (n : Nat) :
    (⟨s.optimizing (database ++ "/operations/optimize-" ++ toString n) database, 0, .nothing⟩ :
      Task).Sound := by
  have split : "/operations/optimize-" = "/operations/" ++ "optimize-" := rfl
  refine ⟨?_, fun _ => ⟨rfl, rfl⟩, fun x aim => by contradiction⟩
  have free : '/' ∉ "optimize-".toList := by decide
  refine Store.named_numbered (n := n) rfl ?_ free (by decide)
  simp only [optimizing, split, String.append_assoc]

/-- Where an operation is carried out, it still stands at its place, and the others too. -/
theorem tasks_perform (s : Script) (at_i : st.tasks[i]? = some t)
    (pending : t.operation.done = false) (e : Effect) :
    st.Advances (s.perform st i e).2 ∧
      (∃ t', (s.perform st i e).2.tasks[i]? = some t' ∧ t'.operation.done = false) ∧
      ∀ (j : Nat) (u : Task), j ≠ i → st.tasks[j]? = some u →
        (s.perform st i e).2.tasks[j]? = some u := by
  cases e with
  | backup | createDatabase | nothing =>
    exact ⟨.of_tasks rfl, ⟨t, at_i, pending⟩, fun j u _ at_j => at_j⟩
  | restore database source =>
    let name := database ++ "/operations/optimize-" ++ toString (st.nextId + 1)
    let f : Task → Task := fun u => { u with operation := withOptimize name u.operation }
    have continues : t.Continues (f t) :=
      .of_pending pending rfl (resource_withOptimize _ _) rfl ⟨rfl, rfl⟩
    have named : st.Advances (st.update i f) := .update at_i continues
    have behind {j : Nat} {u : Task} (at_j : (st.update i f).tasks[j]? = some u) :
        (s.perform st i (.restore database source)).2.tasks[j]? = some u := by
      obtain ⟨lt, -⟩ := List.getElem?_eq_some_iff.1 at_j
      exact (List.getElem?_append_left lt).trans at_j
    refine ⟨named.trans (.append rfl (sound_optimizing s database (st.nextId + 1))),
      ⟨f t, behind ?_, pending⟩, fun j u ne at_j => behind ?_⟩
    · rw [Store.getElem?_update, if_pos rfl, at_i, Option.map_some]
    · rw [Store.getElem?_update, if_neg (Ne.symm ne), at_j]

/-- An operation that is under way ends with the failure of the script or with success. -/
theorem ends_finish (s : Script) (at_i : st.tasks[i]? = some t)
    (pending : t.operation.done = false) : st.Ends i t (s.finish st i t.effect) := by
  unfold finish
  cases s.failure with
  | some e => exact .of_removed at_i pending rfl rfl rfl rfl
  | none =>
    obtain ⟨advances, ⟨t', at_i', pending'⟩, others⟩ := tasks_perform s at_i pending t.effect
    exact .of_last advances at_i' pending' rfl rfl (resource_setPercent _ 100) rfl others
      fun x new => creating_perform s i new

/-- A poll before the last one changes nothing but its own operation, which goes on. -/
theorem poll_more (s : Script) (at_i : st.tasks[i]? = some t)
    (pending : t.operation.done = false) (more : s.completes (t.polls + 1) = false) :
    st.Advances (s.poll st i t) ∧
      (∀ (j : Nat) (u : Task), st.tasks[j]? = some u →
        (s.poll st i t).tasks[j]? = some (if j = i then s.polled u else u)) ∧
      ∀ x, (s.poll st i t).Creating x → st.Creating x := by
  have counted : t.Continues { t with polls := t.polls + 1 } :=
    .of_pending pending rfl rfl rfl ⟨rfl, rfl⟩
  have shown : ({ t with polls := t.polls + 1 } : Task).Continues (s.polled t) :=
    .of_pending pending rfl (resource_setPercent ..) rfl ⟨rfl, rfl⟩
  simp only [poll, more, Bool.false_eq_true, if_false]
  refine ⟨.trans (.update at_i counted) (.update ?_ shown), fun j u at_j => ?_, fun x new => ?_⟩
  · rw [Store.getElem?_update, if_pos rfl, at_i, Option.map_some]
  · rw [Store.getElem?_update, Store.getElem?_update]
    by_cases same : i = j
    · subst same
      obtain rfl : t = u := Option.some.inj (at_i.symm.trans at_j)
      simp [at_j, polled]
    · simp [same, Ne.symm same, at_j]
  · cases x <;> exact new

/-- The last poll ends the operation. -/
theorem ends_poll (s : Script) (at_i : st.tasks[i]? = some t)
    (pending : t.operation.done = false) (last : s.completes (t.polls + 1) = true) :
    st.Ends i t (s.poll st i t) := by
  have counted : t.Continues { t with polls := t.polls + 1 } :=
    .of_pending pending rfl rfl rfl ⟨rfl, rfl⟩
  simp only [poll, last, if_true]
  refine .of_update at_i counted (ends_finish s ?_ pending)
  rw [Store.getElem?_update, if_pos rfl, at_i, Option.map_some]

/-- Asking for an operation that is there answers with it as it then is. -/
theorem getOperation_found {name : String} (found : st.find? name = some (i, t)) :
    ∃ t' st', s.getOperation name st = ⟨.ok t'.operation, st', 0⟩ ∧
      st' = (if t.operation.done then st else s.poll st i t) ∧
      st.Advances st' ∧ st'.tasks[i]? = some t' ∧ t.Continues t' := by
  obtain ⟨at_i, -⟩ := Store.find?_eq_some_iff.1 found
  have advances : st.Advances (if t.operation.done then st else s.poll st i t) := by
    split
    · exact .refl st
    case isFalse pending =>
      rw [Bool.not_eq_true] at pending
      cases last : s.completes (t.polls + 1) with
      | true => exact (ends_poll s at_i pending last).advances
      | false => exact (poll_more s at_i pending last).1
  obtain ⟨t', at_i', continues⟩ := advances.keeps i t at_i
  refine ⟨t', _, ?_, rfl, advances, at_i', continues⟩
  simp only [getOperation, found, at_i']

theorem getOperation_none {name : String} (absent : st.find? name = none) :
    s.getOperation name st = ⟨.error (.notFound name), st, 0⟩ := by
  simp only [getOperation, absent]

/-- A request to cancel that is honoured ends its operation. -/
theorem ends_cancelOperation {name : String} (found : st.find? name = some (i, t))
    (pending : t.operation.done = false) (honours : s.ignoreCancel = false) :
    st.Ends i t (s.cancelOperation name st).state := by
  have found' : (st.countCancel name).find? name = some (i, t) := found
  have at_i : (st.countCancel name).tasks[i]? = some t := (Store.find?_eq_some_iff.1 found).1
  let f : Task → Task := fun u => { u with operation := s.cancelled u.operation }
  have resource : (f t).resource = t.resource := resource_cancelled t.operation s
  have ends := Store.Ends.of_removed at_i pending rfl rfl resource rfl
  simp only [cancelOperation, found', pending, honours, Bool.false_eq_true, if_false]
  -- counting has changed neither the operations nor what is being made
  exact ⟨⟨ends.advances.keeps, ends.advances.adds⟩, ends.done, ends.others, ends.creating⟩

/-- A request to cancel that is not honoured is counted, and nothing else. -/
theorem state_cancelOperation {name : String}
    (settled : ∀ i t, st.find? name = some (i, t) →
      t.operation.done = true ∨ s.ignoreCancel = true) :
    (s.cancelOperation name st).state = st.countCancel name := by
  have same : (st.countCancel name).find? name = st.find? name := rfl
  unfold cancelOperation
  dsimp only
  rw [same]
  split
  · rfl
  case h_2 i t found =>
    split
    · rfl
    case isFalse pending => rw [if_pos ((settled i t found).resolve_left pending)]

/-- Asking for an operation polls one under way, or changes nothing. -/
theorem state_getOperation_cases (s : Script) (name : String) (st : Store) :
    (s.getOperation name st).state = st ∨
      ∃ i t, st.find? name = some (i, t) ∧ t.operation.done = false ∧
        (s.getOperation name st).state = s.poll st i t := by
  cases found : st.find? name with
  | none => exact .inl (by rw [getOperation_none found])
  | some place =>
    obtain ⟨i, t⟩ := place
    obtain ⟨t', st', asked, state, -⟩ := getOperation_found (s := s) found
    rw [asked]
    cases done : t.operation.done with
    | true => exact .inl (by simpa only [done, if_true] using state)
    | false =>
      refine .inr ⟨i, t, rfl, done, ?_⟩
      simpa only [done, Bool.false_eq_true, if_false] using state

/-- A request to cancel is honoured for an operation under way, or it is only counted. -/
theorem state_cancelOperation_cases (s : Script) (name : String) (st : Store) :
    (s.cancelOperation name st).state = st.countCancel name ∨
      ∃ i t, st.find? name = some (i, t) ∧ t.operation.done = false ∧ s.ignoreCancel = false := by
  by_cases honoured : ∃ i t, st.find? name = some (i, t) ∧ t.operation.done = false ∧
      s.ignoreCancel = false
  · exact .inr honoured
  · refine .inl (state_cancelOperation fun i t found => ?_)
    refine Classical.byContradiction fun honours => honoured ⟨i, t, found, ?_⟩
    simpa only [not_or, Bool.not_eq_true] using honours

end Script

/-- What one call may do to the operations and to what is being made. -/
inductive Turn (s : Script) (st : Store) : Store → Prop
  | quiet {st' : Store} (tasks : st'.tasks = st.tasks)
      (creating : ∀ x, st'.Creating x → st.Creating x) : Turn s st st'
  | starts {x : Target} {o : Operation} {st' : Store} (h : Script.Starts st x o st') :
      Turn s st st'
  | polls {i : Nat} {t : Task} (at_i : st.tasks[i]? = some t) (pending : t.operation.done = false)
      (more : s.completes (t.polls + 1) = false) : Turn s st (s.poll st i t)
  | ends {i : Nat} {t : Task} {st' : Store} (at_i : st.tasks[i]? = some t)
      (pending : t.operation.done = false) (h : st.Ends i t st') : Turn s st st'

section
variable {s : Script} {st st' : Store}

theorem Turn.advances (h : Turn s st st') : st.Advances st' := by
  cases h with
  | quiet tasks creating => exact .of_tasks tasks
  | starts h =>
    obtain ⟨t, tasks, -, -, -, sound⟩ := h.task
    exact .append tasks sound
  | polls at_i pending more => exact (Script.poll_more s at_i pending more).1
  | ends at_i pending h => exact h.advances

theorem Turn.refl (s : Script) (st : Store) : Turn s st st := .quiet rfl fun _ => id

theorem turn_getOperation (s : Script) (name : String) (st : Store) :
    Turn s st (s.getOperation name st).state := by
  rcases s.state_getOperation_cases name st with same | ⟨i, t, found, pending, polled⟩
  · exact same.symm ▸ .refl s st
  · have at_i := (Store.find?_eq_some_iff.1 found).1
    rw [polled]
    cases last : s.completes (t.polls + 1) with
    | true => exact .ends at_i pending (Script.ends_poll s at_i pending last)
    | false => exact .polls at_i pending last

theorem turn_cancelOperation (s : Script) (name : String) (st : Store) :
    Turn s st (s.cancelOperation name st).state := by
  rcases s.state_cancelOperation_cases name st with counted | ⟨i, t, found, pending, honours⟩
  · exact counted ▸ .quiet rfl fun _ => id
  · exact .ends (Store.find?_eq_some_iff.1 found).1 pending
      (Script.ends_cancelOperation found pending honours)

theorem turn_submit (s : Script) (i : Instance) (r : Request) (st : Store) :
    Turn s st (s.submit i r st).state := by
  rcases s.submit_starts i r st with ⟨e, refused⟩ | ⟨o, st', accepted, starts, -⟩
  · exact refused ▸ .refl s st
  · exact accepted ▸ .starts starts

/-- Where only backups have changed, what is being made was so before. -/
theorem Turn.of_backups (tasks : st'.tasks = st.tasks) (databases : st'.databases = st.databases)
    (states : ∀ name b, st'.backups.get? name = some b →
      ∃ b', st.backups.get? name = some b' ∧ b'.state = b.state) : Turn s st st' := by
  refine .quiet tasks fun x new => ?_
  cases x with
  | database name =>
    obtain ⟨d, found, creating⟩ := new
    exact ⟨d, databases ▸ found, creating⟩
  | backup name =>
    obtain ⟨b, found, creating⟩ := new
    obtain ⟨b', found', same⟩ := states name b found
    exact ⟨b', found', same.trans creating⟩

theorem turn_getBackup (s : Script) (name : String) (st : Store) :
    Turn s st (s.getBackup name st).state := by
  have counted : Turn s st (s.countRead name st) := by
    unfold Script.countRead
    dsimp only
    split
    · refine .of_backups rfl rfl fun other b found => ?_
      obtain ⟨b', found', rfl⟩ := Script.exists_of_get?_modify found
      exact ⟨b', found', by split <;> rfl⟩
    · exact .of_backups rfl rfl fun other b found => ⟨b, found, rfl⟩
  unfold Script.getBackup
  dsimp only
  split <;> exact counted

theorem turn_updateExpireTime (name : String) (t : Instant) (st : Store) :
    Turn s st (updateExpireTime name t st).state := by
  unfold updateExpireTime
  split
  · exact .refl s st
  case h_2 b found =>
    split
    · exact .refl s st
    · refine .of_backups rfl rfl fun other b' found' => ?_
      rw [Catalog.get?_insert] at found'
      split at found'
      case isTrue same =>
        obtain rfl := Option.some.inj found'
        exact ⟨b, same ▸ found, rfl⟩
      case isFalse => exact ⟨b', found', rfl⟩

theorem turn_deleteBackup (name : String) (st : Store) :
    Turn s st (deleteBackup name st).state := by
  unfold deleteBackup
  split
  · exact .refl s st
  · split
    · refine .of_backups rfl rfl fun other b found => ?_
      rw [Catalog.get?_erase] at found
      split at found
      · contradiction
      · exact ⟨b, found, rfl⟩
    · exact .refl s st

theorem turn_dropDatabase (name : String) (st : Store) :
    Turn s st (dropDatabase name st).state := by
  unfold dropDatabase
  split
  · refine .quiet rfl fun x new => ?_
    cases x with
    | backup other =>
      obtain ⟨b, found, creating⟩ := new
      rw [Catalog.get?_mapValues] at found
      obtain ⟨b', found', rfl⟩ := Option.map_eq_some_iff.1 found
      exact ⟨b', found', creating⟩
    | database other =>
      obtain ⟨d, found, creating⟩ := new
      rw [Catalog.get?_erase] at found
      split at found
      · contradiction
      · exact ⟨d, found, creating⟩
  · exact .refl s st

end

/-- Every call takes one of these turns. -/
theorem turn_answer (s : Script) (c : Call) (st : Store) :
    Turn s st ((service s).answer c st).state := by
  cases c with
  | submit i r => exact turn_submit s i r st
  | getOperation name => exact turn_getOperation s name st
  | cancelOperation name => exact turn_cancelOperation s name st
  | listBackups i p | listOperations kind i p => exact .refl s st
  | getBackup name => exact turn_getBackup s name st
  | updateExpireTime name t => exact turn_updateExpireTime name t st
  | deleteBackup name => exact turn_deleteBackup name st
  | getDatabase name =>
    change Turn s st (getDatabase name st).state
    exact (getDatabase_state name st).symm ▸ .refl s st
  | dropDatabase name => exact turn_dropDatabase name st

end BackupAdmin.Memory
