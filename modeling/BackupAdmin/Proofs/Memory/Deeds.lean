import BackupAdmin.Proofs.Memory.Tending

/-! One operation of a service in memory while anything is done to the service. Main statement: an
operation under way is changed by its own polls and by its own cancel only, and in what way. -/
namespace BackupAdmin.Memory

/-- One thing that is done to a service from outside. -/
inductive Deed where
  | call (c : Call)
  | insertDatabase (name : String)
  | insertBackup (b : Backup)
deriving DecidableEq

namespace Deed

@[reducible] def poll (name : String) : Deed := .call (.getOperation name)

@[reducible] def cancel (name : String) : Deed := .call (.cancelOperation name)

end Deed

namespace Script

/-- The store after one deed. -/
def doing (s : Script) (st : Store) : Deed → Store
  | .call c => ((service s).answer c st).state
  | .insertDatabase name => st.insertDatabase s.now name
  | .insertBackup b => st.insertBackup b

/-- The store after some deeds, one after the other. -/
def run (s : Script) (ds : List Deed) (st : Store) : Store := ds.foldl s.doing st

section
variable (s : Script) (d : Deed) (ds ds' : List Deed) (st : Store)

theorem run_append : s.run (ds ++ ds') st = s.run ds' (s.run ds st) := List.foldl_append ..

theorem run_concat : s.run (ds ++ [d]) st = s.doing (s.run ds st) d := s.run_append ds [d] st

theorem advances_doing : st.Advances (s.doing st d) := by
  cases d with
  | call c => exact (turn_answer s c st).advances
  | insertDatabase | insertBackup => exact .of_tasks rfl

theorem advances_run : st.Advances (s.run ds st) := by
  induction ds generalizing st with
  | nil => exact .refl st
  | cons d ds ih => exact (s.advances_doing d st).trans (ih (s.doing st d))

end

end Script

section
variable {s : Script} {st st' : Store} {i : Nat} {t u : Task} {d : Deed}

theorem Reachable.doing (h : Reachable s st) (d : Deed) : Reachable s (s.doing st d) := by
  cases d with
  | call c => exact h.call c
  | insertDatabase name => exact h.insertDatabase name
  | insertBackup b => exact h.insertBackup b

theorem Reachable.run (h : Reachable s st) (ds : List Deed) : Reachable s (s.run ds st) := by
  induction ds generalizing st with
  | nil => exact h
  | cons d ds ih => exact ih (h.doing d)

theorem Reachable.advances (h : Reachable s st) : ({} : Store).Advances st := by
  induction h with
  | new => exact .refl _
  | insertDatabase h name ih => exact ih.trans (.of_tasks rfl)
  | insertBackup h b ih => exact ih.trans (.of_tasks rfl)
  | call h c ih => exact ih.trans (turn_answer s c _).advances

theorem Reachable.sound (h : Reachable s st) (at_i : st.tasks[i]? = some t) : t.Sound :=
  h.advances.adds i t (Nat.zero_le i) at_i

theorem place_ne_of_find? {name : String} {j : Nat} (at_i : st.tasks[i]? = some t)
    (ne : t.operation.name ≠ name) (found : st.find? name = some (j, u)) : i ≠ j := by
  rintro rfl
  obtain ⟨at_j, named, -⟩ := Store.find?_eq_some_iff.1 found
  obtain rfl : t = u := Option.some.inj (at_i.symm.trans at_j)
  exact ne named

theorem getOperation_other {name : String} (at_i : st.tasks[i]? = some t)
    (ne : t.operation.name ≠ name) : (s.getOperation name st).state.tasks[i]? = some t := by
  rcases s.state_getOperation_cases name st with same | ⟨j, u, found, pending, polled⟩
  · rwa [same]
  · have apart := place_ne_of_find? at_i ne found
    have at_j := (Store.find?_eq_some_iff.1 found).1
    rw [polled]
    cases last : s.completes (u.polls + 1) with
    | true => exact (Script.ends_poll s at_j pending last).others i t apart at_i
    | false =>
      obtain ⟨-, keeps, -⟩ := Script.poll_more s at_j pending last
      exact (keeps i t at_i).trans (by rw [if_neg apart])

theorem cancelOperation_other {name : String} (at_i : st.tasks[i]? = some t)
    (ne : t.operation.name ≠ name) : (s.cancelOperation name st).state.tasks[i]? = some t := by
  rcases s.state_cancelOperation_cases name st with counted | ⟨j, u, found, pending, honours⟩
  · rwa [counted]
  · have apart := place_ne_of_find? at_i ne found
    exact (Script.ends_cancelOperation found pending honours).others i t apart at_i

theorem submit_other {place : Instance} {r : Request} (at_i : st.tasks[i]? = some t) :
    (s.submit place r st).state.tasks[i]? = some t := by
  rcases s.submit_starts place r st with ⟨e, refused⟩ | ⟨o, st', accepted, starts, -⟩
  · rwa [refused]
  · obtain ⟨u, tasks, -⟩ := starts.task
    rw [accepted, tasks, List.getElem?_append_left (List.getElem?_eq_some_iff.1 at_i).1]
    exact at_i

/-- What is not done to an operation by its name leaves it as it is. -/
theorem doing_other (at_i : st.tasks[i]? = some t) (not_polled : d ≠ .poll t.operation.name)
    (not_cancelled : d ≠ .cancel t.operation.name) : (s.doing st d).tasks[i]? = some t := by
  cases d with
  | insertDatabase | insertBackup => exact at_i
  | call c =>
    cases c with
    | submit place r => exact submit_other at_i
    | getOperation name => exact getOperation_other at_i fun same => not_polled (same ▸ rfl)
    | cancelOperation name =>
      exact cancelOperation_other at_i fun same => not_cancelled (same ▸ rfl)
    | _ => exact (congrArg (·[i]?) (tasks_answer rfl st).1).trans at_i

end

/-- What a service tells of a backup or database that is there. -/
def Store.describe (st : Store) : Target → Option Json
  | .backup name => (st.backups.get? name).map Backup.encode
  | .database name => (st.databases.get? name).map Database.encode

section
variable {s : Script} {st : Store} {i : Nat} {t : Task} {x : Target}

theorem describe_update (st : Store) (i : Nat) (f : Task → Task) (x : Target) :
    (st.update i f).describe x = st.describe x := by
  cases x <;> rfl

theorem describe_removePending {e : Effect} (aim : e.target = some x) :
    (st.removePending e).describe x = none := by
  cases e <;> cases aim <;> simp [Store.describe, Store.removePending]

/-- The response tells of what was made, if it was still there. -/
theorem perform_response {e : Effect} (aim : e.target = some x) :
    (s.perform st i e).1 = (s.perform st i e).2.describe x ∧
      ((s.perform st i e).1.isSome ↔ (st.describe x).isSome) := by
  cases e <;> cases aim <;>
    exact ⟨rfl, by simp [Script.perform, Store.describe, Catalog.get?_modify]⟩

/-- Carrying out an operation may add to it which operation follows. -/
theorem perform_at (at_i : st.tasks[i]? = some t) (e : Effect) :
    ∃ o, (o = t.operation ∨ ∃ name, o = Script.withOptimize name t.operation) ∧
      (s.perform st i e).2.tasks[i]? = some { t with operation := o } := by
  cases e with
  | backup | createDatabase | nothing => exact ⟨t.operation, .inl rfl, at_i⟩
  | restore database backup =>
    let name := database ++ "/operations/optimize-" ++ toString (st.nextId + 1)
    let f : Task → Task := fun u => { u with operation := Script.withOptimize name u.operation }
    have here : (st.update i f).tasks[i]? = some (f t) := by
      rw [Store.getElem?_update, if_pos rfl, at_i, Option.map_some]
    refine ⟨_, .inr ⟨name, rfl⟩, ?_⟩
    exact (List.getElem?_append_left (List.getElem?_eq_some_iff.1 here).1).trans here

end

/-- What an operation under way becomes by a deed that leads from one store to another. -/
inductive Script.Alters (s : Script) (st st' : Store) (t : Task) : Deed → Task → Prop
  | kept {d : Deed} (not_polled : d ≠ .poll t.operation.name)
      (not_cancelled : d ≠ .cancel t.operation.name) : Alters s st st' t d t
  | polled (more : s.completes (t.polls + 1) = false) :
      Alters s st st' t (.poll t.operation.name) (s.polled t)
  | failed (last : s.completes (t.polls + 1) = true) {e : OperationError}
      (fault : s.failure = some e) (gone : ∀ x, t.effect.target = some x → st'.describe x = none) :
      Alters s st st' t (.poll t.operation.name) (failed e t)
  | succeeded (last : s.completes (t.polls + 1) = true) (fine : s.failure = none) {o : Operation}
      (same : o = t.operation ∨ ∃ name, o = withOptimize name t.operation) {response : Option Json}
      (told : ∀ x, t.effect.target = some x →
        response = st'.describe x ∧ (response.isSome ↔ (st.describe x).isSome)) :
      Alters s st st' t (.poll t.operation.name) (succeeded response { t with operation := o })
  | cancelled (honours : s.ignoreCancel = false) :
      Alters s st st' t (.cancel t.operation.name) { t with operation := s.cancelled t.operation }
  | ignored (ignores : s.ignoreCancel = true) : Alters s st st' t (.cancel t.operation.name) t

section
variable {s : Script} {st : Store} {i : Nat} {t : Task}

/-- The last poll of an operation. -/
theorem alters_poll_last (at_i : st.tasks[i]? = some t) (last : s.completes (t.polls + 1) = true) :
    ∃ u, (s.poll st i t).tasks[i]? = some u ∧
      s.Alters st (s.poll st i t) t (.poll t.operation.name) u := by
  let counted := st.update i fun u => { u with polls := t.polls + 1 }
  have at_counted : counted.tasks[i]? = some { t with polls := t.polls + 1 } := by
    rw [Store.getElem?_update, if_pos rfl, at_i, Option.map_some]
  have poll : s.poll st i t = s.finish counted i t.effect := by
    simp only [Script.poll, last, if_true, counted]
  rw [poll, Script.finish]
  cases failure : s.failure with
  | some e =>
    refine ⟨Script.failed e t, ?_, .failed last failure fun x aim => ?_⟩
    · rw [Store.getElem?_update, if_pos rfl, Store.removePending_tasks, at_counted]
      rfl
    · rw [describe_update]
      exact describe_removePending aim
  | none =>
    obtain ⟨o, same, at_i'⟩ := perform_at (s := s) at_counted t.effect
    refine ⟨Script.succeeded (s.perform counted i t.effect).1 { t with operation := o }, ?_,
      .succeeded last failure same fun x aim => ?_⟩
    · dsimp only
      rw [Store.getElem?_update, if_pos rfl, at_i']
      rfl
    · have told : (s.perform counted i t.effect).1 = (s.perform counted i t.effect).2.describe x ∧
          ((s.perform counted i t.effect).1.isSome ↔ (counted.describe x).isSome) :=
        perform_response aim
      rw [describe_update st] at told
      exact ⟨told.1.trans (describe_update ..).symm, told.2⟩

theorem cancelOperation_at (found : st.find? t.operation.name = some (i, t))
    (pending : t.operation.done = false) (honours : s.ignoreCancel = false) :
    (s.cancelOperation t.operation.name st).state.tasks[i]? =
      some { t with operation := s.cancelled t.operation } := by
  have found' : (st.countCancel t.operation.name).find? t.operation.name = some (i, t) := found
  have at_i : (st.countCancel t.operation.name).tasks[i]? = some t :=
    (Store.find?_eq_some_iff.1 found).1
  simp only [Script.cancelOperation, found', pending, honours, Bool.false_eq_true, if_false]
  rw [Store.getElem?_update, if_pos rfl, Store.removePending_tasks, at_i]
  rfl

/-- What an operation under way becomes by a deed. -/
theorem exists_alters (apart : st.names.Nodup) (at_i : st.tasks[i]? = some t)
    (pending : t.operation.done = false) (d : Deed) :
    ∃ u, (s.doing st d).tasks[i]? = some u ∧ s.Alters st (s.doing st d) t d u := by
  have found := find?_of_apart apart at_i
  -- an operation is found by its name, as no other operation has it
  by_cases polled : d = .poll t.operation.name
  · subst polled
    have state : s.doing st (.poll t.operation.name) = s.poll st i t :=
      state_getOperation s found pending
    rw [state]
    cases last : s.completes (t.polls + 1) with
    | true => exact alters_poll_last at_i last
    | false =>
      obtain ⟨-, keeps, -⟩ := Script.poll_more s at_i pending last
      exact ⟨s.polled t, by rw [keeps i t at_i, if_pos rfl], .polled last⟩
  by_cases cancelled : d = .cancel t.operation.name
  · subst cancelled
    change ∃ u, (s.cancelOperation t.operation.name st).state.tasks[i]? = some u ∧
      s.Alters st (s.cancelOperation t.operation.name st).state t _ u
    cases ignores : s.ignoreCancel with
    | true =>
      rw [Script.state_cancelOperation fun j u _ => .inr ignores]
      exact ⟨t, at_i, .ignored ignores⟩
    | false => exact ⟨_, cancelOperation_at found pending ignores, .cancelled ignores⟩
  · exact ⟨t, doing_other at_i polled cancelled, .kept polled cancelled⟩

end

/-- The operations of a store that stand behind those of another one are new. -/
def Store.Opens (st st' : Store) : Prop :=
  ∀ (j : Nat) (t : Task), st.tasks.length ≤ j → st'.tasks[j]? = some t →
    t.polls = 0 ∧ t.operation.done = false

section
variable {s : Script} {st st' : Store} {i : Nat} {t : Task}

theorem Store.Opens.of_tasks (same : st'.tasks = st.tasks) : st.Opens st' := by
  intro j t le at_j
  rw [same, List.getElem?_eq_none le] at at_j
  contradiction

theorem Store.Opens.append (tasks : st'.tasks = st.tasks ++ [t]) (polls : t.polls = 0)
    (pending : t.operation.done = false) : st.Opens st' := by
  intro j u le at_j
  rw [tasks, List.getElem?_append_right le] at at_j
  obtain rfl : u = t := by simpa using List.mem_of_getElem? at_j
  exact ⟨polls, pending⟩

theorem Store.Opens.update (h : st.Opens st') (lt : i < st.tasks.length) (f : Task → Task) :
    st.Opens (st'.update i f) := by
  intro j u le at_j
  rw [Store.getElem?_update, if_neg (Nat.ne_of_lt (Nat.lt_of_lt_of_le lt le))] at at_j
  exact h j u le at_j

theorem opens_perform (s : Script) (st : Store) (i : Nat) (e : Effect) :
    st.Opens (s.perform st i e).2 := by
  cases e with
  | backup | createDatabase | nothing => exact .of_tasks rfl
  | restore database backup =>
    let told := st.update i fun t => { t with operation := Script.withOptimize (database ++
      "/operations/optimize-" ++ toString (st.nextId + 1)) t.operation }
    have same : told.tasks.length = st.tasks.length := List.length_modify ..
    have opens : told.Opens (s.perform st i (.restore database backup)).2 := .append rfl rfl rfl
    intro j u le at_j
    exact opens j u (same ▸ le) at_j

theorem opens_poll (s : Script) (lt : i < st.tasks.length) (t : Task) :
    st.Opens (s.poll st i t) := by
  let counted := st.update i fun u => { u with polls := t.polls + 1 }
  have same : counted.tasks.length = st.tasks.length := List.length_modify ..
  have opens : counted.Opens (s.poll st i t) := by
    unfold Script.poll
    dsimp only
    split
    · unfold Script.finish
      split
      · exact Store.Opens.update (.of_tasks (Store.removePending_tasks ..)) (same ▸ lt) _
      · exact (opens_perform s counted i t.effect).update (same ▸ lt) _
    · exact Store.Opens.update (.of_tasks rfl) (same ▸ lt) _
  intro j u le
  exact opens j u (same ▸ le)

theorem opens_cancelOperation (s : Script) (st : Store) (name : String) :
    st.Opens (s.cancelOperation name st).state := by
  unfold Script.cancelOperation
  dsimp only
  split
  · exact .of_tasks rfl
  case h_2 i t found =>
    have at_i : st.tasks[i]? = some t := (Store.find?_eq_some_iff.1 found).1
    split
    · exact .of_tasks rfl
    · split
      · exact .of_tasks rfl
      · have removed : st.Opens ((st.countCancel name).removePending t.effect) :=
          .of_tasks (Store.removePending_tasks ..)
        exact removed.update (List.getElem?_eq_some_iff.1 at_i).1 _

/-- The operations that come by a deed are new. -/
theorem opens_doing (s : Script) (st : Store) (d : Deed) : st.Opens (s.doing st d) := by
  cases d with
  | insertDatabase | insertBackup => exact .of_tasks rfl
  | call c =>
    cases c with
    | submit place r =>
      change st.Opens (s.submit place r st).state
      rcases s.submit_begins place r st with ⟨e, refused⟩ | ⟨o, st', accepted, begins⟩
      · exact refused ▸ .of_tasks rfl
      · obtain ⟨st₁, resource, metadata, effect, tasks, -, begun⟩ := begins
        rw [accepted]
        have behind := congrArg (·.2.tasks) begun
        rw [show (st₁.begin resource metadata effect).2.tasks = st₁.tasks ++ _ from rfl, tasks]
          at behind
        exact .append behind rfl rfl
    | getOperation name =>
      change st.Opens (s.getOperation name st).state
      rcases s.state_getOperation_cases name st with same | ⟨i, t, found, pending, polled⟩
      · exact .of_tasks (congrArg Store.tasks same)
      · have at_i := (Store.find?_eq_some_iff.1 found).1
        exact polled ▸ opens_poll s (List.getElem?_eq_some_iff.1 at_i).1 t
    | cancelOperation name => exact opens_cancelOperation s st name
    | _ => exact .of_tasks (tasks_answer rfl st).1

end

end BackupAdmin.Memory
