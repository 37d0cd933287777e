import BackupAdmin.Proofs.Memory.Deeds

/-! The account that a service in memory keeps of one database: what makes it, what it was restored
from, and which backup lists it. Main statement: every call keeps the account, but for one that drops
the database while an operation makes it. -/
namespace BackupAdmin

/-- The backup that a database was restored from. -/
def Database.source (d : Database) : Option String :=
  (d.restoreInfo.bind (·.backupInfo)).map (·.backup)

namespace Memory
namespace Store

/-- The databases that a backup lists. -/
def references (st : Store) (backup : String) : List String :=
  ((st.backups.get? backup).map (·.referencingDatabases)).getD []

/-- What a database was restored from, where there is such a database. -/
def origin (st : Store) (database : String) : Option (Option String) :=
  (st.databases.get? database).map Database.source

/-- An operation under way makes the database. -/
def Makes (st : Store) (database : String) (i : Nat) (t : Task) : Prop :=
  st.tasks[i]? = some t ∧ t.operation.done = false ∧ t.effect.target = some (.database database)

/-- What holds of a database all the time: one operation at most makes it, with the database in
place and not yet listed; if it is listed, then once and by the backup that it was restored from. -/
structure Accounts (st : Store) (database : String) : Prop where
  alone : ∀ i j t u, st.Makes database i t → st.Makes database j u → i = j
  placed : ∀ i t, st.Makes database i t → ∃ source, st.origin database = some source ∧
    ∀ backup, t.effect = .restore database backup → source = some backup
  unlisted : ∀ i t, st.Makes database i t → ∀ backup, database ∉ st.references backup
  once : ∀ backup, (st.references backup).count database ≤ 1
  restored : ∀ backup, database ∈ st.references backup → st.origin database = some (some backup)

section
variable {st st' : Store} {n k : String} {i j : Nat} {t u : Task}

theorem references_of_found {b : Backup} (found : st.backups.get? k = some b) :
    st.references k = b.referencingDatabases := by
  rw [references, found, Option.map_some, Option.getD_some]

/-- A backup lists no more than the backup that stands under its name before. -/
theorem references_sublist (shrinks : ∀ b, st'.backups.get? k = some b →
      b.referencingDatabases = [] ∨ ∃ b', st.backups.get? k = some b' ∧
        b.referencingDatabases.Sublist b'.referencingDatabases) :
    (st'.references k).Sublist (st.references k) := by
  cases found : st'.backups.get? k with
  | none =>
    rw [references, found]
    exact List.nil_sublist _
  | some b =>
    rw [references_of_found found]
    rcases shrinks b found with empty | ⟨b', found', sublist⟩
    · exact empty ▸ List.nil_sublist _
    · exact references_of_found found' ▸ sublist

theorem origin_congr (same : st'.databases = st.databases) (n : String) :
    st'.origin n = st.origin n := by
  rw [origin, origin, same]

theorem references_congr (same : st'.backups = st.backups) (k : String) :
    st'.references k = st.references k := by
  rw [references, references, same]

theorem origin_removePending (st : Store) (e : Effect) (n : String) :
    (st.removePending e).origin n =
      if e.target = some (.database n) then none else st.origin n := by
  cases e with
  | backup | nothing => rw [if_neg (by simp [Effect.target])]; rfl
  | restore database backup | createDatabase database =>
    rw [origin, removePending, Catalog.get?_erase]
    by_cases same : n = database
    · simp [same, Effect.target]
    · simp [same, Ne.symm same, Effect.target, origin]

theorem references_removePending (st : Store) (e : Effect) (k : String) :
    ((st.removePending e).references k).Sublist (st.references k) := by
  refine references_sublist fun b found => ?_
  cases e with
  | backup name encryption =>
    rw [removePending, Catalog.get?_erase] at found
    split at found
    · contradiction
    · exact .inr ⟨b, found, .refl _⟩
  | restore | createDatabase | nothing => exact .inr ⟨b, found, .refl _⟩

/-- Carrying out an operation does not change what a database was restored from. -/
theorem origin_perform (s : Script) (st : Store) (i : Nat) (e : Effect) (n : String) :
    (s.perform st i e).2.origin n = st.origin n := by
  cases e with
  | backup | nothing => rfl
  | restore name | createDatabase name =>
    simp only [Script.perform, origin, Catalog.get?_modify]
    split
    · rw [Option.map_map]
      rfl
    · rfl

/-- Carrying out a restore adds the database to what its backup lists. -/
theorem references_perform (s : Script) (st : Store) (i : Nat) (e : Effect) (k : String) :
    (s.perform st i e).2.references k = st.references k ∨
      ∃ database, e = .restore database k ∧
        (s.perform st i e).2.references k = st.references k ++ [database] := by
  cases e with
  | createDatabase | nothing => exact .inl rfl
  | backup name encryption =>
    refine .inl ?_
    simp only [Script.perform, references, Catalog.get?_modify]
    split
    · rw [Option.map_map]
      rfl
    · rfl
  | restore database backup =>
    simp only [Script.perform, references, Catalog.get?_modify]
    split
    case isFalse => exact .inl rfl
    case isTrue same =>
      subst same
      cases st.backups.get? k with
      | none => exact .inl rfl
      | some b => exact .inr ⟨database, rfl, rfl⟩

/-- What does not concern a database keeps the account of it. -/
theorem Accounts.of_kept (h : st.Accounts n)
    (makes : ∀ j u, st'.Makes n j u → ∃ t, st.Makes n j t ∧ t.effect = u.effect)
    (origin : st'.origin n = st.origin n)
    (references : ∀ k, (st'.references k).count n ≤ (st.references k).count n) :
    st'.Accounts n where
  alone i j t u makes_i makes_j := by
    obtain ⟨t', before_i, -⟩ := makes i t makes_i
    obtain ⟨u', before_j, -⟩ := makes j u makes_j
    exact h.alone i j t' u' before_i before_j
  placed i t makes_i := by
    obtain ⟨t', before, effect⟩ := makes i t makes_i
    rw [origin, ← effect]
    exact h.placed i t' before
  unlisted i t makes_i k mem := by
    obtain ⟨t', before, -⟩ := makes i t makes_i
    have pos := Nat.lt_of_lt_of_le (List.count_pos_iff.2 mem) (references k)
    exact h.unlisted i t' before k (List.count_pos_iff.1 pos)
  once k := Nat.le_trans (references k) (h.once k)
  restored k mem := by
    have pos := Nat.lt_of_lt_of_le (List.count_pos_iff.2 mem) (references k)
    exact origin ▸ h.restored k (List.count_pos_iff.1 pos)

/-- Where no operation makes a database, it is enough to account for what is listed. -/
theorem Accounts.of_settled (settled : ∀ i t, ¬ st.Makes n i t)
    (once : ∀ k, (st.references k).count n ≤ 1)
    (restored : ∀ k, n ∈ st.references k → st.origin n = some (some k)) : st.Accounts n :=
  ⟨fun i _ t _ makes => absurd makes (settled i t), fun i t makes => absurd makes (settled i t),
    fun i t makes => absurd makes (settled i t), once, restored⟩

/-- A database that is made by nothing and listed nowhere needs no account. -/
theorem Accounts.of_unlisted (settled : ∀ i t, ¬ st.Makes n i t)
    (unlisted : ∀ k, n ∉ st.references k) : st.Accounts n :=
  .of_settled settled (fun k => by rw [List.count_eq_zero.2 (unlisted k)]; exact Nat.zero_le 1)
    fun k mem => absurd mem (unlisted k)

/-- A database that is not there is made by nothing and listed nowhere. -/
theorem Accounts.absent (h : st.Accounts n) (free : st.origin n = none) :
    (∀ i t, ¬ st.Makes n i t) ∧ ∀ k, n ∉ st.references k := by
  refine ⟨fun i t makes => ?_, fun k mem => ?_⟩
  · obtain ⟨source, there, -⟩ := h.placed i t makes
    rw [free] at there
    contradiction
  · have there := h.restored k mem
    rw [free] at there
    contradiction

theorem Makes.of_tasks (same : st'.tasks = st.tasks) (h : st'.Makes n j u) : st.Makes n j u :=
  ⟨same ▸ h.1, h.2⟩

/-- An operation that makes a database did so before, unless it is new. -/
theorem Makes.before (advances : st.Advances st') (h : st'.Makes n j u)
    (lt : j < st.tasks.length) : ∃ t, st.Makes n j t ∧ t.effect = u.effect := by
  obtain ⟨at_j, pending, target⟩ := h
  obtain ⟨t', at_j', continues⟩ := advances.keeps j _ (List.getElem?_eq_getElem lt)
  obtain rfl : t' = u := Option.some.inj (at_j'.symm.trans at_j)
  exact ⟨_, ⟨List.getElem?_eq_getElem lt, continues.done_eq_false pending,
    continues.effect ▸ target⟩, continues.effect.symm⟩

/-- An operation that has come to its end makes nothing, and no other one made its database. -/
theorem Accounts.settled_of_ends (h : st.Accounts n) (makes : st.Makes n i t)
    (ends : st.Ends i t st')
    (back : ∀ j u, st'.Makes n j u → ∃ t, st.Makes n j t ∧ t.effect = u.effect) (j : Nat)
    (u : Task) : ¬ st'.Makes n j u := by
  intro makes'
  obtain ⟨v, before, -⟩ := back j u makes'
  obtain rfl := h.alone i j t v makes before
  obtain ⟨t', at_i, done⟩ := ends.done
  obtain rfl : t' = u := Option.some.inj (at_i.symm.trans makes'.1)
  rw [makes'.2.1] at done
  contradiction

/-- What comes to operations without an effect makes no database. -/
theorem Makes.of_effects (advances : st.Advances st') {new : List Effect}
    (effects : st'.tasks.map (·.effect) = st.tasks.map (·.effect) ++ new)
    (idle : ∀ e ∈ new, e = .nothing) (j : Nat) (u : Task) (h : st'.Makes n j u) :
    ∃ t, st.Makes n j t ∧ t.effect = u.effect := by
  refine h.before advances (Nat.lt_of_not_le fun behind => ?_)
  have at_j : (st'.tasks.map (·.effect))[j]? = some u.effect := by
    rw [List.getElem?_map, h.1, Option.map_some]
  rw [effects, List.getElem?_append_right (by simpa using behind)] at at_j
  have target := h.2.2
  rw [idle _ (List.mem_of_getElem? at_j)] at target
  contradiction

section
variable (h : st.Accounts n) (at_i : st.tasks[i]? = some t) (pending : t.operation.done = false)
  (ends : st.Ends i t st')
  (back : ∀ j u, st'.Makes n j u → ∃ t, st.Makes n j t ∧ t.effect = u.effect)
include h at_i pending ends back

/-- An operation that was given up leaves nothing to account for. -/
theorem Accounts.removed (origin : st'.origin n = (st.removePending t.effect).origin n)
    (references : ∀ k, st'.references k = (st.removePending t.effect).references k) :
    st'.Accounts n := by
  have fewer (k : String) : (st'.references k).Sublist (st.references k) :=
    references k ▸ references_removePending st t.effect k
  by_cases target : t.effect.target = some (.database n)
  · have makes : st.Makes n i t := ⟨at_i, pending, target⟩
    exact .of_unlisted (h.settled_of_ends makes ends back) fun k mem =>
      h.unlisted i t makes k ((fewer k).subset mem)
  · refine h.of_kept back ?_ fun k => (fewer k).count_le n
    rw [origin, origin_removePending, if_neg target]

/-- A restore that was carried out is listed by the backup that the database was restored from. -/
theorem Accounts.performed {s : Script} (origin : st'.origin n = st.origin n)
    (references : ∀ k, st'.references k = (s.perform st i t.effect).2.references k) :
    st'.Accounts n := by
  by_cases target : t.effect.target = some (.database n)
  · have makes : st.Makes n i t := ⟨at_i, pending, target⟩
    obtain ⟨source, there, restored⟩ := h.placed i t makes
    have unlisted (k : String) := h.unlisted i t makes k
    refine .of_settled (h.settled_of_ends makes ends back) (fun k => ?_) fun k mem => ?_
    · rw [references]
      rcases references_perform s st i t.effect k with same | ⟨database, -, same⟩
      · rw [same, List.count_eq_zero.2 (unlisted k)]
        exact Nat.zero_le 1
      · rw [same, List.count_append, List.count_eq_zero.2 (unlisted k), Nat.zero_add]
        exact List.count_le_length
    · rw [references] at mem
      rcases references_perform s st i t.effect k with same | ⟨database, effect, same⟩
      · exact absurd (same ▸ mem) (unlisted k)
      · have own : database = n := by
          simpa [effect, Effect.target] using target
        rw [origin, there, restored k (own ▸ effect)]
  · refine h.of_kept back origin fun k => ?_
    rw [references]
    rcases references_perform s st i t.effect k with same | ⟨database, effect, same⟩
    · exact Nat.le_of_eq (congrArg _ same)
    · have other : database ≠ n := by
        simpa [effect, Effect.target] using target
      rw [same, List.count_append, List.count_singleton, if_neg (by simpa using other)]
      exact Nat.le_refl _

end

/-- A new operation makes a database, or the operation was there before. -/
theorem Makes.of_begin {st₁ : Store} {resource : String} {metadata : Metadata} {effect : Effect}
    (h : (st₁.begin resource metadata effect).2.Makes n j u) :
    st₁.Makes n j u ∨
      j = st₁.tasks.length ∧ u.effect = effect ∧ effect.target = some (.database n) := by
  obtain ⟨at_j, pending, target⟩ := h
  rcases Nat.lt_or_ge j st₁.tasks.length with lt | behind
  · have before : st₁.tasks[j]? = some u := (List.getElem?_append_left lt).symm.trans at_j
    exact .inl ⟨before, pending, target⟩
  · obtain ⟨lt, -⟩ := List.getElem?_eq_some_iff.1 at_j
    have last : j = st₁.tasks.length := by
      simp [begin] at lt
      omega
    subst last
    simp [begin] at at_j
    subst at_j
    exact .inr ⟨rfl, rfl, target⟩

theorem Accounts.begin_other (h : st.Accounts n) {st₁ : Store} (tasks : st₁.tasks = st.tasks)
    (resource : String) (metadata : Metadata) {effect : Effect}
    (other : effect.target ≠ some (.database n)) (origin : st₁.origin n = st.origin n)
    (references : ∀ k, (st₁.references k).Sublist (st.references k)) :
    (st₁.begin resource metadata effect).2.Accounts n := by
  refine h.of_kept (fun j u makes => ?_) origin fun k => (references k).count_le n
  rcases makes.of_begin with before | ⟨-, -, target⟩
  · exact ⟨u, before.of_tasks tasks, rfl⟩
  · exact absurd target other

/-- A database that is put in place while an operation on it begins. -/
theorem Accounts.begin_placed (h : st.Accounts n) {name : String}
    (free : st.databases.get? name = none) (d : Database) (metadata : Metadata) {effect : Effect}
    (target : effect.target = some (.database name))
    (source : ∀ backup, effect = .restore name backup → d.source = some backup) :
    ((Store.begin { st with databases := st.databases.insert name d } name metadata effect).2).Accounts
      n := by
  let st₁ : Store := { st with databases := st.databases.insert name d }
  by_cases own : name = n
  · subst own
    obtain ⟨settled, unlisted⟩ := h.absent (by rw [origin, free, Option.map_none])
    have new {j : Nat} {u : Task} (makes : (st₁.begin name metadata effect).2.Makes name j u) :
        j = st.tasks.length ∧ u.effect = effect :=
      match makes.of_begin with
      | .inl before => absurd (before.of_tasks rfl) (settled j u)
      | .inr ⟨behind, same, _⟩ => ⟨behind, same⟩
    have there : (st₁.begin name metadata effect).2.origin name = some d.source := by
      change (st₁.databases.get? name).map Database.source = _
      rw [Catalog.get?_insert, if_pos rfl, Option.map_some]
    refine ⟨fun i j t u makes makes' => (new makes).1.trans (new makes').1.symm,
      fun i t makes => ⟨d.source, there, fun k effect => ?_⟩, fun _ _ _ => unlisted,
      fun k => ?_, fun k mem => absurd mem (unlisted k)⟩
    · exact source k ((new makes).2 ▸ effect)
    · exact List.count_eq_zero.2 (unlisted k) ▸ Nat.zero_le 1
  · have tasks : st₁.tasks = st.tasks := rfl
    refine h.begin_other tasks name metadata ?_ ?_ fun k => .refl _
    · simpa [target] using own
    · change (st₁.databases.get? n).map Database.source = _
      rw [Catalog.get?_insert, if_neg (Ne.symm own), origin]

theorem references_insertBackup {b : Backup} (empty : b.referencingDatabases = []) (k : String) :
    ((st.insertBackup b).references k).Sublist (st.references k) := by
  refine references_sublist fun c found => ?_
  rw [insertBackup, Catalog.get?_insert] at found
  split at found
  · exact .inl (Option.some.inj found ▸ empty)
  · exact .inr ⟨c, found, .refl _⟩

/-- A backup that is put in place lists nothing. -/
theorem Accounts.begin_insertBackup (h : st.Accounts n) {b : Backup}
    (empty : b.referencingDatabases = []) (resource : String) (metadata : Metadata) {effect : Effect}
    (other : effect.target ≠ some (.database n)) :
    ((st.insertBackup b).begin resource metadata effect).2.Accounts n := by
  have tasks : (st.insertBackup b).tasks = st.tasks := rfl
  exact h.begin_other tasks resource metadata other rfl (references_insertBackup empty)

end
end Store

open Store

section
variable {s : Script} {st : Store} {n : String}

theorem Store.Accounts.submit (h : st.Accounts n) (s : Script) (place : Instance) (r : Request) :
    (s.submit place r st).state.Accounts n := by
  unfold Script.submit
  dsimp only
  split
  case h_2 e refused => exact h
  case h_1 o st' accepted =>
    cases r with
    | createBackup id database expire version encryption =>
      obtain ⟨-, -, -, begun⟩ := Script.createBackup_ok accepted
      obtain rfl := congrArg (·.2) begun
      exact h.begin_insertBackup rfl _ _ (by simp [Effect.target])
    | copyBackup id source expire encryption =>
      obtain ⟨src, -, -, -, -, begun⟩ := Script.copyBackup_ok accepted
      obtain rfl := congrArg (·.2) begun
      exact h.begin_insertBackup rfl _ _ (by simp [Effect.target])
    | restoreDatabase id backup encryption =>
      obtain ⟨b, -, free, begun⟩ := Script.restoreDatabase_ok accepted
      obtain rfl := congrArg (·.2) begun
      refine h.begin_placed free _ _ rfl fun k same => ?_
      injection same with _ same
      exact congrArg some same
    | createDatabase statement extra =>
      obtain ⟨free, begun⟩ := Script.createDatabase_ok accepted
      obtain rfl := congrArg (·.2) begun
      exact h.begin_placed free _ _ rfl fun k same => by contradiction

/-- Polling an operation adds no operation that makes anything. -/
theorem Script.effects_poll (s : Script) (st : Store) (i : Nat) (t : Task) :
    ∃ new, (s.poll st i t).tasks.map (·.effect) = st.tasks.map (·.effect) ++ new ∧
      ∀ e ∈ new, e = .nothing := by
  let counted := st.update i fun u => { u with polls := t.polls + 1 }
  have before : counted.tasks.map (·.effect) = st.tasks.map (·.effect) :=
    st.map_update i fun u => rfl
  rw [← before, Script.poll]
  split
  · rw [Script.finish]
    cases s.failure with
    | some e =>
      refine ⟨[], Eq.trans (map_update _ i fun u => rfl) ?_, List.forall_mem_nil _⟩
      rw [removePending_tasks, List.append_nil]
    | none =>
      cases t.effect with
      | backup | createDatabase | nothing =>
        exact ⟨[], Eq.trans (map_update _ i fun u => rfl) (List.append_nil _).symm,
          List.forall_mem_nil _⟩
      | restore database backup =>
        -- the operation that follows a restore makes nothing
        refine ⟨[.nothing], Eq.trans (map_update _ i fun u => rfl) ?_,
          fun e mem => List.mem_singleton.1 mem⟩
        exact (List.map_append ..).trans (congrArg (· ++ _) (map_update _ i fun u => rfl))
  · exact ⟨[], Eq.trans (map_update _ i fun u => rfl) (List.append_nil _).symm,
      List.forall_mem_nil _⟩

/-- The last poll of an operation gives up what it makes, or carries it out. -/
theorem Script.poll_cases (s : Script) (st : Store) (i : Nat) {t : Task}
    (last : s.completes (t.polls + 1) = true) :
    (s.poll st i t).backups = (st.removePending t.effect).backups ∧
        (s.poll st i t).databases = (st.removePending t.effect).databases ∨
      (s.poll st i t).backups = (s.perform st i t.effect).2.backups ∧
        (s.poll st i t).databases = (s.perform st i t.effect).2.databases := by
  rw [Script.poll, if_pos last, Script.finish]
  cases s.failure with
  | some e =>
    refine .inl ?_
    cases t.effect <;> exact ⟨rfl, rfl⟩
  | none =>
    refine .inr ?_
    cases t.effect <;> exact ⟨rfl, rfl⟩

theorem Store.Accounts.getOperation (h : st.Accounts n) (s : Script) (name : String) :
    (s.getOperation name st).state.Accounts n := by
  rcases s.state_getOperation_cases name st with same | ⟨i, t, found, pending, polled⟩
  · exact same.symm ▸ h
  have at_i := (find?_eq_some_iff.1 found).1
  obtain ⟨new, effects, idle⟩ := s.effects_poll st i t
  rw [polled]
  cases last : s.completes (t.polls + 1) with
  | false =>
    have back := Makes.of_effects (n := n) (Script.poll_more s at_i pending last).1 effects idle
    have same : (s.poll st i t).backups = st.backups ∧
        (s.poll st i t).databases = st.databases := by
      rw [Script.poll, if_neg (by simp [last])]
      exact ⟨rfl, rfl⟩
    exact h.of_kept back (origin_congr same.2 n) fun k =>
      Nat.le_of_eq (congrArg _ (references_congr same.1 k))
  | true =>
    have ends := Script.ends_poll s at_i pending last
    have back := Makes.of_effects (n := n) ends.advances effects idle
    rcases s.poll_cases st i last with ⟨backups, databases⟩ | ⟨backups, databases⟩
    · exact h.removed at_i pending ends back (origin_congr databases n) (references_congr backups)
    · exact h.performed at_i pending ends back
        ((origin_congr databases n).trans (origin_perform s st i t.effect n))
        (references_congr backups)

theorem Store.Accounts.cancelOperation (h : st.Accounts n) (s : Script) (name : String) :
    (s.cancelOperation name st).state.Accounts n := by
  rcases s.state_cancelOperation_cases name st with same | ⟨i, t, found, pending, honours⟩
  · rw [same]
    exact h.of_kept (fun j u makes => ⟨u, makes, rfl⟩) rfl fun k => Nat.le_refl _
  · have at_i := (find?_eq_some_iff.1 found).1
    have ends := Script.ends_cancelOperation found pending honours
    have state : (s.cancelOperation name st).state =
        ((st.countCancel name).removePending t.effect).update i fun u =>
          { u with operation := s.cancelled u.operation } := by
      have found' : (st.countCancel name).find? name = some (i, t) := found
      rw [Script.cancelOperation]
      simp only [found', pending, honours, Bool.false_eq_true, if_false]
    have effects : (s.cancelOperation name st).state.tasks.map (·.effect) =
        st.tasks.map (·.effect) ++ [] := by
      rw [state, List.append_nil]
      refine Eq.trans (map_update _ i fun u => rfl) ?_
      rw [removePending_tasks]
      rfl
    have back := Makes.of_effects (n := n) ends.advances effects (List.forall_mem_nil _)
    refine h.removed at_i pending ends back ?_ fun k => ?_
    · rw [state]
      cases t.effect <;> rfl
    · rw [state]
      cases t.effect <;> rfl

/-- What is done to backups alone, with no database added to what they list. -/
theorem Store.Accounts.of_sublist {st' : Store} (h : st.Accounts n) (tasks : st'.tasks = st.tasks)
    (origin : st'.origin n = st.origin n)
    (sublist : ∀ k, (st'.references k).Sublist (st.references k)) : st'.Accounts n :=
  h.of_kept (fun _ u makes => ⟨u, makes.of_tasks tasks, rfl⟩) origin
    fun k => (sublist k).count_le n

theorem Store.Accounts.getBackup (h : st.Accounts n) (s : Script) (name : String) :
    (s.getBackup name st).state.Accounts n := by
  have counted : (s.countRead name st).Accounts n := by
    rw [Script.countRead]
    split
    · refine h.of_sublist rfl rfl fun k => references_sublist fun b found => ?_
      obtain ⟨b', found', rfl⟩ := Script.exists_of_get?_modify found
      refine .inr ⟨b', found', ?_⟩
      split
      · exact List.nil_sublist _
      · exact .refl _
    · exact h.of_sublist rfl rfl fun k => .refl _
  rw [Script.getBackup]
  split <;> exact counted

theorem Store.Accounts.updateExpireTime (h : st.Accounts n) (name : String) (t : Instant) :
    (updateExpireTime name t st).state.Accounts n := by
  unfold Memory.updateExpireTime
  split
  · exact h
  case h_2 b found =>
    split
    · exact h
    · refine h.of_sublist rfl rfl fun k => references_sublist fun b' found' => ?_
      rw [Catalog.get?_insert] at found'
      split at found'
      case isTrue same => exact .inr ⟨b, same ▸ found, Option.some.inj found' ▸ .refl _⟩
      case isFalse => exact .inr ⟨b', found', .refl _⟩

theorem Store.Accounts.deleteBackup (h : st.Accounts n) (name : String) :
    (deleteBackup name st).state.Accounts n := by
  unfold Memory.deleteBackup
  split
  · exact h
  · split
    · refine h.of_sublist rfl rfl fun k => references_sublist fun b found => ?_
      rw [Catalog.get?_erase] at found
      split at found
      · contradiction
      · exact .inr ⟨b, found, .refl _⟩
    · exact h

/-- Dropping a database takes it from what backups list, unless an operation under way adds it. -/
theorem Store.Accounts.dropDatabase (h : st.Accounts n) (name : String)
    (spared : name = n → ∀ i t, ¬ st.Makes n i t) : (dropDatabase name st).state.Accounts n := by
  rw [Memory.dropDatabase]
  split
  case isFalse => exact h
  case isTrue =>
  let dropped : Store := { st with
    databases := st.databases.erase name
    backups := st.backups.mapValues fun _ b =>
      { b with referencingDatabases := b.referencingDatabases.filter (· ≠ name) } }
  have references (k : String) : dropped.references k = (st.references k).filter (· ≠ name) := by
    rw [Store.references, Catalog.get?_mapValues, Store.references]
    cases st.backups.get? k <;> rfl
  change dropped.Accounts n
  by_cases own : name = n
  · refine .of_unlisted (fun i t makes => spared own i t (makes.of_tasks rfl)) fun k mem => ?_
    rw [references] at mem
    simpa [own] using (List.mem_filter.1 mem).2
  · refine h.of_sublist rfl ?_ fun k => references k ▸ List.filter_sublist
    rw [origin, Catalog.get?_erase, if_neg (Ne.symm own), origin]

/-- Every call keeps the account of a database, but for one that drops it while it is made. -/
theorem Store.Accounts.answer (h : st.Accounts n) (s : Script) (c : Call)
    (spared : c = .dropDatabase n → ∀ i t, ¬ st.Makes n i t) :
    ((service s).answer c st).state.Accounts n := by
  cases c with
  | submit place r => exact h.submit s place r
  | getOperation name => exact h.getOperation s name
  | cancelOperation name => exact h.cancelOperation s name
  | listBackups | listOperations => exact h
  | getBackup name => exact h.getBackup s name
  | updateExpireTime name t => exact h.updateExpireTime name t
  | deleteBackup name => exact h.deleteBackup name
  | getDatabase name =>
    change (getDatabase name st).state.Accounts n
    exact (getDatabase_state name st).symm ▸ h
  | dropDatabase name => exact h.dropDatabase name fun same => spared (same ▸ rfl)

end

end Memory
end BackupAdmin
