import BackupAdmin.Proofs.Memory.Filing
import BackupAdmin.Proofs.Memory.Steps

/-! What holds of every store to which nothing unfinished was added by hand. Main statement: all
that is being made there has an operation under way that makes it, and that operation is found by
its name and comes to an end by polls. -/
open Relation (ReflTransGen)
namespace BackupAdmin.Memory

/-- Everything that is being made has an operation under way that makes it. -/
def Store.Tended (st : Store) : Prop :=
  ∀ x, st.Creating x → ∃ (i : Nat) (t : Task), st.tasks[i]? = some t ∧
    t.operation.done = false ∧ t.Targets x

section
variable {s : Script} {st st' : Store} {name : String} {i : Nat} {t : Task} {x : Target}

/-- What an operation under way makes is what it made before it was polled. -/
theorem Task.Targets.polled (h : t.Targets x) : (s.polled t).Targets x :=
  ⟨h.1, (resource_setPercent t.operation _).trans h.2⟩

theorem Store.Tended.turn (h : st.Tended) (turn : Turn s st st') : st'.Tended := by
  intro x new
  cases turn with
  | quiet tasks creating =>
    rw [tasks]
    exact h x (creating x new)
  | starts starts =>
    obtain ⟨t, tasks, -, pending, targets, -⟩ := starts.task
    rw [tasks]
    rcases starts.creating x new with rfl | old
    · exact ⟨st.tasks.length, t, by simp, pending, targets⟩
    · obtain ⟨j, u, at_j, rest⟩ := h x old
      obtain ⟨lt, -⟩ := List.getElem?_eq_some_iff.1 at_j
      exact ⟨j, u, (List.getElem?_append_left lt).trans at_j, rest⟩
  | polls at_i pending more =>
    obtain ⟨-, keeps, creating⟩ := Script.poll_more s at_i pending more
    obtain ⟨j, u, at_j, under_way, targets⟩ := h x (creating x new)
    refine ⟨j, _, keeps j u at_j, ?_⟩
    split
    · exact ⟨under_way, targets.polled⟩
    · exact ⟨under_way, targets⟩
  | @ends i t _ at_i pending ends =>
    obtain ⟨old, apart⟩ := ends.creating x new
    obtain ⟨j, u, at_j, under_way, targets⟩ := h x old
    have ne : j ≠ i := by
      rintro rfl
      obtain rfl : t = u := Option.some.inj (at_i.symm.trans at_j)
      exact apart targets.1
    exact ⟨j, u, ends.others j u ne at_j, under_way, targets⟩

/-- One thing that happens to a store: a call is answered, or a database or a finished backup is put
in by hand. -/
inductive Proceeds (s : Script) (st : Store) : Store → Prop
  | insertDatabase (name : String) : Proceeds s st (st.insertDatabase s.now name)
  | insertBackup {b : Backup} (made : b.state ≠ .creating) : Proceeds s st (st.insertBackup b)
  | call (c : Call) : Proceeds s st ((service s).answer c st).state

/-- The stores that a service comes to when nothing unfinished is put in by hand. -/
def Regular (s : Script) : Store → Prop := ReflTransGen (Proceeds s) {}

theorem Proceeds.turn (h : Proceeds s st st') : Turn s st st' := by
  cases h with
  | insertDatabase name =>
    refine .quiet rfl fun x new => ?_
    rcases @Store.creating_of_insertDatabase st (st.insertDatabase s.now name)
      name _ x rfl rfl new with ⟨-, creating⟩ | old
    · simp at creating
    · exact old
  | @insertBackup b made =>
    refine .quiet rfl fun x new => ?_
    rcases @Store.creating_of_insertBackup st (st.insertBackup b) b.name b x rfl
      rfl new with ⟨-, creating⟩ | old
    · exact absurd creating made
    · exact old
  | call c => exact turn_answer s c st

theorem Proceeds.titled (h : Proceeds s st st') (titled : Titled st) : Titled st' := by
  cases h with
  | insertDatabase name => exact titled.insertDatabase s.now name
  | insertBackup made => exact titled.insertBackup _
  | call c => exact titled.answer s c

theorem advances_of_proceeds (h : ReflTransGen (Proceeds s) st st') : st.Advances st' := by
  induction h with
  | refl => exact .refl st
  | tail _ next ih => exact ih.trans next.turn.advances

/-- What holds of a store all the time. -/
structure Store.Sound (st : Store) : Prop where
  titled : Titled st
  apart : st.names.Nodup
  tasks : ∀ t ∈ st.tasks, t.Sound
  tended : st.Tended

namespace Regular

theorem reachable (h : Regular s st) : Reachable s st := by
  induction h with
  | refl => exact .new
  | tail _ next ih =>
    cases next with
    | insertDatabase name => exact ih.insertDatabase name
    | insertBackup => exact ih.insertBackup _
    | call c => exact ih.call c

theorem titled (h : Regular s st) : Titled st := by
  induction h with
  | refl => exact ⟨.empty, .empty⟩
  | tail _ next ih => exact next.titled ih

theorem tended (h : Regular s st) : st.Tended := by
  induction h with
  | refl => rintro (name | name) ⟨b, found, -⟩ <;> simp at found
  | tail _ next ih => exact ih.turn next.turn

theorem sound (h : Regular s st) : st.Sound where
  titled := h.titled
  apart := h.reachable.names_nodup
  tasks t mem := by
    obtain ⟨j, at_j⟩ := List.mem_iff_getElem?.1 mem
    exact (advances_of_proceeds h).adds j t (Nat.zero_le j) at_j
  tended := h.tended

end Regular

/-- In a store without two operations of one name each is found by its name. -/
theorem find?_of_apart (apart : st.names.Nodup) (at_i : st.tasks[i]? = some t) :
    st.find? t.operation.name = some (i, t) := by
  refine Store.find?_eq_some_iff.2 ⟨at_i, rfl, fun j u lt at_j same => ?_⟩
  have there : i < st.names.length := by
    simpa [Store.names] using (List.getElem?_eq_some_iff.1 at_i).1
  have names : st.names[j]? = st.names[i]? := by
    simp [Store.names, at_i, at_j, same]
  exact absurd ((List.getElem?_inj (Nat.lt_trans lt there) apart).1 names) (Nat.ne_of_lt lt)

/-- The operation that a request has started is found by its name for ever after. -/
theorem submitted_found {r : Request} {place : Instance} {o : Operation}
    (apart : (s.submit place r st).state.names.Nodup)
    (accepted : (s.submit place r st).result = .ok o)
    (later : ReflTransGen (Proceeds s) (s.submit place r st).state st') :
    ∃ t t', (s.submit place r st).state.tasks[st.tasks.length]? = some t ∧ t.operation = o ∧
      t.Continues t' ∧ (s.getOperation o.name st').result = .ok t'.operation ∧
      (s.getOperation o.name st').state.tasks[st.tasks.length]? = some t' := by
  rcases s.submit_starts place r st with ⟨e, refused⟩ | ⟨o', st₁, done, starts, -⟩
  · rw [refused] at accepted
    contradiction
  · rw [done] at accepted apart later ⊢
    injection accepted with accepted
    obtain rfl : o' = o := accepted
    obtain ⟨t, tasks, rfl, -⟩ := starts.task
    have at_end : st₁.tasks[st.tasks.length]? = some t := by simp [tasks]
    obtain ⟨t', found, continues⟩ :=
      (advances_of_proceeds later).find? (find?_of_apart apart at_end)
    obtain ⟨t'', st'', asked, -, -, at_end', continues'⟩ :=
      Script.getOperation_found (s := s) found
    rw [asked]
    exact ⟨t, t'', at_end, rfl, continues.trans continues', rfl, at_end'⟩

/-- The store after an operation was asked for a number of times. -/
def Script.asked (s : Script) (name : String) : Nat → Store → Store
  | 0, st => st
  | k + 1, st => s.asked name k (s.getOperation name st).state

/-- Asking for an operation under way polls it. -/
theorem state_getOperation (s : Script) (found : st.find? name = some (i, t))
    (pending : t.operation.done = false) : (s.getOperation name st).state = s.poll st i t := by
  obtain ⟨t', st', asked, state, -⟩ := Script.getOperation_found (s := s) found
  rw [asked, state, pending, if_neg Bool.false_ne_true]

/-- Asking for an operation at its last poll ends it, and what it makes is no longer being made. -/
theorem asked_last (found : st.find? name = some (i, t)) (pending : t.operation.done = false)
    (last : s.completes (t.polls + 1) = true) (aim : t.effect.target = some x) :
    ∃ t', (s.getOperation name st).state.find? name = some (i, t') ∧ t'.operation.done = true ∧
      ¬ (s.getOperation name st).state.Creating x := by
  obtain ⟨at_i, -⟩ := Store.find?_eq_some_iff.1 found
  rw [state_getOperation s found pending]
  have ends := Script.ends_poll s at_i pending last
  obtain ⟨t', found', -⟩ := ends.advances.find? found
  obtain ⟨at_i', -⟩ := Store.find?_eq_some_iff.1 found'
  obtain ⟨t'', at_i'', done⟩ := ends.done
  obtain rfl : t'' = t' := Option.some.inj (at_i''.symm.trans at_i')
  exact ⟨t'', found', done, fun new => (ends.creating x new).2 aim⟩

/-- Asking for an operation before its last poll lets it go on. -/
theorem asked_more (found : st.find? name = some (i, t)) (pending : t.operation.done = false)
    (more : s.completes (t.polls + 1) = false) :
    (s.getOperation name st).state.find? name = some (i, s.polled t) := by
  obtain ⟨at_i, -⟩ := Store.find?_eq_some_iff.1 found
  rw [state_getOperation s found pending]
  obtain ⟨advances, keeps, -⟩ := Script.poll_more s at_i pending more
  obtain ⟨t', found', -⟩ := advances.find? found
  obtain ⟨at_i', -⟩ := Store.find?_eq_some_iff.1 found'
  have polled := keeps i t at_i
  rw [if_pos rfl] at polled
  obtain rfl : s.polled t = t' := Option.some.inj (polled.symm.trans at_i')
  exact found'

/-- An operation ends at one of the polls that it lacks, and what it makes is not being made any
more. -/
theorem asked_ends {n m : Nat} (completion : s.completion = .afterPolls n)
    (left : n ≤ t.polls + 1 + m) (found : st.find? name = some (i, t))
    (pending : t.operation.done = false) (aim : t.effect.target = some x) :
    ∃ k t', k ≤ m + 1 ∧ (s.asked name k st).find? name = some (i, t') ∧
      t'.operation.done = true ∧ ¬ (s.asked name k st).Creating x := by
  induction m generalizing st t with
  | zero =>
    have last : s.completes (t.polls + 1) = true := by
      simpa [Script.completes, completion] using left
    obtain ⟨t', ended⟩ := asked_last found pending last aim
    exact ⟨1, t', Nat.le_refl 1, ended⟩
  | succ m ih =>
    cases last : s.completes (t.polls + 1) with
    | true =>
      obtain ⟨t', ended⟩ := asked_last found pending last aim
      exact ⟨1, t', by omega, ended⟩
    | false =>
      have left' : n ≤ (s.polled t).polls + 1 + m := by
        simp only [Script.polled]
        omega
      obtain ⟨k, t', le, ended⟩ := ih left' (asked_more found pending last) pending aim
      exact ⟨k + 1, t', by omega, ended⟩

/-- A store to which nothing unfinished was added is sound; a request's operation is found by its
name for ever after, and what is being made can be settled by polling an operation under way. -/
theorem regular_settles (regular : Regular s st) :
    st.Sound ∧
      (∀ place r o st', (s.submit place r st).result = .ok o →
        ReflTransGen (Proceeds s) (s.submit place r st).state st' →
        ∃ t t', (s.submit place r st).state.tasks[st.tasks.length]? = some t ∧ t.operation = o ∧
          t.Continues t' ∧ (s.getOperation o.name st').result = .ok t'.operation ∧
          (s.getOperation o.name st').state.tasks[st.tasks.length]? = some t') ∧
      ∀ x, st.Creating x → ∃ i t, st.find? t.operation.name = some (i, t) ∧
        t.operation.done = false ∧ t.Targets x ∧
        ∀ n, s.completion = .afterPolls n → ∃ k t', k ≤ max n 1 ∧
          (s.asked t.operation.name k st).find? t.operation.name = some (i, t') ∧
          t'.operation.done = true ∧ ¬ (s.asked t.operation.name k st).Creating x := by
  have sound := regular.sound
  refine ⟨sound, fun place r o st' accepted later => ?_, fun x creating => ?_⟩
  · have next : Regular s (s.submit place r st).state := regular.tail (.call (.submit place r))
    exact submitted_found next.sound.apart accepted later
  · obtain ⟨i, t, at_i, pending, targets⟩ := sound.tended x creating
    have found := find?_of_apart sound.apart at_i
    refine ⟨i, t, found, pending, targets, fun n completion => ?_⟩
    obtain ⟨k, t', le, rest⟩ :=
      asked_ends (m := n - 1) completion (by omega) found pending targets.1
    exact ⟨k, t', by omega, rest⟩

end

theorem regular_settles_oneBackup :
    let s : Script := { now := ⟨0, 0⟩ }
    let place : Instance := ⟨"p", "i"⟩
    let r : Request :=
      .createBackup "b1" (place.databaseName "db1") (s.now.plusDays 1) none none
    let st := (s.submit place r (({} : Store).insertDatabase s.now (place.databaseName "db1"))).state
    let x : Target := .backup (place.backupName "b1")
    Regular s st ∧ st.Creating x ∧ ∃ name k, k ≤ 1 ∧ ¬ (s.asked name k st).Creating x := by
  intro s place r st x
  have regular : Regular s st :=
    (ReflTransGen.single (.insertDatabase _)).tail (.call (.submit place r))
  have making : (st.backups.get? (place.backupName "b1")).map (·.state) = some .creating := by
    decide +kernel
  have creating : st.Creating x := Option.map_eq_some_iff.1 making
  obtain ⟨-, -, settles⟩ := regular_settles regular
  obtain ⟨i, t, -, -, -, polls⟩ := settles x creating
  obtain ⟨k, t', le, -, -, settled⟩ := polls 1 rfl
  exact ⟨regular, creating, t.operation.name, k, le, settled⟩

end BackupAdmin.Memory
