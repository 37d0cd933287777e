import BackupAdmin.Proofs.Memory.Numbering

/-! One operation of a service in memory: how it is found, polled and cancelled. -/
namespace BackupAdmin.Memory

namespace Store

/-- Behind the operations `ts` stands `t`, the first one with its name. -/
structure Holds (st : Store) (ts : List Task) (t : Task) : Prop where
  tasks : ∃ rest, st.tasks = ts ++ t :: rest
  first : ∀ u ∈ ts, u.operation.name ≠ t.operation.name

section
variable {st st' : Store} {ts : List Task} {t : Task}

theorem Holds.getElem? (h : st.Holds ts t) : st.tasks[ts.length]? = some t := by
  obtain ⟨rest, tasks⟩ := h.tasks
  simp [tasks]

theorem Holds.find? (h : st.Holds ts t) : st.find? t.operation.name = some (ts.length, t) := by
  obtain ⟨rest, tasks⟩ := h.tasks
  have none : ts.findIdx? (·.operation.name = t.operation.name) = none := by
    simpa using h.first
  have found : st.tasks.findIdx? (·.operation.name = t.operation.name) = some ts.length := by
    simp [tasks, List.findIdx?_append, none, List.findIdx?_cons]
  simp only [Store.find?, found, h.getElem?, Option.map_some]

theorem Holds.eq_of_find? {u : Task} {i : Nat} (h : st.Holds ts t)
    (found : st.find? t.operation.name = some (i, u)) : u = t := by
  rw [h.find?, Option.some.injEq, Prod.mk.injEq] at found
  exact found.2.symm

theorem Holds.of_tasks (h : st.Holds ts t) (tasks : st'.tasks = st.tasks) : st'.Holds ts t :=
  ⟨tasks ▸ h.tasks, h.first⟩

theorem Holds.update (h : st.Holds ts t) (f : Task → Task)
    (name : (f t).operation.name = t.operation.name) : (st.update ts.length f).Holds ts (f t) := by
  obtain ⟨rest, tasks⟩ := h.tasks
  refine ⟨⟨rest, ?_⟩, fun u mem => name ▸ h.first u mem⟩
  rw [Store.update, tasks, List.modify_eq_take_cons_drop (by simp)]
  simp

theorem Holds.removePending (h : st.Holds ts t) (e : Effect) : (st.removePending e).Holds ts t := by
  cases e <;> exact h.of_tasks rfl

end

end Store

namespace Script
variable {s : Script} {st : Store} {ts : List Task} {t t' : Task}

/-- An operation that was polled and goes on. -/
def polled (s : Script) (t : Task) : Task :=
  { t with
    polls := t.polls + 1
    operation := setPercent (s.pendingPercent (t.polls + 1)) t.operation }

/-- An operation that was polled and failed with an error. -/
def failed (e : OperationError) (t : Task) : Task :=
  { t with polls := t.polls + 1, operation := { t.operation with done := true, error := some e } }

/-- An operation that was polled and brought about its effect. -/
def succeeded (response : Option Json) (t : Task) : Task :=
  { t with
    polls := t.polls + 1
    operation := setPercent 100 { t.operation with done := true, response } }

/-- Asking for an operation that is done changes nothing. -/
theorem getOperation_done (h : st.Holds ts t) (done : t.operation.done = true) :
    s.getOperation t.operation.name st = ⟨.ok t.operation, st, 0⟩ := by
  simp only [getOperation, h.find?, done, if_true, h.getElem?]

/-- Asking for an operation that is not done polls it. -/
theorem getOperation_pending (h : st.Holds ts t) (pending : t.operation.done = false)
    (next : (s.poll st ts.length t).Holds ts t') :
    s.getOperation t.operation.name st = ⟨.ok t'.operation, s.poll st ts.length t, 0⟩ := by
  simp only [getOperation, h.find?, pending, Bool.false_eq_true, if_false, next.getElem?]

theorem holds_poll_pending (h : st.Holds ts t) (more : s.completes (t.polls + 1) = false) :
    (s.poll st ts.length t).Holds ts (s.polled t) := by
  have counted := h.update (fun u => { u with polls := t.polls + 1 }) rfl
  simp only [poll, more, Bool.false_eq_true, if_false]
  exact counted.update
    (fun u => { u with operation := setPercent (s.pendingPercent (t.polls + 1)) u.operation }) rfl

theorem holds_poll_failed (h : st.Holds ts t) (last : s.completes (t.polls + 1) = true)
    {e : OperationError} (fault : s.failure = some e) :
    (s.poll st ts.length t).Holds ts (failed e t) := by
  have counted := h.update (fun u => { u with polls := t.polls + 1 }) rfl
  simp only [poll, last, if_true, finish, fault]
  exact (counted.removePending t.effect).update
    (fun u => { u with operation := { u.operation with done := true, error := some e } }) rfl

/-- What cancelling an operation does that is under way, when it is honoured. -/
theorem cancelOperation_honoured (h : st.Holds ts t) (pending : t.operation.done = false)
    (honours : s.ignoreCancel = false) :
    ∃ st', s.cancelOperation t.operation.name st = ⟨.ok (), st', 0⟩ ∧
      st'.Holds ts { t with operation := s.cancelled t.operation } ∧
      st'.backups = (st.removePending t.effect).backups ∧
      st'.databases = (st.removePending t.effect).databases := by
  have counted : (st.countCancel t.operation.name).Holds ts t := h.of_tasks rfl
  refine ⟨_, ?_, (counted.removePending t.effect).update
    (fun u => { u with operation := s.cancelled u.operation }) rfl, ?_⟩
  · simp only [cancelOperation, counted.find?, pending, honours, Bool.false_eq_true, if_false]
  · cases t.effect <;> exact ⟨rfl, rfl⟩

/-- A service that ignores it only counts that it was asked to cancel. -/
theorem cancelOperation_ignored (h : st.Holds ts t) (pending : t.operation.done = false)
    (ignores : s.ignoreCancel = true) :
    s.cancelOperation t.operation.name st = ⟨.ok (), st.countCancel t.operation.name, 0⟩ := by
  have counted : (st.countCancel t.operation.name).Holds ts t := h.of_tasks rfl
  simp only [cancelOperation, counted.find?, pending, ignores, Bool.false_eq_true, if_false,
    if_true]

end Script

/-- An operation under way that was polled `n` times. -/
structure Task.UnderWay (t : Task) (operation : String) (effect : Effect) (n : Nat) : Prop where
  name : t.operation.name = operation
  pending : t.operation.done = false
  fault : t.operation.error = none
  effect : t.effect = effect
  polls : t.polls = n

/-- An operation that has ended, with an error or without. -/
structure Task.Ended (t : Task) (operation : String) (fault : Option OperationError) : Prop where
  name : t.operation.name = operation
  done : t.operation.done = true
  fault : t.operation.error = fault

/-- The course of an operation when it is polled: what holds after so many polls, as long as it is
under way, and what holds at its end, which comes when the script says so. -/
structure Script.Pursues (s : Script) (operation : String)
    (Pending : Nat → Task → Store → Prop) (Final : Task → Store → Prop) : Prop where
  way {n : Nat} {t : Task} {st : Store} (h : Pending n t st) :
    ∃ ts effect, st.Holds ts t ∧ t.UnderWay operation effect n
  ended {t : Task} {st : Store} (h : Final t st) : t.Ended operation s.failure
  more {n : Nat} {t : Task} {st : Store} (h : Pending n t st) (more : s.completes (n + 1) = false) :
    ∃ t' st', s.getOperation operation st = ⟨.ok t'.operation, st', 0⟩ ∧ Pending (n + 1) t' st'
  last {n : Nat} {t : Task} {st : Store} (h : Pending n t st) (last : s.completes (n + 1) = true) :
    ∃ t' st', s.getOperation operation st = ⟨.ok t'.operation, st', 0⟩ ∧ Final t' st'

theorem Script.Pursues.pending {s : Script} {operation : String}
    {Pending : Nat → Task → Store → Prop} {Final : Task → Store → Prop} {n : Nat} {t : Task}
    {st : Store} (pursues : s.Pursues operation Pending Final) (h : Pending n t st) :
    t.operation.done = false := by
  obtain ⟨ts, effect, -, way⟩ := pursues.way h
  exact way.pending

end BackupAdmin.Memory
