import BackupAdmin.Proofs.Memory.Task

/-! The counters of a service in memory, which have 32 bits. Main statement: within a bound on the
number of polls, arithmetic in 32 bits comes to the counts and percentages of an operation. -/
namespace BackupAdmin.Memory

namespace Script

/-- So many polls of an operation can be counted: their number fits into 32 bits, and where the
operation goes on, so does the hundredfold of it from which the percentage is made. -/
def Counts (s : Script) (polls : Nat) : Prop :=
  match s.completion with
  | .afterPolls n => n < UInt32.size ∧ min polls (n - 1) * 100 < UInt32.size
  | .never => polls < UInt32.size

section
variable {s : Script} {m n p : Nat}

theorem counts_afterPolls (completion : s.completion = .afterPolls n) :
    s.Counts p ↔ n < UInt32.size ∧ min p (n - 1) * 100 < UInt32.size := by
  rw [Counts, completion]

theorem counts_never (completion : s.completion = .never) : s.Counts p ↔ p < UInt32.size := by
  rw [Counts, completion]

theorem Counts.mono (h : s.Counts n) (le : m ≤ n) : s.Counts m := by
  cases completion : s.completion with
  | afterPolls k =>
    rw [counts_afterPolls completion] at h ⊢
    omega
  | never =>
    rw [counts_never completion] at h ⊢
    omega

/-- The number of a poll of an operation that was under way before it. -/
theorem Counts.lt_size (h : s.Counts (p + 1)) (pending : s.completes p = false) :
    p + 1 < UInt32.size := by
  cases completion : s.completion with
  | never => exact (counts_never completion).1 h
  | afterPolls n =>
    have bound := (counts_afterPolls completion).1 h
    simp only [completes, completion, decide_eq_false_iff_not] at pending
    omega

/-- Arithmetic in 32 bits counts such a poll, and comes to the percentage that is shown when the
operation goes on. -/
theorem Counts.eq_uint32 (h : s.Counts (p + 1)) (pending : s.completes p = false) :
    (UInt32.ofNat p + 1).toNat = p + 1 ∧
      ∀ n, s.completion = .afterPolls n → p + 1 < n →
        ((UInt32.ofNat p + 1) * 100).toNat = (p + 1) * 100 ∧
          s.pendingPercent (p + 1) = ((UInt32.ofNat p + 1) * 100 / UInt32.ofNat n).toInt32 := by
  have number : UInt32.ofNat p + 1 = UInt32.ofNat (p + 1) := (UInt32.ofNat_add p 1).symm
  have hundredfold : (UInt32.ofNat p + 1) * 100 = UInt32.ofNat ((p + 1) * 100) := by
    rw [number, UInt32.ofNat_mul]
    rfl
  refine ⟨?_, fun n completion more => ?_⟩
  · rw [number, UInt32.toNat_ofNat_of_lt' (h.lt_size pending)]
  · obtain ⟨narrow, bound⟩ := (counts_afterPolls completion).1 h
    have fits : (p + 1) * 100 < UInt32.size := by
      rwa [Nat.min_eq_left (by omega)] at bound
    refine ⟨by rw [hundredfold, UInt32.toNat_ofNat_of_lt' fits], ?_⟩
    rw [hundredfold, ← UInt32.ofNat_div fits narrow, UInt32.toInt32_ofNat']
    simp only [pendingPercent, completion]

end
end Script

/-- How often a backup was read. -/
def Store.readCount (st : Store) (name : String) : Nat := (st.backupReads.get? name).getD 0

namespace Script

/-- A call that the service answers without an overflow of its counters. -/
def Fits (s : Script) (st : Store) : Call → Prop
  | .getOperation name => ∀ i t, st.find? name = some (i, t) → t.operation.done = false →
    s.Counts (t.polls + 1)
  | .cancelOperation name => st.cancelCount name + 1 < UInt32.size
  | .getBackup name => st.readCount name + 1 < UInt32.size
  | _ => True

/-- A service that answers as the one in memory wherever the counters do not overflow. What it does
when one of them does is left open. -/
def Serves (s : Script) (service : Service Store) : Prop :=
  ∀ call st, s.Fits st call → service.answer call st = (Memory.service s).answer call st

theorem serves_service (s : Script) : s.Serves (Memory.service s) := fun _ _ _ => rfl

theorem serves_of_eq {s : Script} {service : Service Store} (same : service = Memory.service s) :
    s.Serves service := same ▸ s.serves_service

/-- A service that answers so many polls of any operation under way as the one in memory. -/
def Follows (s : Script) (service : Service Store) (polls : Nat) : Prop :=
  ∀ n < polls, ∀ (st : Store) (ts : List Task) (t : Task) (operation : String) (effect : Effect),
    st.Holds ts t → t.UnderWay operation effect n →
      service.answer (.getOperation operation) st = s.getOperation operation st

theorem follows_of_eq {s : Script} {service : Service Store} (same : service = Memory.service s)
    (polls : Nat) : s.Follows service polls := by
  intro n lt st ts t operation effect holds way
  rw [same]
  rfl

section
variable {s : Script} {service : Service Store} {st : Store} {ts : List Task} {t : Task}
  {operation : String} {polls : Nat}

/-- Polls within the bound do not overflow. -/
theorem Serves.follows (h : s.Serves service) (counts : s.Counts polls) :
    s.Follows service polls := by
  intro n lt st ts t operation effect holds way
  refine h (.getOperation operation) st fun i u found pending => ?_
  rw [← way.name] at found
  rw [holds.eq_of_find? found, way.polls]
  exact counts.mono lt

/-- An operation that has ended is not counted any more. -/
theorem fits_of_ended {fault : Option OperationError} (holds : st.Holds ts t)
    (ended : t.Ended operation fault) : s.Fits st (.getOperation operation) := by
  intro i u found pending
  rw [← ended.name] at found
  rw [holds.eq_of_find? found, ended.done] at pending
  contradiction

end
end Script

/-- From one store to another, neither cancels nor reads were counted. -/
structure Store.SameCounts (st st' : Store) : Prop where
  cancels : st'.cancels = st.cancels
  backupReads : st'.backupReads = st.backupReads

theorem Store.SameCounts.trans {st st' st'' : Store} (h : st.SameCounts st')
    (h' : st'.SameCounts st'') : st.SameCounts st'' :=
  ⟨h'.cancels.trans h.cancels, h'.backupReads.trans h.backupReads⟩

theorem Store.SameCounts.cancelCount_eq {st st' : Store} (h : st.SameCounts st') (name : String) :
    st'.cancelCount name = st.cancelCount name := by
  rw [Store.cancelCount, h.cancels, Store.cancelCount]

theorem Store.SameCounts.readCount_eq {st st' : Store} (h : st.SameCounts st') (name : String) :
    st'.readCount name = st.readCount name := by
  rw [Store.readCount, h.backupReads, Store.readCount]

theorem Store.sameCounts_removePending (st : Store) (e : Effect) :
    st.SameCounts (st.removePending e) := by
  cases e <;> exact ⟨rfl, rfl⟩

namespace Script
variable (s : Script) (st : Store)

theorem sameCounts_perform (i : Nat) (e : Effect) : st.SameCounts (s.perform st i e).2 := by
  cases e <;> exact ⟨rfl, rfl⟩

theorem sameCounts_finish (i : Nat) (e : Effect) : st.SameCounts (s.finish st i e) := by
  unfold finish
  cases s.failure with
  | some fault => exact (st.sameCounts_removePending e).trans ⟨rfl, rfl⟩
  | none => exact (s.sameCounts_perform st i e).trans ⟨rfl, rfl⟩

theorem sameCounts_poll (i : Nat) (t : Task) : st.SameCounts (s.poll st i t) := by
  unfold poll
  dsimp only
  split
  · have counted : st.SameCounts (st.update i fun u => { u with polls := t.polls + 1 }) := ⟨rfl, rfl⟩
    exact counted.trans (s.sameCounts_finish _ i t.effect)
  · exact ⟨rfl, rfl⟩

/-- A poll counts neither cancels nor reads. -/
theorem sameCounts_getOperation (name : String) :
    st.SameCounts (s.getOperation name st).state := by
  unfold getOperation
  split
  · exact ⟨rfl, rfl⟩
  case h_2 i t found =>
    have polled : st.SameCounts (if t.operation.done then st else s.poll st i t) := by
      split
      · exact ⟨rfl, rfl⟩
      · exact s.sameCounts_poll st i t
    dsimp only
    split <;> exact polled

/-- A request counts neither cancels nor reads. -/
theorem sameCounts_submit (i : Instance) (r : Request) : st.SameCounts (s.submit i r st).state := by
  unfold submit
  dsimp only
  split
  case h_2 => exact ⟨rfl, rfl⟩
  case h_1 o st' accepted =>
    cases r with
    | createBackup id database expire version encryption =>
      obtain ⟨-, -, -, begun⟩ := createBackup_ok accepted
      exact ⟨congrArg (·.2.cancels) begun, congrArg (·.2.backupReads) begun⟩
    | copyBackup id source expire encryption =>
      obtain ⟨src, -, -, -, -, begun⟩ := copyBackup_ok accepted
      exact ⟨congrArg (·.2.cancels) begun, congrArg (·.2.backupReads) begun⟩
    | restoreDatabase id backup encryption =>
      obtain ⟨b, -, -, begun⟩ := restoreDatabase_ok accepted
      exact ⟨congrArg (·.2.cancels) begun, congrArg (·.2.backupReads) begun⟩
    | createDatabase statement extra =>
      obtain ⟨-, begun⟩ := createDatabase_ok accepted
      exact ⟨congrArg (·.2.cancels) begun, congrArg (·.2.backupReads) begun⟩

/-- A wish to cancel counts no reads. -/
theorem backupReads_cancelOperation (name : String) :
    (s.cancelOperation name st).state.backupReads = st.backupReads := by
  unfold cancelOperation
  dsimp only
  split
  · rfl
  case h_2 i t found =>
    split
    · rfl
    · split
      · rfl
      · exact ((st.countCancel name).sameCounts_removePending t.effect).backupReads

theorem readCount_cancelOperation (operation name : String) :
    (s.cancelOperation operation st).state.readCount name = st.readCount name := by
  rw [Store.readCount, s.backupReads_cancelOperation, Store.readCount]

end Script

/-- The course of an operation with what polls do not count. -/
theorem Script.Pursues.keeping {s : Script} {operation : String}
    {Pending : Nat → Task → Store → Prop} {Final : Task → Store → Prop}
    (pursues : s.Pursues operation Pending Final) (st₀ : Store) :
    s.Pursues operation (fun n t st => Pending n t st ∧ st₀.SameCounts st)
      (fun t st => Final t st ∧ st₀.SameCounts st) where
  way h := pursues.way h.1
  ended h := pursues.ended h.1
  more {_ _ st} h more := by
    obtain ⟨t', st', answer, here⟩ := pursues.more h.1 more
    have same := s.sameCounts_getOperation st operation
    rw [answer] at same
    exact ⟨t', st', answer, here, h.2.trans same⟩
  last {_ _ st} h last := by
    obtain ⟨t', st', answer, final⟩ := pursues.last h.1 last
    have same := s.sameCounts_getOperation st operation
    rw [answer] at same
    exact ⟨t', st', answer, final, h.2.trans same⟩

end BackupAdmin.Memory
