import BackupAdmin.Admin.Waiting
import BackupAdmin.Proofs.Exchange.Basic
import BackupAdmin.Proofs.Memory.CancelCounts

/-! Cancelling an operation again and again. Main statement: after a first cancel that was taken,
further ones in between any calls are taken too, and nothing but their number can be told of
them. -/
namespace BackupAdmin.Memory

/-- The second store is the first one with `n` more requests to cancel one operation. -/
structure AgreeBut (name : String) (n : Nat) (st st' : Store) : Prop where
  same : st' = st.withCancels st'.cancels
  others : ∀ other, other ≠ name → st'.cancels.get? other = st.cancels.get? other
  more : st'.cancelCount name = st.cancelCount name + n

/-- The operation is there, and asking it to stop changes nothing about it. -/
def Idle (s : Script) (name : String) (st : Store) : Prop :=
  ∃ i t, st.find? name = some (i, t) ∧ (t.operation.done = true ∨ s.ignoreCancel = true)

section
variable {s : Script} {st st' : Store} {name : String} {n : Nat}

theorem AgreeBut.refl (name : String) (st : Store) : AgreeBut name 0 st st :=
  ⟨rfl, fun _ _ => rfl, rfl⟩

theorem AgreeBut.countCancel (h : AgreeBut name n st st') :
    AgreeBut name (n + 1) st (st'.countCancel name) where
  same := by rw [h.same]; rfl
  others other ne := by
    simp only [Store.countCancel, Catalog.get?_insert, ne, if_false]
    exact h.others other ne
  more := by
    have count : (st'.countCancel name).cancelCount name = st'.cancelCount name + 1 := by
      simp [Store.countCancel, Store.cancelCount]
    rw [count, h.more, Nat.add_assoc]

/-- A call answers alike in both stores and leads to two that agree in the same way. -/
theorem AgreeBut.answer (h : AgreeBut name n st st') (s : Script) (d : Call) :
    ((service s).answer d st').result = ((service s).answer d st).result ∧
      ((service s).answer d st').took = ((service s).answer d st).took ∧
      AgreeBut name n ((service s).answer d st).state ((service s).answer d st').state := by
  have reply := answer_withCancels s st st'.cancels d
  rw [← h.same] at reply
  rw [reply]
  refine ⟨rfl, rfl, rfl, fun other ne => ?_, ?_⟩
  · change (countsAfter d st'.cancels).get? other = _
    rw [cancels_answer, get?_countsAfter, get?_countsAfter, h.others other ne]
  · change ((countsAfter d st'.cancels).get? name).getD 0 = _
    have more := h.more
    unfold Store.cancelCount at more ⊢
    rw [cancels_answer, get?_countsAfter, get?_countsAfter]
    split
    · simp only [Option.getD_some]
      omega
    · exact more

theorem Idle.answer (h : Idle s name st) (d : Call) :
    Idle s name ((service s).answer d st).state := by
  obtain ⟨i, t, found, settled⟩ := h
  obtain ⟨t', found', continues⟩ := (turn_answer s d st).advances.find? found
  refine ⟨i, t', found', settled.imp_left fun done => ?_⟩
  rw [continues.ended done, done]

/-- Asking an operation to stop that does not, only counts. -/
theorem Idle.cancelOperation (h : Idle s name st) :
    (s.cancelOperation name st).state = st.countCancel name ∧
      (s.cancelOperation name st).took = 0 ∧
      ((s.cancelOperation name st).result = .ok () ∨
        ∃ m, (s.cancelOperation name st).result = .error (.preconditionFailed m)) := by
  obtain ⟨i, t, found, settled⟩ := h
  have found' : (st.countCancel name).find? name = some (i, t) := found
  simp only [Script.cancelOperation, found']
  split
  · exact ⟨rfl, rfl, .inr ⟨_, rfl⟩⟩
  case isFalse pending =>
    rw [settled.resolve_left pending, if_pos rfl]
    exact ⟨rfl, rfl, .inl rfl⟩

/-- After a request to cancel that finds its operation, further ones change nothing about it. -/
theorem idle_cancelOperation
    (taken : (s.cancelOperation name st).result ≠ .error (.notFound name)) :
    Idle s name (s.cancelOperation name st).state := by
  cases found : st.find? name with
  | none =>
    have absent : (st.countCancel name).find? name = none := found
    exact absurd (by simp only [Script.cancelOperation, absent]) taken
  | some place =>
    obtain ⟨i, t⟩ := place
    obtain ⟨t', found', continues⟩ := (turn_cancelOperation s name st).advances.find? found
    refine ⟨i, t', found', ?_⟩
    cases done : t.operation.done with
    | true => exact .inl (by rw [continues.ended done, done])
    | false =>
      cases honours : s.ignoreCancel with
      | true => exact .inr rfl
      | false =>
        obtain ⟨t'', at_i, ended⟩ := (Script.ends_cancelOperation found done honours).done
        obtain ⟨at_i', -⟩ := Store.find?_eq_some_iff.1 found'
        obtain rfl : t'' = t' := Option.some.inj (at_i.symm.trans at_i')
        exact .inl ended

end

end BackupAdmin.Memory

namespace BackupAdmin.Client
variable {σ : Type}

/-- Makes calls one after another, and cancels the operation once more where no call stands. Gives
what the calls exchange, and how the cancels end. -/
def interleave (c : Client σ) (h : Handle) : List (Option Call) → World σ →
    Option ((List Exchange × List (Except AdminError Unit)) × World σ)
  | [], w => some (([], []), w)
  | some d :: xs, w => do
    let ((log, ends), w') ← c.interleave h xs (w.after d (c.service.answer d w.service))
    return ((c.service.exchange w d :: log, ends), w')
  | none :: xs, w => do
    let (r, w₁) ← (c.cancel h).run w
    let ((log, ends), w') ← c.interleave h xs w₁
    return ((log, r :: ends), w')

/-- A request to cancel succeeds when it is taken, or when the service says that it comes too
late. -/
theorem cancel_ok_iff {c : Client σ} {h : Handle} {w w₁ : World σ} :
    (c.cancel h).run w = some (.ok (), w₁) ↔
      ((c.service.answer (.cancelOperation h.name) w.service).result = .ok () ∨
        ∃ m, (c.service.answer (.cancelOperation h.name) w.service).result =
          .error (.preconditionFailed m)) ∧
      (w.after (.cancelOperation h.name) (c.service.answer (.cancelOperation h.name)
        w.service)).emit c.listening (.cancelRequested h.name) = w₁ := by
  unfold cancel
  rw [Session.run_ofStep]
  dsimp only
  split
  case h_1 result => simp [result]
  case h_2 m result => simp [result]
  case h_3 e other result =>
    simp [result]
    intro m same
    exact absurd same (other m)

end BackupAdmin.Client

namespace BackupAdmin.Memory

section
variable {s : Script} {c : Client Store} {h : Handle} {w w₁ : World Store}

/-- A client whose request to cancel was taken has left the operation idle. -/
theorem idle_of_cancel (service : c.service = Memory.service s)
    (first : (c.cancel h).run w = some (.ok (), w₁)) : Idle s h.name w₁.service := by
  obtain ⟨taken, rfl⟩ := Client.cancel_ok_iff.1 first
  rw [service] at taken ⊢
  rw [World.emit_service, World.after_service]
  refine idle_cancelOperation fun refused => ?_
  rcases taken with result | ⟨m, result⟩
  · cases result.symm.trans refused
  · cases result.symm.trans refused

/-- A client may ask an idle operation to stop, which only counts. -/
theorem Idle.cancel (service : c.service = Memory.service s) (idle : Idle s h.name w.service) :
    ∃ w', (c.cancel h).run w = some (.ok (), w') ∧ w'.service = w.service.countCancel h.name ∧
      w'.elapsed = w.elapsed := by
  obtain ⟨state, took, taken⟩ := idle.cancelOperation
  have answer : c.service.answer (.cancelOperation h.name) w.service =
      s.cancelOperation h.name w.service := by
    rw [service]
    rfl
  refine ⟨_, Client.cancel_ok_iff.2 ⟨answer ▸ taken, rfl⟩, ?_, ?_⟩
  · rw [World.emit_service, World.after_service, answer, state]
  · rw [World.emit_elapsed, World.after_elapsed, answer, took]
    rfl

/-- Two runs of the same calls in worlds that agree, the one with cancels in between, the other one
without them. -/
theorem interleave_agrees (service : c.service = Memory.service s) (xs : List (Option Call))
    {v w : World Store} {n : Nat} (idle : Idle s h.name w.service)
    (agree : AgreeBut h.name n v.service w.service) (clock : w.elapsed = v.elapsed) :
    ∃ log v' w',
      c.interleave h xs w = some ((log, List.replicate (xs.count none) (.ok ())), w') ∧
      c.interleave h (xs.filter Option.isSome) v = some ((log, []), v') ∧
      AgreeBut h.name (n + xs.count none) v'.service w'.service := by
  induction xs generalizing v w n with
  | nil => exact ⟨[], v, w, rfl, rfl, agree⟩
  | cons x xs ih =>
    cases x with
    | none =>
      obtain ⟨w₁, asked, state, clock₁⟩ := idle.cancel service
      have idle₁ : Idle s h.name w₁.service := idle_of_cancel service asked
      obtain ⟨log, v', w', run, run', agree'⟩ :=
        ih idle₁ (state ▸ agree.countCancel) (clock₁.trans clock)
      refine ⟨log, v', w', ?_, run', ?_⟩
      · simp [Client.interleave, asked, run, List.replicate_succ]
      · rw [List.count_cons_self, Nat.add_comm (xs.count none), ← Nat.add_assoc]
        exact agree'
    | some d =>
      obtain ⟨result, took, agree₁⟩ := agree.answer s d
      rw [← service] at result took agree₁
      have idle₁ := service ▸ idle.answer d
      have clock₁ : (w.after d (c.service.answer d w.service)).elapsed =
          (v.after d (c.service.answer d v.service)).elapsed := by
        rw [World.after_elapsed, World.after_elapsed, took, clock]
      obtain ⟨log, v', w', run, run', agree'⟩ :=
        ih (v := v.after d _) (w := w.after d _) idle₁ agree₁ clock₁
      have same : c.service.exchange w d = c.service.exchange v d := by
        simp only [Service.exchange, result, clock₁]
      refine ⟨c.service.exchange v d :: log, v', w', ?_, ?_, ?_⟩
      · simp [Client.interleave, run, same]
      · simp [Client.interleave, run']
      · simpa using agree'

/-- When a client's request to cancel an operation was taken, any further ones are taken too,
wherever they stand between other calls. All other calls are answered as without them, and in the
end only the count of the requests to cancel that operation is another one. -/
theorem cancel_again (service : c.service = Memory.service s)
    (first : (c.cancel h).run w = some (.ok (), w₁)) (xs : List (Option Call)) :
    ∃ log v' w',
      c.interleave h xs w₁ = some ((log, List.replicate (xs.count none) (.ok ())), w') ∧
      c.interleave h (xs.filter Option.isSome) w₁ = some ((log, []), v') ∧
      w'.service = { v'.service with cancels := w'.service.cancels } ∧
      (∀ name, name ≠ h.name → w'.service.cancels.get? name = v'.service.cancels.get? name) ∧
      w'.service.cancelCount h.name = v'.service.cancelCount h.name + xs.count none := by
  obtain ⟨log, v', w', run, run', agree⟩ :=
    interleave_agrees service xs (idle_of_cancel service first) (.refl h.name w₁.service) rfl
  rw [Nat.zero_add] at agree
  exact ⟨log, v', w', run, run', agree.same, agree.others, agree.more⟩

end

theorem cancel_again_aroundAPoll :
    let s : Script := { now := ⟨0, 0⟩ }
    let c : Client Store := { service := service s }
    let place : Instance := ⟨"p", "i"⟩
    let r : Request :=
      .createBackup "b1" (place.databaseName "db1") (s.now.plusDays 1) none none
    let h : Handle := ⟨place.backupName "b1" ++ "/operations/op-1", .createBackup,
      place.backupName "b1"⟩
    let st := ({} : Store).insertDatabase s.now (place.databaseName "db1")
    let w : World Store := { service := (s.submit place r st).state, start := s.now }
    let poll : Call := .getOperation h.name
    ∃ w₁ log v' w', (c.cancel h).run w = some (.ok (), w₁) ∧
      c.interleave h [none, some poll, none] w₁ = some ((log, [.ok (), .ok ()]), w') ∧
      c.interleave h [some poll] w₁ = some ((log, []), v') ∧
      w'.service.cancelCount h.name = v'.service.cancelCount h.name + 2 := by
  intro s c place r h st w poll
  have taken : ((c.cancel h).run w).map (·.1.isOk) = some true := by decide +kernel
  obtain ⟨⟨_ | u, w₁⟩, first, ok⟩ := Option.map_eq_some_iff.1 taken
  · contradiction
  obtain ⟨log, v', w', run, run', -, -, more⟩ :=
    cancel_again rfl first [none, some poll, none]
  exact ⟨w₁, log, v', w', first, run, run', more⟩

end BackupAdmin.Memory
