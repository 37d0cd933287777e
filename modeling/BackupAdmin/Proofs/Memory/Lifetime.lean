import BackupAdmin.Proofs.Memory.Deeds
import Mathlib.Data.List.Induction
import Mathlib.Logic.Function.Iterate

/-! The life of an operation of a service in memory, from the deed that begins it. Main statement:
it ends at the poll that the script names or with a cancel that is honoured, and then stays as it
is. -/
namespace BackupAdmin

/-- The percentage that an operation shows, where its work has one. -/
def Operation.shown (o : Operation) : Option Int := o.percent.map (·.toInt)

namespace Memory

section
variable (o : Operation)

theorem percent_withPercent (n : Int32) (m : Metadata) :
    (m.withPercent n).percent = m.percent.map fun _ => n := by
  cases m <;> rfl

theorem shown_setPercent (n : Int32) :
    (setPercent n o).shown = o.shown.map fun _ => n.toInt := by
  cases metadata : o.metadata with
  | none => simp [Operation.shown, Operation.percent, setPercent, metadata]
  | some m =>
    simp only [Operation.shown, Operation.percent, setPercent, metadata, Option.map_some,
      Option.bind_some, percent_withPercent, Option.map_map]
    rfl

theorem shown_withOptimize (name : String) : (Script.withOptimize name o).shown = o.shown := by
  cases metadata : o.metadata with
  | none => simp [Operation.shown, Operation.percent, Script.withOptimize, metadata]
  | some m =>
    cases m <;> simp [Operation.shown, Operation.percent, Script.withOptimize, metadata,
      Metadata.percent, Metadata.progress?]

theorem shown_cancelled (s : Script) : (s.cancelled o).shown = o.shown := by
  cases metadata : o.metadata with
  | none => simp [Operation.shown, Operation.percent, Script.cancelled, metadata]
  | some m =>
    cases m <;> simp [Operation.shown, Operation.percent, Script.cancelled, metadata,
      Script.withCancelTime, Metadata.percent, Metadata.progress?]

end

/-- An operation that has brought about its effect shows a hundred, whatever follows it. -/
theorem shown_succeeded {t : Task} {o : Operation}
    (same : o = t.operation ∨ ∃ name, o = Script.withOptimize name t.operation)
    (response : Option Json) :
    (Script.succeeded response { t with operation := o }).operation.shown =
      t.operation.shown.map fun _ => 100 := by
  have shown : o.shown = t.operation.shown := by
    obtain rfl | ⟨name, rfl⟩ := same
    · rfl
    · exact shown_withOptimize ..
  rw [← shown]
  exact shown_setPercent ..

section
variable (s : Script) (t : Task)

/-- An operation that was polled some times and goes on is what it was but for what polls tell. -/
theorem polledTimes (p : Nat) :
    (s.polled^[p] t).polls = t.polls + p ∧
      (s.polled^[p] t).operation.name = t.operation.name ∧
      (s.polled^[p] t).operation.done = t.operation.done := by
  induction p with
  | zero => exact ⟨rfl, rfl, rfl⟩
  | succ p ih =>
    obtain ⟨polls, name, done⟩ := ih
    rw [Function.iterate_succ_apply']
    exact ⟨congrArg (· + 1) polls, name, done⟩

theorem shown_polledTimes (p : Nat) :
    (s.polled^[p + 1] t).operation.shown =
      t.operation.shown.map fun _ => (s.pendingPercent (t.polls + p + 1)).toInt := by
  have once (u : Task) : (s.polled u).operation.shown =
      u.operation.shown.map fun _ => (s.pendingPercent (u.polls + 1)).toInt := shown_setPercent ..
  induction p with
  | zero => exact once t
  | succ p ih =>
    rw [Function.iterate_succ_apply', once, ih, Option.map_map, (polledTimes s t (p + 1)).1]
    rfl

end

namespace Script

/-- A request to cancel the operation of a name is among the deeds, and is honoured. -/
def Cancels (s : Script) (name : String) (ds : List Deed) : Prop :=
  s.ignoreCancel = false ∧ .cancel name ∈ ds

/-- By these deeds an operation that was never polled before has come to its end. -/
def Over (s : Script) (name : String) (ds : List Deed) : Prop :=
  (0 < ds.count (.poll name) ∧ s.completes (ds.count (.poll name)) = true) ∨ s.Cancels name ds

section
variable {s : Script} {name : String} {ds : List Deed} {d : Deed} {n : Nat}

theorem completes_succ (h : s.completes n = true) : s.completes (n + 1) = true := by
  unfold completes at h ⊢
  split at h
  · exact decide_eq_true (Nat.le_succ_of_le (of_decide_eq_true h))
  · contradiction

theorem over_nil : ¬ s.Over name [] := by
  simp [Over, Cancels]

theorem over_concat_poll : s.Over name (ds ++ [.poll name]) ↔
    s.completes (ds.count (.poll name) + 1) = true ∨ s.Cancels name ds := by
  simp [Over, Cancels]

theorem over_concat_cancel : s.Over name (ds ++ [.cancel name]) ↔
    s.Over name ds ∨ s.ignoreCancel = false := by
  cases honours : s.ignoreCancel <;> simp [Over, Cancels, honours]

theorem over_concat_other (not_polled : d ≠ .poll name) (not_cancelled : d ≠ .cancel name) :
    s.Over name (ds ++ [d]) ↔ s.Over name ds := by
  simp [Over, Cancels, not_polled, Ne.symm not_cancelled]

theorem Over.concat (h : s.Over name ds) (d : Deed) : s.Over name (ds ++ [d]) := by
  by_cases polled : d = .poll name
  · rw [polled, over_concat_poll]
    exact h.imp (fun ended => completes_succ ended.2) id
  by_cases cancelled : d = .cancel name
  · exact cancelled ▸ over_concat_cancel.2 (.inl h)
  · exact (over_concat_other polled cancelled).2 h

end

end Script

section
variable {s : Script} {st : Store} {i : Nat} {t : Task}

/-- By one more deed an operation under way has come to its end, or it was polled or left alone. -/
theorem over_or_polled {st' : Store} {u v : Task} {ds : List Deed} {d : Deed}
    (same : u = s.polled^[ds.count (.poll t.operation.name)] t) (new : t.polls = 0)
    (more : ¬ s.Over t.operation.name ds) (alters : s.Alters st st' u d v) :
    (v.operation.done = true ∧ s.Over t.operation.name (ds ++ [d])) ∨
      (v = s.polled^[(ds ++ [d]).count (.poll t.operation.name)] t ∧
        ¬ s.Over t.operation.name (ds ++ [d])) := by
  obtain ⟨polls, name, -⟩ := polledTimes s t (ds.count (.poll t.operation.name))
  rw [← same, new, Nat.zero_add] at polls
  rw [← same] at name
  have uncancelled : ¬ s.Cancels t.operation.name ds := fun cancels => more (.inr cancels)
  rw [← name] at more uncancelled same polls ⊢
  cases alters with
  | kept not_polled not_cancelled =>
    rw [Script.over_concat_other not_polled not_cancelled, List.count_append,
      List.count_singleton, if_neg (by simpa using not_polled), Nat.add_zero]
    exact .inr ⟨same, more⟩
  | polled goes_on =>
    rw [Script.over_concat_poll, ← polls, List.count_append, List.count_singleton,
      if_pos (by simp), Function.iterate_succ_apply', ← same]
    exact .inr ⟨rfl, by simpa [goes_on] using uncancelled⟩
  | failed last | succeeded last =>
    rw [Script.over_concat_poll, ← polls]
    exact .inl ⟨rfl, .inl last⟩
  | cancelled honours => exact .inl ⟨rfl, Script.over_concat_cancel.2 (.inr honours)⟩
  | ignored ignores =>
    rw [Script.over_concat_cancel, List.count_append, List.count_singleton, if_neg (by simp),
      Nat.add_zero]
    exact .inr ⟨same, by simpa [ignores] using more⟩

end

/-- The operation `t` has just begun at place `i`. -/
structure Script.Begun (s : Script) (st : Store) (i : Nat) (t : Task) : Prop where
  reachable : Reachable s st
  here : st.tasks[i]? = some t
  new : t.polls = 0
  pending : t.operation.done = false

namespace Script.Begun
variable {s : Script} {st : Store} {i : Nat} {t u v : Task} {ds : List Deed} {d : Deed}

/-- The operation is what its polls have made of it, until it is over. -/
theorem run (h : s.Begun st i t) (ds : List Deed) :
    ∃ u, (s.run ds st).tasks[i]? = some u ∧
      ((u.operation.done = true ∧ s.Over t.operation.name ds) ∨
        (u = s.polled^[ds.count (.poll t.operation.name)] t ∧ ¬ s.Over t.operation.name ds)) := by
  -- the last deed is taken off, so that the polls before it are counted
  induction ds using List.reverseRecOn with
  | nil => exact ⟨t, h.here, .inr ⟨rfl, over_nil⟩⟩
  | append_singleton ds d ih =>
    obtain ⟨u, at_u, ended | ⟨same, more⟩⟩ := ih
    · obtain ⟨done, past⟩ := ended
      obtain ⟨v, at_v, continues⟩ := (s.advances_doing d (s.run ds st)).keeps i u at_u
      refine ⟨v, (s.run_concat d ds st).symm ▸ at_v, .inl ⟨?_, past.concat d⟩⟩
      rw [continues.ended done, done]
    · have under_way : u.operation.done = false := by
        rw [same, (polledTimes s t _).2.2, h.pending]
      obtain ⟨v, at_v, alters⟩ := exists_alters (h.reachable.run ds).names_nodup at_u under_way d
      exact ⟨v, (s.run_concat d ds st).symm ▸ at_v, over_or_polled same h.new more alters⟩

theorem exists_at (h : s.Begun st i t) (ds : List Deed) :
    ∃ u, (s.run ds st).tasks[i]? = some u ∧ u.operation.name = t.operation.name := by
  obtain ⟨u, at_u, continues⟩ := (s.advances_run ds st).keeps i t h.here
  exact ⟨u, at_u, continues.name⟩

theorem done_iff (h : s.Begun st i t) (at_u : (s.run ds st).tasks[i]? = some u) :
    u.operation.done = true ↔ s.Over t.operation.name ds := by
  obtain ⟨v, at_v, ⟨done, past⟩ | ⟨same, more⟩⟩ := h.run ds
  · obtain rfl : v = u := Option.some.inj (at_v.symm.trans at_u)
    exact iff_of_true done past
  · obtain rfl : v = u := Option.some.inj (at_v.symm.trans at_u)
    refine iff_of_false ?_ more
    rw [same, (polledTimes s t _).2.2, h.pending]
    exact Bool.false_ne_true

theorem eq_polled (h : s.Begun st i t) (at_u : (s.run ds st).tasks[i]? = some u)
    (pending : u.operation.done = false) :
    u = s.polled^[ds.count (.poll t.operation.name)] t ∧ ¬ s.Over t.operation.name ds := by
  obtain ⟨v, at_v, ⟨done, -⟩ | rest⟩ := h.run ds
  · obtain rfl : v = u := Option.some.inj (at_v.symm.trans at_u)
    rw [pending] at done
    contradiction
  · obtain rfl : v = u := Option.some.inj (at_v.symm.trans at_u)
    exact rest

end Script.Begun

namespace Script
variable {s : Script} {n p : Nat}

theorem pendingPercent_afterPolls (completion : s.completion = .afterPolls n) (lt : p < n) :
    (s.pendingPercent p).toInt = (100 * p / n : Nat) ∧ 100 * p / n < 100 := by
  have below : 100 * p / n < 100 := Nat.div_lt_of_lt_mul (by omega)
  have narrow : 100 * p / n < 2 ^ 31 := Nat.lt_trans below (by decide)
  refine ⟨?_, below⟩
  simp only [pendingPercent, completion]
  rw [Nat.mul_comm p, Int32.toInt_ofNat_of_lt narrow]

theorem pendingPercent_never (completion : s.completion = .never) :
    (s.pendingPercent p).toInt = 10 := by
  simp only [pendingPercent, completion]
  rfl

theorem lt_of_completes (completion : s.completion = .afterPolls n)
    (more : s.completes p = false) : p < n := by
  simpa [completes, completion] using more

/-- What an operation shows after a number of polls when it showed zero at first. -/
def level (s : Script) (p : Nat) : Int := if p = 0 then 0 else (s.pendingPercent p).toInt

theorem level_lt (more : 0 < p → s.completes p = false) : s.level p < 100 := by
  unfold level
  split
  · decide
  case isFalse polled =>
    cases completion : s.completion with
    | never => rw [pendingPercent_never completion]; decide
    | afterPolls n =>
      have lt := lt_of_completes completion (more (Nat.pos_of_ne_zero polled))
      obtain ⟨percent, below⟩ := pendingPercent_afterPolls completion lt
      rw [percent]
      exact Int.ofNat_lt.2 below

theorem level_le_succ (more : s.completes (p + 1) = false) : s.level p ≤ s.level (p + 1) := by
  unfold level
  rw [if_neg (Nat.succ_ne_zero p)]
  cases completion : s.completion with
  | never =>
    simp only [pendingPercent_never completion]
    split <;> decide
  | afterPolls n =>
    have lt := lt_of_completes completion more
    rw [(pendingPercent_afterPolls completion lt).1]
    split
    · exact Int.natCast_nonneg _
    · rw [(pendingPercent_afterPolls completion (Nat.lt_of_succ_lt lt)).1]
      exact Int.ofNat_le.2 (Nat.div_le_div_right (Nat.mul_le_mul_left 100 (Nat.le_succ p)))

end Script

section
variable {s : Script} {st : Store} {i : Nat} {t : Task}

theorem level_of_shown {p : Nat} {a : Int} (new : t.polls = 0)
    (zero : ∀ b ∈ t.operation.shown, b = 0)
    (shows : a ∈ (s.polled^[p] t).operation.shown) : a = s.level p := by
  cases p with
  | zero => exact zero a shows
  | succ p =>
    rw [shown_polledTimes, new, Nat.zero_add] at shows
    obtain ⟨b, -, same⟩ := Option.map_eq_some_iff.1 shows
    exact same.symm

end

/-- What holds of the operation `t` that has just begun at place `i`, whatever is done from then
on. -/
structure Script.Lives (s : Script) (st : Store) (i : Nat) (t : Task) : Prop where
  /-- Whoever asks for it is told how it stands from then on. -/
  told (ds : List Deed) : ∃ u, (s.run (ds ++ [.poll t.operation.name]) st).tasks[i]? = some u ∧
    (s.getOperation t.operation.name (s.run ds st)).result = .ok u.operation
  /-- It ends at the poll that the script names or with a cancel; before, it shows its part of the
  polls where it shows a percentage. -/
  afterPolls (n : Nat) (completion : s.completion = .afterPolls n) (ds : List Deed) :
    ∃ u, (s.run ds st).tasks[i]? = some u ∧
      (u.operation.done = true ↔
        max n 1 ≤ ds.count (.poll t.operation.name) ∨ s.Cancels t.operation.name ds) ∧
      (u.operation.done = false → 0 < ds.count (.poll t.operation.name) →
        u.operation.shown = t.operation.shown.map fun _ =>
          ((100 * ds.count (.poll t.operation.name) / n : Nat) : Int))
  /-- Where the script names no poll, only a cancel ends it. -/
  never (completion : s.completion = .never) (ds : List Deed) :
    ∃ u, (s.run ds st).tasks[i]? = some u ∧
      (u.operation.done = true ↔ s.Cancels t.operation.name ds)

/-- What holds besides of the operation `t` of a request that has just begun to make `x`. -/
structure Script.Fulfils (s : Script) (st : Store) (i : Nat) (t : Task) (x : Target) : Prop where
  /-- A percentage that is shown does not fall. -/
  rises (ds ds' : List Deed) : ∃ u v, (s.run ds st).tasks[i]? = some u ∧
    (s.run (ds ++ ds') st).tasks[i]? = some v ∧
    ∀ a ∈ u.operation.shown, ∃ b ∈ v.operation.shown, a ≤ b
  /-- While it is under way it shows less than a hundred. -/
  below (ds : List Deed) (u : Task) (at_u : (s.run ds st).tasks[i]? = some u)
    (pending : u.operation.done = false) : ∀ a ∈ u.operation.shown, a < 100
  /-- A poll that ends it as it should answers with what was made, if that is still there. -/
  succeeds (fine : s.failure = none) (ds : List Deed) (u v : Task)
    (at_u : (s.run ds st).tasks[i]? = some u) (pending : u.operation.done = false)
    (at_v : (s.run (ds ++ [.poll t.operation.name]) st).tasks[i]? = some v)
    (done : v.operation.done = true) :
    v.operation.error = none ∧ v.operation.shown = u.operation.shown.map (fun _ => 100) ∧
      v.operation.response = (s.run (ds ++ [.poll t.operation.name]) st).describe x ∧
      (v.operation.response.isSome ↔ ((s.run ds st).describe x).isSome)
  /-- A poll that ends it with the failure of the script leaves nothing of what it was making. -/
  fails (e : OperationError) (fault : s.failure = some e) (ds : List Deed) (u v : Task)
    (at_u : (s.run ds st).tasks[i]? = some u) (pending : u.operation.done = false)
    (at_v : (s.run (ds ++ [.poll t.operation.name]) st).tasks[i]? = some v)
    (done : v.operation.done = true) :
    v.operation.error = some e ∧ v.operation.response = none ∧
      (s.run (ds ++ [.poll t.operation.name]) st).describe x = none

namespace Script.Begun
variable {s : Script} {st : Store} {i : Nat} {t u v : Task} {x : Target} {ds : List Deed} {d : Deed}

theorem lives (h : s.Begun st i t) : s.Lives st i t where
  told ds := by
    obtain ⟨u, at_u, name⟩ := h.exists_at ds
    have found := find?_of_apart (h.reachable.run ds).names_nodup at_u
    rw [name] at found
    obtain ⟨v, st', asked, -, -, at_v, -⟩ := getOperation_found (s := s) found
    refine ⟨v, ?_, by rw [asked]⟩
    rw [s.run_concat]
    exact (congrArg (·.state.tasks[i]?) asked).trans at_v
  afterPolls n completion ds := by
    have past : s.Over t.operation.name ds ↔
        max n 1 ≤ ds.count (.poll t.operation.name) ∨ s.Cancels t.operation.name ds := by
      simp only [Over, completes, completion, decide_eq_true_eq]
      exact or_congr_left (by omega)
    obtain ⟨u, at_u, -⟩ := h.exists_at ds
    refine ⟨u, at_u, (h.done_iff at_u).trans past, fun pending polled => ?_⟩
    obtain ⟨same, more⟩ := h.eq_polled at_u pending
    obtain ⟨p, count⟩ := Nat.exists_eq_succ_of_ne_zero (Nat.ne_of_gt polled)
    have lt : p + 1 < n := by
      have short : ¬ max n 1 ≤ _ := fun late => more (past.2 (.inl late))
      omega
    rw [same, count, shown_polledTimes, h.new, Nat.zero_add,
      (pendingPercent_afterPolls completion lt).1]
  never completion ds := by
    have past : s.Over t.operation.name ds ↔ s.Cancels t.operation.name ds := by
      simp [Over, completes, completion]
    obtain ⟨u, at_u, -⟩ := h.exists_at ds
    exact ⟨u, at_u, (h.done_iff at_u).trans past⟩

/-- An operation under way that showed zero at first shows what belongs to its polls. -/
theorem level (h : s.Begun st i t) (zero : ∀ a ∈ t.operation.shown, a = 0)
    (at_u : (s.run ds st).tasks[i]? = some u) (pending : u.operation.done = false) :
    (∀ a ∈ u.operation.shown, a = s.level u.polls) ∧ s.level u.polls < 100 := by
  obtain ⟨same, more⟩ := h.eq_polled at_u pending
  obtain ⟨polls, -⟩ := polledTimes s t (ds.count (.poll t.operation.name))
  rw [← same, h.new, Nat.zero_add] at polls
  refine ⟨fun a shows => ?_, level_lt fun polled => ?_⟩
  · rw [same] at shows
    exact polls ▸ level_of_shown h.new zero shows
  · rw [polls] at polled ⊢
    exact Bool.eq_false_iff.2 fun last => more (.inl ⟨polled, last⟩)

/-- By one deed the percentage that is shown does not fall. -/
theorem rises_step (h : s.Begun st i t) (zero : ∀ a ∈ t.operation.shown, a = 0)
    (at_u : (s.run ds st).tasks[i]? = some u) :
    ∃ v, (s.run (ds ++ [d]) st).tasks[i]? = some v ∧
      ∀ a ∈ u.operation.shown, ∃ b ∈ v.operation.shown, a ≤ b := by
  rw [s.run_concat]
  cases done : u.operation.done with
  | true =>
    obtain ⟨v, at_v, continues⟩ := (s.advances_doing d (s.run ds st)).keeps i u at_u
    obtain rfl := continues.ended done
    exact ⟨v, at_v, fun a shows => ⟨a, shows, Int.le_refl a⟩⟩
  | false =>
    obtain ⟨level, small⟩ := h.level zero at_u done
    obtain ⟨v, at_v, alters⟩ := exists_alters (h.reachable.run ds).names_nodup at_u done d
    refine ⟨v, at_v, fun a shows => ?_⟩
    obtain rfl := level a shows
    have replaced {n : Int} (higher : s.level u.polls ≤ n)
        (same : v.operation.shown = u.operation.shown.map fun _ => n) :
        ∃ b ∈ v.operation.shown, s.level u.polls ≤ b :=
      ⟨n, same ▸ Option.map_eq_some_iff.2 ⟨_, shows, rfl⟩, higher⟩
    cases alters with
    | kept | ignored | failed => exact ⟨_, shows, Int.le_refl _⟩
    | cancelled => exact ⟨_, (shown_cancelled u.operation s).symm ▸ shows, Int.le_refl _⟩
    | polled more =>
      have higher := level_le_succ more
      exact replaced higher (shown_setPercent ..)
    | succeeded last fine same => exact replaced (Int.le_of_lt small) (shown_succeeded same _)

/-- A poll that ends an operation is its last, with the failure of the script or without. -/
theorem ended_by_poll (h : s.Begun st i t) (at_u : (s.run ds st).tasks[i]? = some u)
    (pending : u.operation.done = false)
    (at_v : (s.run (ds ++ [.poll t.operation.name]) st).tasks[i]? = some v)
    (done : v.operation.done = true) :
    (∃ e, s.failure = some e ∧ v = failed e u ∧ ∀ x, t.effect.target = some x →
      (s.run (ds ++ [.poll t.operation.name]) st).describe x = none) ∨
    ∃ o response, s.failure = none ∧ v = succeeded response { u with operation := o } ∧
      (o = u.operation ∨ ∃ name, o = withOptimize name u.operation) ∧
      ∀ x, t.effect.target = some x →
        response = (s.run (ds ++ [.poll t.operation.name]) st).describe x ∧
          (response.isSome ↔ ((s.run ds st).describe x).isSome) := by
  obtain ⟨u', at_u', continues⟩ := (s.advances_run ds st).keeps i t h.here
  obtain rfl : u' = u := Option.some.inj (at_u'.symm.trans at_u)
  rw [s.run_concat] at at_v ⊢
  rw [← continues.name] at at_v ⊢
  obtain ⟨v', at_v', alters⟩ := exists_alters (h.reachable.run ds).names_nodup at_u pending
    (.poll u'.operation.name)
  obtain rfl : v' = v := Option.some.inj (at_v'.symm.trans at_v)
  rw [← continues.effect]
  cases alters with
  | kept not_polled => exact absurd rfl not_polled
  | polled =>
    rw [show (s.polled u').operation.done = u'.operation.done from rfl, pending] at done
    contradiction
  | failed last fault gone => exact .inl ⟨_, fault, rfl, gone⟩
  | succeeded last fine same told => exact .inr ⟨_, _, fine, rfl, same, told⟩

theorem fulfils (h : s.Begun st i t) (aim : t.effect.target = some x)
    (zero : ∀ a ∈ t.operation.shown, a = 0) : s.Fulfils st i t x where
  rises ds ds' := by
    induction ds' using List.reverseRecOn with
    | nil =>
      obtain ⟨u, at_u, -⟩ := h.exists_at ds
      exact ⟨u, u, at_u, (List.append_nil ds).symm ▸ at_u, fun a shows => ⟨a, shows, Int.le_refl a⟩⟩
    | append_singleton ds' d ih =>
      obtain ⟨u, v, at_u, at_v, rises⟩ := ih
      obtain ⟨w, at_w, rises'⟩ := h.rises_step (d := d) zero at_v
      rw [List.append_assoc] at at_w
      refine ⟨u, w, at_u, at_w, fun a shows => ?_⟩
      obtain ⟨b, shows_b, le⟩ := rises a shows
      obtain ⟨c, shows_c, le'⟩ := rises' b shows_b
      exact ⟨c, shows_c, Int.le_trans le le'⟩
  below ds u at_u pending a shows := by
    obtain ⟨level, small⟩ := h.level zero at_u pending
    exact level a shows ▸ small
  succeeds fine ds u v at_u pending at_v done := by
    have clean := ((h.reachable.run ds).sound at_u).clean pending
    rcases h.ended_by_poll at_u pending at_v done with ⟨e, fault, -⟩ | ⟨o, response, -, ended⟩
    · rw [fine] at fault
      contradiction
    · obtain ⟨rfl, same, told⟩ := ended
      refine ⟨?_, shown_succeeded same response, told x aim⟩
      obtain rfl | ⟨name, rfl⟩ := same <;> exact clean.1
  fails e fault ds u v at_u pending at_v done := by
    have clean := ((h.reachable.run ds).sound at_u).clean pending
    rcases h.ended_by_poll at_u pending at_v done with ⟨e', fault', rfl, gone⟩ | ⟨-, -, fine, -⟩
    · obtain rfl : e' = e := Option.some.inj (fault'.symm.trans fault)
      exact ⟨rfl, clean.2, gone x aim⟩
    · rw [fine] at fault
      contradiction

end Script.Begun

section
variable {s : Script} {st : Store} {place : Instance} {r : Request} {o : Operation}

/-- An operation that a request starts shows zero at first, where it shows a percentage. -/
theorem submit_shown (accepted : (s.submit place r st).result = .ok o) :
    ∀ a ∈ o.shown, a = 0 := by
  obtain ⟨st', accepted⟩ := Script.exists_of_reply accepted
  cases r with
  | createBackup id database expire version encryption =>
    obtain ⟨-, -, -, begun⟩ := Script.createBackup_ok accepted
    obtain rfl := congrArg (·.1) begun
    rintro a ⟨⟩
    rfl
  | copyBackup id source expire encryption =>
    obtain ⟨src, -, -, -, -, begun⟩ := Script.copyBackup_ok accepted
    obtain rfl := congrArg (·.1) begun
    rintro a ⟨⟩
    rfl
  | restoreDatabase id backup encryption =>
    obtain ⟨b, -, -, begun⟩ := Script.restoreDatabase_ok accepted
    obtain rfl := congrArg (·.1) begun
    rintro a ⟨⟩
    rfl
  | createDatabase statement extra =>
    obtain ⟨-, begun⟩ := Script.createDatabase_ok accepted
    obtain rfl := congrArg (·.1) begun
    rintro a ⟨⟩

/-- The operation that a request starts has just begun to make what was asked for. -/
theorem submit_begun (reachable : Reachable s st)
    (accepted : (s.submit place r st).result = .ok o) :
    ∃ t, t.operation = o ∧ t.effect.target = some (Script.made place r) ∧
      s.Begun (s.submit place r st).state st.tasks.length t := by
  have opens := opens_doing s st (.call (.submit place r))
  have reachable' : Reachable s (s.submit place r st).state := reachable.call (.submit place r)
  change st.Opens (s.submit place r st).state at opens
  rcases s.submit_starts place r st with ⟨e, refused⟩ | ⟨o', st', done, starts, -⟩
  · rw [refused] at accepted
    contradiction
  · rw [done] at accepted opens reachable' ⊢
    injection accepted with same
    obtain ⟨t, tasks, rfl, pending, targets, -⟩ := starts.task
    have here : st'.tasks[st.tasks.length]? = some t := by simp [tasks]
    exact ⟨t, same, targets.1, reachable', here, (opens _ t (Nat.le_refl _) here).1, pending⟩

/-- What is not done to an operation by its name leaves it as it is, and so does anything when it is
done. -/
theorem run_other {i : Nat} {t : Task} {ds : List Deed} (at_i : st.tasks[i]? = some t)
    (settled : t.operation.done = true ∨
      .poll t.operation.name ∉ ds ∧ .cancel t.operation.name ∉ ds) :
    (s.run ds st).tasks[i]? = some t := by
  rcases settled with done | ⟨not_polled, not_cancelled⟩
  · obtain ⟨u, at_u, continues⟩ := (s.advances_run ds st).keeps i t at_i
    rwa [continues.ended done] at at_u
  · induction ds generalizing st with
    | nil => exact at_i
    | cons d ds ih =>
      simp only [List.mem_cons, not_or] at not_polled not_cancelled
      exact ih (doing_other at_i (Ne.symm not_polled.1) (Ne.symm not_cancelled.1)) not_polled.2
        not_cancelled.2

/-- Whatever is done to a service, an operation that is done stays as it is, and one under way is
changed by its own polls and its own cancels only. Every operation that a deed has begun ends at the
poll that the script names or with a cancel that is honoured, and shows until then its part of the
polls. One that a request has started never shows less than before; when a poll ends it, it has no
error and a response that tells of what it made, or the failure of the script and nothing made. -/
theorem operations_live (s : Script) :
    (∀ (st : Store) (i : Nat) (t : Task) (ds : List Deed), st.tasks[i]? = some t →
      (t.operation.done = true ∨
        .poll t.operation.name ∉ ds ∧ .cancel t.operation.name ∉ ds) →
      (s.run ds st).tasks[i]? = some t) ∧
    (∀ (st : Store) (d : Deed) (i : Nat) (t : Task), Reachable s st → st.tasks.length ≤ i →
      (s.doing st d).tasks[i]? = some t → s.Lives (s.doing st d) i t) ∧
    ∀ (st : Store) (place : Instance) (r : Request) (o : Operation), Reachable s st →
      (s.submit place r st).result = .ok o →
      ∃ t, (s.submit place r st).state.tasks[st.tasks.length]? = some t ∧ t.operation = o ∧
        s.Fulfils (s.submit place r st).state st.tasks.length t (Script.made place r) := by
  refine ⟨fun st i t ds => run_other, fun st d i t reachable le at_i => ?_,
    fun st place r o reachable accepted => ?_⟩
  · obtain ⟨new, pending⟩ := opens_doing s st d i t le at_i
    exact Script.Begun.lives ⟨reachable.doing d, at_i, new, pending⟩
  · obtain ⟨t, rfl, aim, begun⟩ := submit_begun reachable accepted
    exact ⟨t, begun.here, rfl, begun.fulfils aim (submit_shown accepted)⟩

/-- Where operations end at their third poll, a backup's shows 66 percent after two, and is done
after three. -/
theorem operations_live_thirdPoll :
    let s : Script := { now := ⟨0, 0⟩, completion := .afterPolls 3 }
    let place : Instance := ⟨"p", "i"⟩
    let st := ({} : Store).insertDatabase s.now (place.databaseName "db1")
    let r : Request :=
      .createBackup "b1" (place.databaseName "db1") (s.now.plusDays 1) none none
    let name := place.backupName "b1" ++ "/operations/op-1"
    let st' := (s.submit place r st).state
    Reachable s st ∧
      (∃ u, (s.run [.poll name, .cancel "op", .poll name] st').tasks[0]? = some u ∧
        u.operation.done = false ∧ u.operation.shown = some 66) ∧
      ∃ v, (s.run [.poll name, .cancel "op", .poll name, .poll name] st').tasks[0]? = some v ∧
        v.operation.done = true ∧ v.operation.error = none ∧ v.operation.shown = some 100 := by
  intro s place st r name st'
  let o : Operation := { name, metadata := some (.createBackup (place.backupName "b1")
    (place.databaseName "db1") s.started none) }
  let ds : List Deed := [.poll name, .cancel "op", .poll name]
  have reachable : Reachable s st := .insertDatabase .new _
  have accepted : (s.submit place r st).result = .ok o := by decide +kernel
  obtain ⟨-, lives, fulfils⟩ := operations_live s
  obtain ⟨t, here, same, fulfils⟩ := fulfils st place r o reachable accepted
  have lives := lives st (.call (.submit place r)) 0 t reachable (Nat.le_refl _) here
  have called : t.operation.name = name := congrArg (·.name) same
  have two : ds.count (Deed.poll name) = 2 := by decide +kernel
  have three : (ds ++ [Deed.poll name]).count (.poll name) = 3 := by decide +kernel
  have others : ¬ s.Cancels name ds := fun cancels =>
    absurd cancels.2 (by decide +kernel : Deed.cancel name ∉ ds)
  obtain ⟨u, at_u, done_u, shows⟩ := lives.afterPolls 3 rfl ds
  obtain ⟨v, at_v, done_v, -⟩ := lives.afterPolls 3 rfl (ds ++ [.poll name])
  rw [called, two] at done_u shows
  rw [called, three] at done_v
  have pending : u.operation.done = false :=
    Bool.eq_false_iff.2 fun done => (done_u.1 done).elim (by decide) others
  have done : v.operation.done = true := done_v.2 (.inl (by decide))
  have shown : u.operation.shown = some 66 := by
    rw [shows pending (by decide), same]
    rfl
  obtain ⟨error, full, -⟩ := fulfils.succeeds rfl ds u v at_u pending (called.symm ▸ at_v) done
  exact ⟨reachable, ⟨u, at_u, pending, shown⟩, v, at_v, done, error, by rw [full, shown]; rfl⟩

end

end Memory
end BackupAdmin
