import BackupAdmin.Memory.Service
import BackupAdmin.Proofs.Catalog
import BackupAdmin.Workflow.Basic
import Mathlib.Data.List.Range

/-! Extending the life of a backup again and again, on a service in memory. Main statement: each
extension succeeds where the one before it has ended, the life grows by as many days as asked for up
to the greatest time, and nothing else is changed. -/
namespace BackupAdmin

namespace Instant
variable {t u v : Instant} {max : Option Instant} {m n : Nat}

theorem before_iff : t.before u = true ↔
    t.seconds < u.seconds ∨ t.seconds = u.seconds ∧ t.nanos < u.nanos := by
  simp [before]

theorem before_trans (h : t.before u = true) (h' : u.before v = true) : t.before v = true := by
  rw [before_iff] at *
  omega

theorem before_asymm (h : t.before u = true) : u.before t = false := by
  rw [Bool.eq_false_iff, ne_eq, before_iff]
  rw [before_iff] at h
  omega

/-- The nanoseconds within a second, be that a leap second. -/
def fraction (t : Instant) : Nat := if t.nanos < second then t.nanos else t.nanos - second

/-- A point that is a second later or more lies in no leap second. -/
theorem plus_eq (t : Instant) {d : Duration} (long : second ≤ d) :
    t.plus d = ⟨t.seconds + ((t.fraction + d) / second : Nat), (t.fraction + d) % second⟩ := by
  unfold plus fraction
  split
  · rfl
  · rw [if_neg (by simp [Nat.not_lt.2 long])]

theorem plus_plus (t : Instant) {d d' : Duration} (long : second ≤ d) (long' : second ≤ d') :
    (t.plus d).plus d' = t.plus (d + d') := by
  have within : (t.plus d).fraction = (t.fraction + d) % second := by
    rw [plus_eq t long]
    exact if_pos (Nat.mod_lt _ (by decide))
  rw [plus_eq _ long', within, plus_eq t long, plus_eq t (Nat.le_add_right_of_le long), mk.injEq]
  simp only [second]
  omega

theorem second_le_ofDays (pos : 0 < n) : second ≤ Duration.ofDays n := by
  simp only [second, Duration.ofDays, Duration.ofSeconds]
  omega

theorem plusDays_plusDays (t : Instant) (pos : 0 < m) (pos' : 0 < n) :
    (t.plusDays m).plusDays n = t.plusDays (m + n) := by
  have sum : Duration.ofDays (m + n) = Duration.ofDays m + Duration.ofDays n := by
    simp only [Duration.ofDays, Duration.ofSeconds, Nat.add_mul]
  rw [plusDays, plusDays, plus_plus t (second_le_ofDays pos) (second_le_ofDays pos'), plusDays, sum]

theorem before_plusDays (t : Instant) (pos : 0 < n) : t.before (t.plusDays n) = true := by
  have long := second_le_ofDays pos
  rw [plusDays, plus_eq t long, before_iff]
  left
  simp only [second] at long ⊢
  omega

/-- The time some days after another one, but no later than the greatest one. -/
def extendedBy (t : Instant) (max : Option Instant) (days : Nat) : Instant :=
  let later := t.plusDays days
  (max.map later.earlier).getD later

/-- A time that was extended is extended by the sum of the days. -/
theorem extendedBy_extendedBy (t : Instant) (max : Option Instant) (pos : 0 < m) (pos' : 0 < n) :
    (t.extendedBy max m).extendedBy max n = t.extendedBy max (m + n) := by
  unfold extendedBy
  rw [← plusDays_plusDays t pos pos']
  cases max with
  | none => rfl
  | some max =>
    -- Where the greatest time is reached, it stays; a time before it is not cut short.
    change earlier ((earlier _ max).plusDays n) max = earlier _ max
    by_cases reached : max.before (t.plusDays m) = true
    · have stays := before_plusDays max pos'
      have later := before_trans reached (before_plusDays (t.plusDays m) pos')
      simp only [earlier, reached, stays, later, if_true]
    · simp only [earlier, reached, Bool.false_eq_true, if_false]

theorem extendedBy_not_late (t : Instant) (max : Option Instant) (n : Nat) :
    max.any (·.before (t.extendedBy max n)) = false := by
  cases max with
  | none => rfl
  | some max =>
    change max.before (earlier (t.plusDays n) max) = false
    unfold earlier
    split
    case isTrue => exact Bool.eq_false_iff.2 fun h => absurd h (by simp [before])
    case isFalse early => exact Bool.eq_false_iff.2 early

/-- A time that is not past the greatest one does not move back. -/
theorem extendedBy_not_before (within : ∀ greatest, max = some greatest → greatest.before t = false)
    (pos : 0 < n) : (t.extendedBy max n).before t = false := by
  have later := before_asymm (before_plusDays t pos)
  cases max with
  | none => exact later
  | some greatest =>
    change (earlier (t.plusDays n) greatest).before t = false
    unfold earlier
    split
    case isTrue => exact within greatest rfl
    case isFalse => exact later

/-- The expire time after a number of extensions. -/
def afterExtensions (t : Instant) (max : Option Instant) : Nat → Instant
  | 0 => t
  | n + 1 => t.extendedBy max (Workflow.extensionDays * (n + 1))

/-- A further extension ends where that number of them does. -/
theorem extended_afterExtensions (t : Instant) (max : Option Instant) (n : Nat) :
    Workflow.extended (t.afterExtensions max n) max = t.afterExtensions max (n + 1) := by
  cases n with
  | zero => rfl
  | succ n => exact extendedBy_extendedBy t max (by simp [Workflow.extensionDays]) (by decide)

/-- Extensions that begin by the greatest time do not go back. -/
theorem afterExtensions_not_before
    (within : ∀ greatest, max = some greatest → greatest.before t = false) (n : Nat) :
    (t.afterExtensions max (n + 1)).before (t.afterExtensions max n) = false := by
  have early : ∀ greatest, max = some greatest →
      greatest.before (t.afterExtensions max n) = false := by
    cases n with
    | zero => exact within
    | succ n =>
      rintro greatest rfl
      exact extendedBy_not_late t (some greatest) _
  rw [← extended_afterExtensions]
  exact extendedBy_not_before early (by decide)

end Instant

namespace Workflow
variable {σ : Type}

/-- Extensions of a backup's life one after the other, with their reports in this order. -/
def extensions (c : Client σ) (i : Instance) (id : String) : Nat → Session σ (List ExpireReport)
  | 0 => return []
  | n + 1 => do
    let reports ← extensions c i id n
    let report ← updateBackup c i id
    return reports ++ [report]

end Workflow

namespace Memory
open Workflow

/-- A backup as it is after so many reads of it in all. -/
def Script.asRead (s : Script) (reads : Nat) (b : Backup) : Backup :=
  { b with referencingDatabases :=
      if s.referencesClearAfter.any (· < reads) then [] else b.referencingDatabases }

/-- The store after `n` more reads of a backup, which then was given an expire time. -/
def Script.renewal (s : Script) (st : Store) (name : String) (b : Backup) (n : Nat)
    (t : Instant) : Store :=
  let reads := (st.backupReads.get? name).getD 0 + n
  { st with
    backups := st.backups.insert name { s.asRead reads b with expireTime := some t }
    backupReads := st.backupReads.insert name reads }

section
variable {s : Script} {st : Store} {name : String} {b : Backup} {t : Instant} {n : Nat}

/-- What one read has cleared is cleared by all later ones. -/
theorem asRead_asRead {reads more : Nat} (le : reads ≤ more) (b : Backup) (t : Instant) :
    s.asRead more { s.asRead reads b with expireTime := some t } =
      { s.asRead more b with expireTime := some t } := by
  unfold Script.asRead
  cases cleared : s.referencesClearAfter.any (· < reads) with
  | false => rfl
  | true =>
    have later : s.referencesClearAfter.any (· < more) = true := by
      obtain ⟨limit, clears, lt⟩ := (Option.any_eq_true ..).1 cleared
      exact (Option.any_eq_true ..).2 ⟨limit, clears,
        decide_eq_true (Nat.lt_of_lt_of_le (of_decide_eq_true lt) le)⟩
    simp only [later, if_true]

theorem get?_renewal (s : Script) (st : Store) (name : String) (b : Backup) (n : Nat)
    (t : Instant) : (s.renewal st name b n t).backups.get? name =
      some { s.asRead ((st.backupReads.get? name).getD 0 + n) b with expireTime := some t } := by
  rw [Script.renewal, Catalog.get?_insert, if_pos rfl]

/-- One more read of a backup that was given an expire time, and another such time. -/
theorem renewal_renewal (s : Script) (st : Store) (name : String) (b : Backup) (n : Nat)
    (t u : Instant) :
    s.renewal (s.renewal st name b n t) name
        { s.asRead ((st.backupReads.get? name).getD 0 + n) b with expireTime := some t } 1 u =
      s.renewal st name b (n + 1) u := by
  have counted : ((s.renewal st name b n t).backupReads.get? name).getD 0 + 1 =
      (st.backupReads.get? name).getD 0 + (n + 1) := by
    rw [Script.renewal, Catalog.get?_insert, if_pos rfl, Option.getD_some, Nat.add_assoc]
  rw [Script.renewal, counted, asRead_asRead (Nat.add_le_add_left (Nat.le_succ n) _)]
  simp only [Script.renewal, Catalog.insert_insert]

theorem countRead_found (found : st.backups.get? name = some b) :
    let reads := (st.backupReads.get? name).getD 0 + 1
    s.countRead name st = { st with
      backups := st.backups.insert name (s.asRead reads b)
      backupReads := st.backupReads.insert name reads } := by
  intro reads
  unfold Script.asRead
  cases cleared : s.referencesClearAfter.any (· < reads) with
  | false =>
    refine (if_neg (Bool.eq_false_iff.1 cleared)).trans ?_
    rw [if_neg Bool.false_ne_true, Catalog.insert_self found]
  | true =>
    refine (if_pos cleared).trans ?_
    rw [if_pos rfl, Catalog.modify_eq_insert found]

/-- A read of a backup that is there. -/
theorem getBackup_found (found : st.backups.get? name = some b) :
    let reads := (st.backupReads.get? name).getD 0 + 1
    s.getBackup name st = ⟨.ok (s.asRead reads b), { st with
      backups := st.backups.insert name (s.asRead reads b)
      backupReads := st.backupReads.insert name reads }, 0⟩ := by
  intro reads
  rw [Script.getBackup, countRead_found found, Catalog.get?_insert, if_pos rfl]

theorem updateExpireTime_found (found : st.backups.get? name = some b)
    (early : b.maxExpireTime.any (·.before t) = false) :
    updateExpireTime name t st = ⟨.ok { b with expireTime := some t }, { st with
      backups := st.backups.insert name { b with expireTime := some t } }, 0⟩ := by
  simp only [updateExpireTime, found, early, Bool.false_eq_true, if_false]

end

section
variable {s : Script} {c : Client Store} {i : Instance} {id : String} {w : World Store} {b : Backup}
  {t u : Instant}

/-- An extension of the life of a backup that is there and has an end. -/
theorem run_updateBackup (served : c.service = service s)
    (found : w.service.backups.get? (i.backupName id) = some b) (expires : b.expireTime = some t)
    (later : extended t b.maxExpireTime = u) :
    ∃ w', (updateBackup c i id).run w = some (.ok ⟨i.backupName id, t, u⟩, w') ∧
      w'.service = s.renewal w.service (i.backupName id) b 1 u := by
  subst later
  let name := i.backupName id
  let reads := (w.service.backupReads.get? name).getD 0 + 1
  let u := extended t b.maxExpireTime
  let b₁ : Backup := s.asRead reads b
  let b₂ : Backup := { b₁ with expireTime := some u }
  let st₁ : Store := { w.service with
    backups := w.service.backups.insert name b₁
    backupReads := w.service.backupReads.insert name reads }
  let st₂ : Store := { st₁ with backups := st₁.backups.insert name b₂ }
  have looks : c.service.answer (.getBackup name) w.service = ⟨.ok b₁, st₁, 0⟩ := by
    rw [served]
    exact getBackup_found found
  have updates : c.service.answer (.updateExpireTime name u) st₁ = ⟨.ok b₂, st₂, 0⟩ := by
    have there : st₁.backups.get? name = some b₁ := by rw [Catalog.get?_insert, if_pos rfl]
    rw [served]
    exact updateExpireTime_found there
      (Instant.extendedBy_not_late t b.maxExpireTime extensionDays)
  let w₁ := w.after (.getBackup name) (⟨.ok b₁, st₁, 0⟩ : Reply Store Backup)
  refine ⟨w₁.after (.updateExpireTime name u) (⟨.ok b₂, st₂, 0⟩ : Reply Store Backup), ?_, ?_⟩
  · have looked := Session.run_call c.service (.getBackup name) w
    have updated := Session.run_call c.service (.updateExpireTime name u) w₁
    rw [looks] at looked
    rw [World.after_service, updates] at updated
    refine (Session.run_bind_ok looked).trans ?_
    have expires : b₁.expireTime = some t := expires
    rw [expires]
    exact Session.run_bind_ok updated
  · rw [World.after_service]
    change { st₁ with backups := st₁.backups.insert name b₂ } = _
    rw [Catalog.insert_insert]
    rfl

/-- The reports of extensions of a life that ends at `t`, if that may last up to `max`. -/
def extensionReports (name : String) (t : Instant) (max : Option Instant) (n : Nat) :
    List ExpireReport :=
  (List.range n).map fun k => ⟨name, t.afterExtensions max k, t.afterExtensions max (k + 1)⟩

theorem run_extensions (served : c.service = service s)
    (found : w.service.backups.get? (i.backupName id) = some b) (expires : b.expireTime = some t)
    (n : Nat) :
    ∃ w', (extensions c i id (n + 1)).run w =
        some (.ok (extensionReports (i.backupName id) t b.maxExpireTime (n + 1)), w') ∧
      w'.service = s.renewal w.service (i.backupName id) b (n + 1)
        (t.afterExtensions b.maxExpireTime (n + 1)) := by
  -- The first extension is apart: only from then on the store is that of a renewal.
  induction n with
  | zero =>
    obtain ⟨w', ran, state⟩ := run_updateBackup served found expires rfl
    exact ⟨w', Session.run_bind_ok ran, state⟩
  | succ n ih =>
    obtain ⟨w₁, ran, state⟩ := ih
    have there := get?_renewal s w.service (i.backupName id) b (n + 1)
      (t.afterExtensions b.maxExpireTime (n + 1))
    rw [← state] at there
    obtain ⟨w', last, state'⟩ := run_updateBackup served there rfl
      (Instant.extended_afterExtensions t b.maxExpireTime (n + 1))
    refine ⟨w', ?_, ?_⟩
    · rw [extensionReports, List.range_succ, List.map_append]
      exact (Session.run_bind_ok ran).trans (Session.run_bind_ok last)
    · rw [state', state, renewal_renewal]

end

/-- A backup that is there and expires at `t` can be extended any number of times: all extensions
succeed, each starts where the one before has ended, and in the end the backup expires that many
times thirty days after `t`, or at its greatest time if that is earlier. No extension moves the time
back, unless it was past the greatest one. Nothing else is changed but the databases that a script
clears, and the number of reads. -/
theorem extensions_succeed {s : Script} {c : Client Store} {i : Instance} {id : String}
    {w : World Store} {b : Backup} {t : Instant} {n : Nat} (served : c.service = service s)
    (found : w.service.backups.get? (i.backupName id) = some b) (expires : b.expireTime = some t)
    (pos : 0 < n) :
    ∃ reports w', (extensions c i id n).run w = some (.ok reports, w') ∧
      reports.length = n ∧ (∀ r ∈ reports, r.name = i.backupName id) ∧
      reports.head?.map (·.oldExpireTime) = some t ∧
      reports.IsChain (fun r next => next.oldExpireTime = r.newExpireTime) ∧
      reports.getLast?.map (·.newExpireTime) = some (t.extendedBy b.maxExpireTime (30 * n)) ∧
      ((∀ greatest, b.maxExpireTime = some greatest → greatest.before t = false) →
        ∀ r ∈ reports, r.newExpireTime.before r.oldExpireTime = false) ∧
      w'.service = s.renewal w.service (i.backupName id) b n
        (t.extendedBy b.maxExpireTime (30 * n)) := by
  obtain ⟨n, rfl⟩ := Nat.exists_eq_add_one.2 pos
  obtain ⟨w', ran, state⟩ := run_extensions served found expires n
  refine ⟨_, w', ran, by simp [extensionReports], ?_, ?_, ?_, ?_, ?_, state⟩
  · intro r mem
    obtain ⟨k, -, rfl⟩ := List.mem_map.1 mem
    rfl
  · simp [extensionReports, List.range_succ_eq_map]
    rfl
  · exact List.isChain_map_of_isChain _ (fun k l (next : l = k + 1) => by rw [next])
      ((List.isChain_range_succ _ n).2 fun k _ => rfl)
  · simp [extensionReports, List.range_succ]
    rfl
  · intro within r mem
    obtain ⟨k, -, rfl⟩ := List.mem_map.1 mem
    exact Instant.afterExtensions_not_before within k

/-- A backup that may live for 45 days more, with a database that refers to it. -/
def dated (name : String) : Backup :=
  { name, expireTime := some ⟨0, 0⟩, maxExpireTime := some ((⟨0, 0⟩ : Instant).plusDays 45)
    state := .ready, referencingDatabases := ["db1"] }

/-- The greatest time comes before the end of the second extension, and with the second read of the
backup it is referred to no more. -/
theorem extensions_succeed_twice :
    let s : Script := { now := ⟨0, 0⟩, referencesClearAfter := some 1 }
    let c : Client Store := { service := service s }
    let i : Instance := ⟨"p", "i"⟩
    let b := dated (i.backupName "b1")
    let w : World Store := { service := ({} : Store).insertBackup b, start := ⟨0, 0⟩ }
    let greatest := (⟨0, 0⟩ : Instant).plusDays 45
    (c.service = service s ∧ w.service.backups.get? (i.backupName "b1") = some b ∧
      b.expireTime = some ⟨0, 0⟩) ∧
    ∃ first second w', (extensions c i "b1" 2).run w = some (.ok [first, second], w') ∧
      first.oldExpireTime = ⟨0, 0⟩ ∧ second.oldExpireTime = first.newExpireTime ∧
      second.newExpireTime = greatest ∧ w'.service.backups.get? (i.backupName "b1") =
        some { b with expireTime := some greatest, referencingDatabases := [] } := by
  intro s c i b w greatest
  have found : w.service.backups.get? (i.backupName "b1") = some b :=
    (Catalog.get?_insert ..).trans (if_pos rfl)
  obtain ⟨reports, w', ran, two, -, starts, chain, ends, -, state⟩ :=
    extensions_succeed (s := s) (c := c) (n := 2) rfl found rfl (by decide)
  obtain ⟨first, second, rfl⟩ := List.length_eq_two.1 two
  have reached : (⟨0, 0⟩ : Instant).extendedBy (some greatest) (30 * 2) = greatest := by decide
  refine ⟨⟨rfl, found, rfl⟩, first, second, w', ran, Option.some.inj starts, by simpa using chain,
    (Option.some.inj ends).trans reached, ?_⟩
  rw [state, get?_renewal]
  rfl

end Memory
end BackupAdmin
