import BackupAdmin.Proofs.Exchange.Waiting
import BackupAdmin.Proofs.Memory.Steps

/-! Calls that are refused. Main statement: a service in memory that answers with an error has
counted what it counts, and is otherwise as it was before. -/
namespace BackupAdmin

namespace Memory

/-- The store after a call was counted, where calls of its kind are. -/
def Store.counted (st : Store) : Call → Store
  | .cancelOperation name => st.countCancel name
  | .getBackup name =>
    { st with backupReads := st.backupReads.insert name ((st.backupReads.get? name).getD 0 + 1) }
  | _ => st

section
variable {s : Script} {st : Store} {name : String} {e : AdminError}

/-- An operation that was begun has a name. -/
theorem begun_name_ne {o : Operation} {st' : Store} (begins : Script.Begins st o st') :
    o.name ≠ "" := by
  obtain ⟨st₁, resource, metadata, effect, -, -, begun⟩ := begins
  intro nameless
  have named : resource ++ "/operations/op-" ++ toString (st₁.nextId + 1) = "" :=
    (congrArg (·.1.name) begun).symm.trans nameless
  rw [String.append_eq_empty_iff, String.append_eq_empty_iff] at named
  exact absurd named.1.2 (by decide)

theorem submit_refused {i : Instance} {r : Request}
    (refused : (s.submit i r st).result = .error e) : (s.submit i r st).state = st := by
  rcases s.submit_begins i r st with ⟨e', same⟩ | ⟨o, st', accepted, -⟩
  · rw [same]
  · rw [accepted] at refused
    contradiction

theorem getOperation_refused (refused : (s.getOperation name st).result = .error e) :
    (s.getOperation name st).state = st := by
  cases found : st.find? name with
  | none => rw [Script.getOperation_none found]
  | some place =>
    obtain ⟨t, st', asked, -⟩ := Script.getOperation_found (s := s) found
    rw [asked] at refused
    contradiction

theorem cancelOperation_refused (refused : (s.cancelOperation name st).result = .error e) :
    (s.cancelOperation name st).state = st.countCancel name := by
  refine Script.state_cancelOperation fun i t found => ?_
  have found' : (st.countCancel name).find? name = some (i, t) := found
  refine Classical.byContradiction fun honoured => ?_
  simp only [not_or, Bool.not_eq_true] at honoured
  simp [Script.cancelOperation, found', honoured] at refused

/-- Where nothing is there is nothing to change. -/
theorem modify_absent {α : Type} {c : Catalog α} {k : String} (absent : c.get? k = none)
    (f : α → α) : c.modify k f = c := by
  refine Catalog.ext fun l => ?_
  rw [Catalog.get?_modify]
  split
  case isTrue same => rw [same, absent, Option.map_none]
  case isFalse => rfl

theorem countRead_absent (absent : st.backups.get? name = none) :
    s.countRead name st = st.counted (.getBackup name) := by
  unfold Script.countRead
  dsimp only
  split
  · rw [modify_absent absent]
    rfl
  · rfl

theorem getBackup_refused (refused : (s.getBackup name st).result = .error e) :
    (s.getBackup name st).state = st.counted (.getBackup name) := by
  unfold Script.getBackup at refused ⊢
  dsimp only at refused ⊢
  split at refused
  case h_1 b found => contradiction
  case h_2 missing =>
    have absent : st.backups.get? name = none := by
      unfold Script.countRead at missing
      dsimp only at missing
      split at missing
      · rw [Catalog.get?_modify, if_pos rfl] at missing
        exact Option.map_eq_none_iff.1 missing
      · exact missing
    exact countRead_absent absent

theorem updateExpireTime_refused {t : Instant}
    (refused : (updateExpireTime name t st).result = .error e) :
    (updateExpireTime name t st).state = st := by
  unfold updateExpireTime at refused ⊢
  split
  · rfl
  case h_2 b found =>
    split
    · rfl
    case isFalse in_time => simp [found, in_time] at refused

theorem deleteBackup_refused (refused : (deleteBackup name st).result = .error e) :
    (deleteBackup name st).state = st := by
  unfold deleteBackup at refused ⊢
  split
  · rfl
  case h_2 b found =>
    split
    case isTrue free => simp [found, free] at refused
    case isFalse => rfl

theorem dropDatabase_refused (refused : (dropDatabase name st).result = .error e) :
    (dropDatabase name st).state = st := by
  unfold dropDatabase at refused ⊢
  split
  case isTrue known => simp [known] at refused
  case isFalse => rfl

/-- A call that is refused is counted, and does nothing else. -/
theorem answer_refused {c : Call} (refused : ((service s).answer c st).result = .error e) :
    ((service s).answer c st).state = st.counted c := by
  cases c with
  | submit i r => exact submit_refused refused
  | getOperation name => exact getOperation_refused refused
  | cancelOperation name => exact cancelOperation_refused refused
  | listBackups i p | listOperations kind i p => rfl
  | getBackup name => exact getBackup_refused refused
  | updateExpireTime name t => exact updateExpireTime_refused refused
  | deleteBackup name => exact deleteBackup_refused refused
  | getDatabase name => exact getDatabase_state name st
  | dropDatabase name => exact dropDatabase_refused refused

/-- Counting a call touches no count but that of its own kind and name. -/
theorem counted_eq (st : Store) (c : Call) :
    ∃ cancels backupReads, st.counted c = { st with cancels, backupReads } ∧
      (∀ k, c ≠ .cancelOperation k → cancels.get? k = st.cancels.get? k) ∧
      ∀ k, c ≠ .getBackup k → backupReads.get? k = st.backupReads.get? k := by
  cases c with
  | cancelOperation name =>
    refine ⟨(st.countCancel name).cancels, st.backupReads, rfl, fun k ne => ?_, fun k ne => rfl⟩
    have other : k ≠ name := fun same => ne (same ▸ rfl)
    simp [Store.countCancel, other]
  | getBackup name =>
    refine ⟨st.cancels, (st.counted (.getBackup name)).backupReads, rfl, fun k ne => rfl,
      fun k ne => ?_⟩
    have other : k ≠ name := fun same => ne (same ▸ rfl)
    simp [Store.counted, other]
  | _ => exact ⟨st.cancels, st.backupReads, rfl, fun k ne => rfl, fun k ne => rfl⟩

/-- A client that could not start an operation has left the service as it was, and told nobody. -/
theorem submit_error_unchanged {c : Client Store} (service : c.service = Memory.service s)
    {i : Instance} {r : Request} {w w' : World Store}
    (run : (c.submit i r).run w = some (.error e, w')) :
    w'.service = w.service ∧ w'.events = w.events := by
  rcases Client.submit_error run with rfl | ⟨rfl, nameless⟩
  · exact ⟨rfl, rfl⟩
  have answer : c.service.answer (.submit i r) w.service = s.submit i r w.service := by
    rw [service]
    rfl
  rw [answer] at nameless ⊢
  refine ⟨?_, World.after_events ..⟩
  -- an operation of this service has a name, so the service has refused the request
  rcases s.submit_begins i r w.service with ⟨e', refused⟩ | ⟨o, st', accepted, begins⟩
  · rw [World.after_service, refused]
  · exact absurd (nameless o (by rw [accepted])) (begun_name_ne begins)

end

/-- A call that a service in memory answers with an error leaves the backups, the databases, the
operations and their numbers as they were; only a request to cancel and the reading of a backup are
counted. A client's request to start an operation ends, and when it ends with an error the service
is as before and no event was reported. -/
theorem refused_unchanged (s : Script) :
    (∀ (st : Store) (c : Call) (e : AdminError), ((service s).answer c st).result = .error e →
      ∃ cancels backupReads, ((service s).answer c st).state = { st with cancels, backupReads } ∧
        (∀ k, c ≠ .cancelOperation k → cancels.get? k = st.cancels.get? k) ∧
        ∀ k, c ≠ .getBackup k → backupReads.get? k = st.backupReads.get? k) ∧
    ∀ (c : Client Store) (i : Instance) (r : Request) (w : World Store), c.service = service s →
      ∃ result w', (c.submit i r).run w = some (result, w') ∧
        ∀ e, result = .error e → w'.service = w.service ∧ w'.events = w.events := by
  refine ⟨fun st c e refused => ?_, fun c i r w service => ?_⟩
  · rw [answer_refused refused]
    exact counted_eq st c
  · obtain ⟨log, result, w', run, -⟩ := c.submit_follows i r w
    refine ⟨result, w', run, fun e same => ?_⟩
    rw [same] at run
    exact submit_error_unchanged service run

/-- Cancelling an unknown operation is only counted; a backup whose id may not be used is not sent
to the service, and one of an unknown database is refused by it. -/
theorem refused_unchanged_unknown :
    let s : Script := { now := ⟨0, 0⟩ }
    let c : Client Store := { service := service s }
    let i : Instance := ⟨"p", "i"⟩
    let st := ({} : Store).insertDatabase s.now (i.databaseName "db1")
    let w : World Store := { service := st, start := s.now }
    (∃ cancels, ((service s).answer (.cancelOperation "op") st).state = { st with cancels }) ∧
      (∃ w', (c.submit i (.createBackup "b" (i.databaseName "db1") (s.now.plusDays 1) none
          none)).run w = some (.error (.invalidArgument
            "backup id 'b' must be between 2 and 60 characters"), w') ∧ w'.service = st) ∧
      ∃ w', (c.submit i (.createBackup "b1" "db2" (s.now.plusDays 1) none none)).run w =
          some (.error (.notFound "db2"), w') ∧ w'.service = st ∧ w'.events = [] := by
  intro s c i st w
  have unknown : ((service s).answer (.cancelOperation "op") st).result =
      .error (.notFound "op") := by decide +kernel
  obtain ⟨calls, submits⟩ := refused_unchanged s
  refine ⟨?_, ?_, ?_⟩
  · obtain ⟨cancels, backupReads, state, -, reads⟩ := calls st (.cancelOperation "op") _ unknown
    have same : backupReads = st.backupReads := Catalog.ext fun k => reads k (by simp)
    exact ⟨cancels, by rw [state, same]⟩
  · obtain ⟨result, w', run, unchanged⟩ := submits c i (.createBackup "b" (i.databaseName "db1")
      (s.now.plusDays 1) none none) w rfl
    have refused : ((c.submit i (.createBackup "b" (i.databaseName "db1") (s.now.plusDays 1) none
        none)).run w).map (·.1) = some (.error (.invalidArgument
          "backup id 'b' must be between 2 and 60 characters")) := by decide +kernel
    rw [run] at refused
    obtain rfl := Option.some.inj refused
    exact ⟨w', run, (unchanged _ rfl).1⟩
  · obtain ⟨result, w', run, unchanged⟩ :=
      submits c i (.createBackup "b1" "db2" (s.now.plusDays 1) none none) w rfl
    have refused : ((c.submit i (.createBackup "b1" "db2" (s.now.plusDays 1) none
        none)).run w).map (·.1) = some (.error (.notFound "db2")) := by decide +kernel
    rw [run] at refused
    obtain rfl := Option.some.inj refused
    exact ⟨w', run, unchanged _ rfl⟩

end Memory
end BackupAdmin
