import BackupAdmin.Admin.Waiting
import BackupAdmin.Proofs.Memory.Steps
import BackupAdmin.Proofs.Resource.Naming

/-! What a request makes, by its client and by a service in memory. Main statement: both mean the
same backup or database, but for a statement whose id has no space before it. -/
namespace BackupAdmin
open Text

namespace Request
variable {statement id : String}

/-- What stands in a statement behind the opening words. -/
def behindWords (statement : String) : List Char :=
  (trim statement.toList).drop createWords.length

/-- The last of the blanks between the opening words and the id is a space. -/
def SpaceBeforeId (statement : String) : Prop :=
  ((behindWords statement).takeWhile isBlank).getLast? = some ' '

instance : Decidable (SpaceBeforeId statement) := inferInstanceAs (Decidable (_ = _))

/-- Where a request has a statement, the id in it has a space before it. -/
def Spaced : Request → Prop
  | .createDatabase statement _ => SpaceBeforeId statement
  | _ => True

theorem trim_behindWords (statement : String) :
    trim (behindWords statement) = (behindWords statement).dropWhile isBlank := by
  refine dropEndWhile_eq_self fun c last => ?_
  obtain ⟨ds, ends⟩ : (behindWords statement).dropWhile isBlank <:+ trim statement.toList :=
    (List.dropWhile_suffix _).trans (List.drop_suffix ..)
  have last' : c ∈ (trimWhile isBlank statement.toList).getLast? := by
    change c ∈ (trim statement.toList).getLast?
    rw [← ends, List.getLast?_append, Option.mem_def.1 last]
    rfl
  exact getLast?_trimWhile last'

/-- A client finds the opening words, in large or small letters, and the id between back quotes. -/
theorem statementId?_eq_some (h : statementId? statement = some id) :
    ((trim statement.toList).take createWords.length).map Char.toLower = createWords ∧
      trimWhile (· = '`') ((behindWords statement).dropWhile isBlank) = id.toList ∧
      id.toList ≠ [] := by
  unfold statementId? at h
  dsimp only at h
  rw [← behindWords, trim_behindWords] at h
  split at h
  · rename_i words
    split at h
    · contradiction
    case isFalse some_left =>
      obtain rfl := Option.some.inj h
      have small : createWords.map Char.toLower = createWords := by decide
      rw [equalFold, small, beq_iff_eq] at words
      refine ⟨words, by rw [String.toList_ofList], ?_⟩
      rw [String.toList_ofList]
      simpa using some_left
  · contradiction

/-- What stands in a statement before the id and its back quotes. -/
def beforeId (statement : String) : List Char :=
  (trim statement.toList).take createWords.length ++ (behindWords statement).takeWhile isBlank

theorem beforeId_append (statement : String) :
    beforeId statement ++ (behindWords statement).dropWhile isBlank = trim statement.toList := by
  rw [beforeId, List.append_assoc, List.takeWhile_append_dropWhile]
  exact List.take_append_drop ..

section
variable (words : ((trim statement.toList).take createWords.length).map Char.toLower = createWords)
include words

theorem ne_quote_of_mem_beforeId {c : Char} (mem : c ∈ beforeId statement) : c ≠ '`' := by
  rintro rfl
  rcases List.mem_append.1 mem with word | blank
  · have small : '`'.toLower ∈ createWords := words ▸ List.mem_map_of_mem word
    exact absurd small (by decide)
  · have blank : isBlank '`' = true := List.all_eq_true.1 List.all_takeWhile _ blank
    exact absurd blank (by decide)

theorem lastPiece_beforeId :
    lastPiece ' ' (beforeId statement) = [] ↔ SpaceBeforeId statement := by
  obtain ⟨c, ends, small⟩ : ∃ c, ((trim statement.toList).take createWords.length).getLast? =
      some c ∧ c.toLower = 'e' := by
    have ends : createWords.getLast? = some 'e' := by decide
    rw [← words, List.getLast?_map] at ends
    exact Option.map_eq_some_iff.1 ends
  rw [lastPiece_eq_nil_iff, beforeId, List.getLast?_append, ends, SpaceBeforeId]
  cases ((behindWords statement).takeWhile isBlank).getLast? with
  | none =>
    -- the opening words themselves do not end with a space
    have letter : c ≠ ' ' := fun space => absurd (space ▸ small : ' '.toLower = 'e') (by decide)
    simp [letter]
  | some d => simp

end

/-- A request that is not refused has an id that may be used, also where a statement gives it. -/
theorem statementId?_of_check {now : Instant} {extra : List String} {u : Unit}
    (h : (createDatabase statement extra).check now = .ok u) :
    ∃ id, statementId? statement = some id ∧ idFault? id = none := by
  cases found : statementId? statement with
  | none => simp [check, found, checkId, idFault?] at h
  | some id =>
    refine ⟨id, rfl, ?_⟩
    simp only [check, found, Option.getD_some, checkId] at h
    split at h
    case h_1 usable => exact usable
    · contradiction

end Request

/-- A request is sent only when it is not refused before. -/
theorem Client.check_of_submit {σ : Type} {c : Client σ} {i : Instance} {r : Request} {h : Handle}
    {w w' : World σ} (run : (c.submit i r).run w = some (.ok h, w')) : r.check w.now = .ok () := by
  obtain ⟨now, w₁, asked, run⟩ := Session.exists_of_run_bind run
  obtain ⟨u, w₂, checked, -⟩ := Session.exists_of_run_bind run
  cases asked
  injection checked with checked
  exact congrArg (·.1) checked

namespace Memory
open Request
variable {statement id : String}

/-- The last word of a statement is the id that a client reads in it when a space stands before. -/
theorem lastWord_eq_iff (h : statementId? statement = some id) (usable : idFault? id = none) :
    Script.lastWord statement = id ↔ SpaceBeforeId statement := by
  obtain ⟨words, quoted, -⟩ := statementId?_eq_some h
  have one_word : ' ' ∉ (behindWords statement).dropWhile isBlank := fun mem => by
    rcases mem_trimWhile (p := (· = '`')) mem with quote | inside
    · exact absurd quote (by decide)
    · exact notMem_of_idFault? usable (by decide : isIdPart ' ' = false) (quoted ▸ inside)
  have last_word : (Script.lastWord statement).toList = trimWhile (· = '`')
      (lastPiece ' ' (beforeId statement) ++ (behindWords statement).dropWhile isBlank) := by
    rw [Script.lastWord, ← beforeId_append, lastPiece_append_of_notMem _ one_word,
      String.toList_ofList]
  rw [← lastPiece_beforeId words, ← String.toList_inj, last_word]
  by_cases none_before : lastPiece ' ' (beforeId statement) = []
  · simp [none_before, quoted]
  · -- what stands before the id stays, as it does not begin with a back quote
    have first : ∀ c ∈ (lastPiece ' ' (beforeId statement)).head?, decide (c = '`') = false :=
      fun c mem => decide_eq_false
        (ne_quote_of_mem_beforeId words (mem_of_mem_lastPiece (List.mem_of_mem_head? mem)))
    have some_left : trimWhile (· = '`') ((behindWords statement).dropWhile isBlank) ≠ [] := by
      rw [quoted]
      exact (statementId?_eq_some h).2.2
    rw [trimWhile_append none_before first some_left, quoted, List.append_left_eq_self]
    simp [none_before]

section
variable {s : Script} {st : Store} {i : Instance} {r : Request} {o : Operation}

/-- A request that is accepted puts in place, unfinished, what its operation says it makes. -/
theorem submit_made (accepted : (s.submit i r st).result = .ok o) :
    o.metadata.bind (·.resourceName) = some (Script.made i r).name ∧
      (s.submit i r st).state.Creating (Script.made i r) := by
  rcases s.submit_starts i r st with ⟨e, refused⟩ | ⟨o', st', done, starts, creating⟩
  · rw [refused] at accepted
    contradiction
  · rw [done] at accepted ⊢
    injection accepted with same
    obtain ⟨t, -, rfl, -, targets, -⟩ := starts.task
    exact ⟨same ▸ targets.2, creating⟩

theorem databaseName_inj {id id' : String} :
    i.databaseName id = i.databaseName id' ↔ id = id' := by
  rw [Instance.databaseName, Instance.databaseName, String.append_right_inj]

/-- A client and a service take a request for the same backup or database, but for a statement
whose id has no space before it. -/
theorem target_eq_made_iff {now : Instant} {u : Unit} {name : String}
    (sent : r.check now = .ok u) (target : r.target i = .ok name) :
    name = (Script.made i r).name ↔ r.Spaced := by
  cases r with
  | createBackup | copyBackup | restoreDatabase =>
    injection target with same
    exact iff_of_true same.symm trivial
  | createDatabase statement extra =>
    obtain ⟨id, found, usable⟩ := statementId?_of_check sent
    have same : i.databaseName id = name := by
      simpa only [Request.target, found, Except.ok.injEq] using target
    exact same ▸ databaseName_inj.trans (eq_comm.trans (lastWord_eq_iff found usable))

end

/-- What is made for a request that a client has sent and a service in memory has accepted: the
operation's metadata name it, and it is there under that name, unfinished. The handle names it too,
unless the request has a statement in which the id has no space before it; then the handle names
another database. -/
theorem submit_target {s : Script} {c : Client Store} (service : c.service = Memory.service s)
    {i : Instance} {r : Request} {h : Handle} {w w' : World Store}
    (run : (c.submit i r).run w = some (.ok h, w')) :
    ∃ o, (s.submit i r w.service).result = .ok o ∧ h.name = o.name ∧
      o.metadata.bind (·.resourceName) = some (Script.made i r).name ∧
      w'.service.Creating (Script.made i r) ∧
      (h.target = (Script.made i r).name ↔ r.Spaced) := by
  obtain ⟨o, target, named, answer, rfl⟩ := Client.submit_ok run
  rw [service] at answer
  obtain ⟨resource, creating⟩ := submit_made answer
  refine ⟨o, answer, named, resource, ?_, target_eq_made_iff (Client.check_of_submit run) target⟩
  rw [World.emit_service, World.after_service, service]
  exact creating

/-- Large and small letters, more than one space and back quotes make no difference. -/
theorem submit_target_quoted :
    let s : Script := { now := ⟨0, 0⟩ }
    let c : Client Store := { service := service s }
    let i : Instance := ⟨"p", "i"⟩
    let r : Request := .createDatabase "create Database  `db1` " []
    let w : World Store := { service := {}, start := s.now }
    c.service = service s ∧ ∃ h w', (c.submit i r).run w = some (.ok h, w') ∧
      h.target = i.databaseName "db1" ∧ w'.service.Creating (.database h.target) := by
  intro s c i r w
  let h : Handle :=
    ⟨i.databaseName "db1" ++ "/operations/op-1", .createDatabase, i.databaseName "db1"⟩
  obtain ⟨⟨result, w'⟩, run, rfl⟩ : ∃ e, (c.submit i r).run w = some e ∧ e.1 = .ok h :=
    Option.map_eq_some_iff.1 (by decide +kernel)
  obtain ⟨o, -, -, -, creating, same⟩ := submit_target rfl run
  have spaced : SpaceBeforeId "create Database  `db1` " := by decide +kernel
  refine ⟨rfl, h, w', run, rfl, ?_⟩
  rw [same.2 spaced]
  exact creating

/-- Behind a tab the client finds an id, and the service has all of the second word as the id: the
database that the handle names is not there. -/
theorem submit_target_tab :
    let s : Script := { now := ⟨0, 0⟩ }
    let c : Client Store := { service := service s }
    let i : Instance := ⟨"p", "i"⟩
    let r : Request := .createDatabase "CREATE DATABASE\tdb1" []
    let w : World Store := { service := {}, start := s.now }
    ∃ h w' o, (c.submit i r).run w = some (.ok h, w') ∧ (s.submit i r w.service).result = .ok o ∧
      h.target = i.databaseName "db1" ∧
      o.metadata.bind (·.resourceName) = some (i.databaseName "DATABASE\tdb1") ∧
      w'.service.databases.get? h.target = none := by
  intro s c i r w
  let h : Handle :=
    ⟨i.databaseName "DATABASE\tdb1" ++ "/operations/op-1", .createDatabase, i.databaseName "db1"⟩
  let o : Operation :=
    { name := h.name, metadata := some (.createDatabase (i.databaseName "DATABASE\tdb1")) }
  have ended : ((c.submit i r).run w).map (fun e => (e.1, e.2.service.databases.get? h.target)) =
      some (.ok h, none) := by decide +kernel
  obtain ⟨⟨result, w'⟩, run, same⟩ := Option.map_eq_some_iff.1 ended
  obtain ⟨rfl, absent⟩ := Prod.mk.inj same
  have answer : (s.submit i r w.service).result = .ok o := by decide +kernel
  exact ⟨h, w', o, run, answer, rfl, rfl, absent⟩

end Memory
end BackupAdmin
