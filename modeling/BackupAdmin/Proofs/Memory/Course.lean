import BackupAdmin.Proofs.Memory.Numbering

/-! The course of the operations of a service in memory, from call to call. Main statement: every
operation keeps its place, its name, what it works on and what its end brings about, and one that
is done stays as it is. -/
namespace BackupAdmin.Memory

/-- A backup or a database that an operation may be making. -/
inductive Target where
  | backup (name : String)
  | database (name : String)
deriving DecidableEq

def Target.name : Target → String
  | .backup name | .database name => name

/-- What is made when the operation comes to its end. -/
def Effect.target : Effect → Option Target
  | .backup name _ => some (.backup name)
  | .restore database _ | .createDatabase database => some (.database database)
  | .nothing => none

namespace Task

/-- The backup or database that the operation says it works on. -/
def resource (t : Task) : Option String := t.operation.metadata.bind (·.resourceName)

/-- The operation is called after what it works on, with one more part behind. -/
def Named (t : Task) : Prop :=
  ∃ resource part : String, t.resource = some resource ∧
    t.operation.name = resource ++ "/operations/" ++ part ∧ part ≠ "" ∧ '/' ∉ part.toList

/-- The operation makes what it says it works on. -/
def Targets (t : Task) (x : Target) : Prop :=
  t.effect.target = some x ∧ t.resource = some x.name

/-- What holds of an operation all the time. -/
structure Sound (t : Task) : Prop where
  named : t.Named
  clean : t.operation.done = false → t.operation.error = none ∧ t.operation.response = none
  targets : ∀ x, t.effect.target = some x → t.resource = some x.name

/-- An operation and what it has become some calls later. -/
structure Continues (t t' : Task) : Prop where
  name : t'.operation.name = t.operation.name
  resource : t'.resource = t.resource
  effect : t'.effect = t.effect
  ended : t.operation.done = true → t' = t
  pending : t'.operation.done = false →
    t'.operation.error = t.operation.error ∧ t'.operation.response = t.operation.response

section
variable {t t' t'' : Task}

theorem Continues.refl (t : Task) : t.Continues t :=
  ⟨rfl, rfl, rfl, fun _ => rfl, fun _ => ⟨rfl, rfl⟩⟩

/-- An operation that is under way was so before. -/
theorem Continues.done_eq_false (h : t.Continues t') (pending : t'.operation.done = false) :
    t.operation.done = false := by
  cases done : t.operation.done with
  | false => rfl
  | true => rw [h.ended done, done] at pending; contradiction

theorem Continues.trans (h : t.Continues t') (h' : t'.Continues t'') : t.Continues t'' where
  name := h'.name.trans h.name
  resource := h'.resource.trans h.resource
  effect := h'.effect.trans h.effect
  ended done := by
    have same := h.ended done
    rw [h'.ended (same ▸ done), same]
  pending pending := by
    obtain ⟨error, response⟩ := h'.pending pending
    obtain ⟨error', response'⟩ := h.pending (h'.done_eq_false pending)
    exact ⟨error.trans error', response.trans response'⟩

theorem Continues.sound (h : t.Continues t') (sound : t.Sound) : t'.Sound where
  named := by
    obtain ⟨resource, part, works_on, name, rest⟩ := sound.named
    exact ⟨resource, part, h.resource.trans works_on, h.name.trans name, rest⟩
  clean pending := by
    obtain ⟨error, response⟩ := h.pending pending
    rw [error, response]
    exact sound.clean (h.done_eq_false pending)
  targets x aim := h.resource.trans (sound.targets x (h.effect ▸ aim))

/-- An operation under way comes to its end. -/
theorem Continues.of_ended (pending : t.operation.done = false)
    (done : t'.operation.done = true) (name : t'.operation.name = t.operation.name)
    (resource : t'.resource = t.resource) (effect : t'.effect = t.effect) : t.Continues t' where
  name := name
  resource := resource
  effect := effect
  ended done := by rw [pending] at done; contradiction
  pending pending := by rw [done] at pending; contradiction

/-- An operation under way goes on. -/
theorem Continues.of_pending (pending : t.operation.done = false)
    (name : t'.operation.name = t.operation.name) (resource : t'.resource = t.resource)
    (effect : t'.effect = t.effect)
    (same : t'.operation.error = t.operation.error ∧
      t'.operation.response = t.operation.response) : t.Continues t' where
  name := name
  resource := resource
  effect := effect
  ended done := by rw [pending] at done; contradiction
  pending _ := same

end

end Task

section
variable (o : Operation)

theorem resourceName_withPercent (n : Int32) (m : Metadata) :
    (m.withPercent n).resourceName = m.resourceName := by
  cases m <;> rfl

theorem resourceName_withCancelTime (now : Instant) (m : Metadata) :
    (Script.withCancelTime now m).resourceName = m.resourceName := by
  cases m <;> rfl

theorem resource_setPercent (n : Int32) :
    (setPercent n o).metadata.bind (·.resourceName) = o.metadata.bind (·.resourceName) := by
  cases metadata : o.metadata <;> simp [setPercent, metadata, resourceName_withPercent]

theorem resource_withOptimize (name : String) :
    (Script.withOptimize name o).metadata.bind (·.resourceName) =
      o.metadata.bind (·.resourceName) := by
  cases metadata : o.metadata with
  | none => simp [Script.withOptimize, metadata]
  | some m => cases m <;> simp [Script.withOptimize, metadata, Metadata.resourceName]

theorem resource_cancelled (s : Script) :
    (s.cancelled o).metadata.bind (·.resourceName) = o.metadata.bind (·.resourceName) := by
  cases metadata : o.metadata <;> simp [Script.cancelled, metadata, resourceName_withCancelTime]

end

namespace Store

/-- From one store to another the operations continue at their places, and sound ones come behind
them. -/
structure Advances (st st' : Store) : Prop where
  keeps : ∀ (j : Nat) (t : Task), st.tasks[j]? = some t →
    ∃ t', st'.tasks[j]? = some t' ∧ t.Continues t'
  adds : ∀ (j : Nat) (t' : Task), st.tasks.length ≤ j → st'.tasks[j]? = some t' → t'.Sound

section
variable {st st' st'' : Store} {name : String} {i : Nat} {t : Task}

/-- An operation is found where it is the first of its name. -/
theorem find?_eq_some_iff : st.find? name = some (i, t) ↔
    st.tasks[i]? = some t ∧ t.operation.name = name ∧
      ∀ (j : Nat) (u : Task), j < i → st.tasks[j]? = some u → u.operation.name ≠ name := by
  unfold find?
  constructor
  · intro found
    split at found
    case h_2 => contradiction
    case h_1 k first =>
      obtain ⟨t', at_k, same⟩ := Option.map_eq_some_iff.1 found
      obtain ⟨rfl, rfl⟩ := Prod.mk.inj same
      obtain ⟨lt, named, before⟩ := List.findIdx?_eq_some_iff_getElem.1 first
      have at_eq := (List.getElem?_eq_some_iff.1 at_k).2
      refine ⟨at_k, by simpa [at_eq] using named, fun j u lt at_j => ?_⟩
      obtain ⟨-, rfl⟩ := List.getElem?_eq_some_iff.1 at_j
      simpa using before j lt
  · rintro ⟨at_i, named, before⟩
    obtain ⟨lt, at_eq⟩ := List.getElem?_eq_some_iff.1 at_i
    have first : st.tasks.findIdx? (·.operation.name = name) = some i := by
      refine List.findIdx?_eq_some_iff_getElem.2 ⟨lt, by simp [at_eq, named], fun j lt' => ?_⟩
      simpa using before j _ lt' (List.getElem?_eq_getElem (by omega))
    simp only [first, at_i, Option.map_some]

theorem Advances.of_tasks (same : st'.tasks = st.tasks) : st.Advances st' where
  keeps j t at_j := ⟨t, same ▸ at_j, .refl t⟩
  adds j t le at_j := by
    rw [same, List.getElem?_eq_none le] at at_j
    contradiction

theorem Advances.refl (st : Store) : st.Advances st := .of_tasks rfl

theorem Advances.trans (h : st.Advances st') (h' : st'.Advances st'') : st.Advances st'' where
  keeps j t at_j := by
    obtain ⟨t', at_j', continues⟩ := h.keeps j t at_j
    obtain ⟨t'', at_j'', continues'⟩ := h'.keeps j t' at_j'
    exact ⟨t'', at_j'', continues.trans continues'⟩
  adds j t'' le at_j := by
    cases at_j' : st'.tasks[j]? with
    | none => exact h'.adds j t'' (List.getElem?_eq_none_iff.1 at_j') at_j
    | some t' =>
      obtain ⟨u, at_u, continues⟩ := h'.keeps j t' at_j'
      obtain rfl : u = t'' := Option.some.inj (at_u.symm.trans at_j)
      exact continues.sound (h.adds j t' le at_j')

/-- An operation that is found stays the first of its name. -/
theorem Advances.find? (h : st.Advances st') (found : st.find? name = some (i, t)) :
    ∃ t', st'.find? name = some (i, t') ∧ t.Continues t' := by
  obtain ⟨at_i, named, before⟩ := find?_eq_some_iff.1 found
  obtain ⟨t', at_i', continues⟩ := h.keeps i t at_i
  refine ⟨t', find?_eq_some_iff.2 ⟨at_i', continues.name.trans named, fun j u' lt at_j' => ?_⟩,
    continues⟩
  have there : j < st.tasks.length := Nat.lt_trans lt (List.getElem?_eq_some_iff.1 at_i).1
  obtain ⟨u, at_u, same⟩ := h.keeps j _ (List.getElem?_eq_getElem there)
  obtain rfl : u = u' := Option.some.inj (at_u.symm.trans at_j')
  rw [same.name]
  exact before j _ lt (List.getElem?_eq_getElem there)

/-- What stands at a place after the operation at one place has changed. -/
theorem getElem?_update (st : Store) (i j : Nat) (f : Task → Task) :
    (st.update i f).tasks[j]? = if i = j then st.tasks[j]?.map f else st.tasks[j]? := by
  rw [update, List.getElem?_modify]
  split
  · rfl
  · exact Option.map_id' ..

theorem Advances.update (at_i : st.tasks[i]? = some t) {f : Task → Task}
    (continues : t.Continues (f t)) : st.Advances (st.update i f) where
  keeps j u at_j := by
    rw [getElem?_update]
    split
    case isTrue same =>
      subst same
      obtain rfl : t = u := Option.some.inj (at_i.symm.trans at_j)
      exact ⟨f t, by rw [at_j, Option.map_some], continues⟩
    case isFalse => exact ⟨u, at_j, .refl u⟩
  adds j u le at_j := by
    have length : (st.update i f).tasks.length = st.tasks.length := List.length_modify ..
    rw [List.getElem?_eq_none (length ▸ le)] at at_j
    contradiction

theorem Advances.append (new : st'.tasks = st.tasks ++ [t]) (sound : t.Sound) :
    st.Advances st' where
  keeps j u at_j := by
    obtain ⟨lt, -⟩ := List.getElem?_eq_some_iff.1 at_j
    exact ⟨u, by rw [new, List.getElem?_append_left lt, at_j], .refl u⟩
  adds j u le at_j := by
    rw [new, List.getElem?_append_right le] at at_j
    obtain rfl : u = t := by simpa using List.mem_of_getElem? at_j
    exact sound

theorem removePending_tasks (st : Store) (e : Effect) : (st.removePending e).tasks = st.tasks := by
  cases e <;> rfl

/-- A name that begins with a number's word has nothing of a path in it. -/
theorem slash_notMem_numbered {word : String} (free : '/' ∉ word.toList) (n : Nat) :
    '/' ∉ (word ++ toString n).toList := by
  rw [String.toList_append, List.mem_append]
  rintro (mem | mem)
  · exact free mem
  · simpa using Nat.isDigit_of_mem_toDigits (by decide) (by decide)
      (show '/' ∈ Nat.toDigits 10 n by simpa using mem)

/-- An operation whose name was made of what it works on, a word and a number. -/
theorem named_numbered {t : Task} {resource word : String} {n : Nat}
    (works_on : t.resource = some resource)
    (name : t.operation.name = resource ++ "/operations/" ++ (word ++ toString n))
    (free : '/' ∉ word.toList) (ne : word ≠ "") : t.Named := by
  refine ⟨resource, word ++ toString n, works_on, name, fun empty => ?_,
    slash_notMem_numbered free n⟩
  exact ne (String.append_eq_empty_iff.1 empty).1

/-- The backup or database is there, and still being made. -/
def Creating (st : Store) : Target → Prop
  | .backup name => ∃ b, st.backups.get? name = some b ∧ b.state = .creating
  | .database name => ∃ d, st.databases.get? name = some d ∧ d.state = "CREATING"

/-- When one backup is put in place, nothing but it comes to be made. -/
theorem creating_of_insertBackup {name : String} {b : Backup} {x : Target}
    (backups : st'.backups = st.backups.insert name b) (databases : st'.databases = st.databases)
    (h : st'.Creating x) : (x = .backup name ∧ b.state = .creating) ∨ st.Creating x := by
  cases x with
  | database other =>
    obtain ⟨d, found, creating⟩ := h
    exact .inr ⟨d, databases ▸ found, creating⟩
  | backup other =>
    obtain ⟨c, found, creating⟩ := h
    rw [backups, Catalog.get?_insert] at found
    split at found
    case isTrue same =>
      obtain rfl := Option.some.inj found
      exact .inl ⟨same ▸ rfl, creating⟩
    case isFalse => exact .inr ⟨c, found, creating⟩

/-- When one database is put in place, nothing but it comes to be made. -/
theorem creating_of_insertDatabase {name : String} {d : Database} {x : Target}
    (backups : st'.backups = st.backups) (databases : st'.databases = st.databases.insert name d)
    (h : st'.Creating x) : (x = .database name ∧ d.state = "CREATING") ∨ st.Creating x := by
  cases x with
  | backup other =>
    obtain ⟨b, found, creating⟩ := h
    exact .inr ⟨b, backups ▸ found, creating⟩
  | database other =>
    obtain ⟨c, found, creating⟩ := h
    rw [databases, Catalog.get?_insert] at found
    split at found
    case isTrue same =>
      obtain rfl := Option.some.inj found
      exact .inl ⟨same ▸ rfl, creating⟩
    case isFalse => exact .inr ⟨c, found, creating⟩

theorem creating_insertBackup {name : String} {b : Backup}
    (backups : st'.backups = st.backups.insert name b) (unfinished : b.state = .creating) :
    st'.Creating (.backup name) :=
  ⟨b, by rw [backups, Catalog.get?_insert, if_pos rfl], unfinished⟩

theorem creating_insertDatabase {name : String} {d : Database}
    (databases : st'.databases = st.databases.insert name d) (unfinished : d.state = "CREATING") :
    st'.Creating (.database name) :=
  ⟨d, by rw [databases, Catalog.get?_insert, if_pos rfl], unfinished⟩

end

end Store

end BackupAdmin.Memory
