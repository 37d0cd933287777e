import BackupAdmin.Proofs.Memory.Tending
import Mathlib.Data.Set.Lattice
import Mathlib.Order.CompletePartialOrder

/-! Changes to a store that lie on some of its backups. Main statements: two such changes on
different backups commute, and neither is seen where only the other's backups are looked at. -/
namespace BackupAdmin

namespace Catalog
variable {α : Type} {k l : String}

/-- The catalog with a value under a name, or with none. -/
def put (c : Catalog α) (k : String) : Option α → Catalog α
  | some v => c.insert k v
  | none => c.erase k

@[simp] theorem get?_put (c : Catalog α) (k l : String) (v : Option α) :
    (c.put k v).get? l = if l = k then v else c.get? l := by
  cases v with
  | some v => exact get?_insert ..
  | none => exact get?_erase ..

theorem put_comm (c : Catalog α) (ne : k ≠ l) (v w : Option α) :
    (c.put k v).put l w = (c.put l w).put k v := by
  refine ext fun m => ?_
  simp only [get?_put]
  by_cases at_k : m = k
  · subst at_k
    simp [ne]
  · rw [if_neg at_k, if_neg at_k]

theorem modify_eq_put (c : Catalog α) (k : String) (f : α → α) :
    c.modify k f = c.put k ((c.get? k).map f) := by
  refine ext fun l => ?_
  rw [get?_modify, get?_put]
  split
  case isTrue same => rw [same]
  case isFalse => rfl

/-- The catalog with the number under a name one higher. -/
def count (c : Catalog Nat) (k : String) : Catalog Nat := c.insert k ((c.get? k).getD 0 + 1)

theorem get?_count (c : Catalog Nat) (k l : String) :
    (c.count k).get? l = if l = k then some ((c.get? l).getD 0 + 1) else c.get? l := by
  rw [count, get?_insert]
  split
  case isTrue same => rw [same]
  case isFalse => rfl

theorem count_comm (c : Catalog Nat) (k l : String) :
    (c.count k).count l = (c.count l).count k := by
  refine ext fun m => ?_
  simp only [get?_count]
  by_cases at_k : m = k
  · subst at_k
    by_cases at_l : m = l <;> simp [at_l]
  · by_cases at_l : m = l <;> simp [at_k]

end Catalog

namespace Memory

attribute [ext] Store

/-- An operation of this name is called after the resource. -/
def OperationOn (name resource : String) : Prop :=
  ∃ part : String, name = resource ++ "/operations/" ++ part ∧ '/' ∉ part.toList

theorem OperationOn.unique {name a b : String} (h : OperationOn name a) (h' : OperationOn name b) :
    a = b := by
  obtain ⟨part, rfl, free⟩ := h
  obtain ⟨part', same, free'⟩ := h'
  have split : "/operations/".toList = "/operations".toList ++ ['/'] := rfl
  have pieces {resource part : String} (free : '/' ∉ part.toList) :
      Text.lastPiece '/' (resource ++ "/operations/" ++ part).toList = part.toList := by
    rw [String.toList_append, String.toList_append, split, ← List.append_assoc, List.append_assoc]
    exact Text.lastPiece_append _ free
  have parts : part = part' := String.toList_inj.1 (by rw [← pieces free, same, pieces free'])
  rw [parts, String.append_left_inj, String.append_left_inj] at same
  exact same

/-- What a call on backups does to a store. -/
structure Change where
  /-- A backup that is put in place or removed. -/
  backup : Option (String × Option Backup) := none
  /-- What the operation at some place has become. -/
  task : Option (Nat × Task) := none
  begun : Option Task := none
  /-- The operation that was to be cancelled. -/
  cancelled : Option String := none
  /-- The backup that was read. -/
  read : Option String := none

namespace Change

/-- The operations in their places, with the one that has become another. -/
def replaced (ch : Change) (ts : List Task) : List Task :=
  ch.task.elim ts fun e => ts.set e.1 e.2

theorem length_replaced (ch : Change) (ts : List Task) : (ch.replaced ts).length = ts.length := by
  unfold replaced
  cases ch.task with
  | none => rfl
  | some e => exact List.length_set ..

def apply (ch : Change) (st : Store) : Store where
  backups := ch.backup.elim st.backups fun e => st.backups.put e.1 e.2
  databases := st.databases
  tasks := ch.replaced st.tasks ++ ch.begun.toList
  cancels := ch.cancelled.elim st.cancels st.cancels.count
  backupReads := ch.read.elim st.backupReads st.backupReads.count
  submitted := st.submitted + ch.begun.toList.length
  nextId := st.nextId + ch.begun.toList.length

/-- The change touches backups and operations of backups in `B` only. -/
structure On (ch : Change) (B : Set String) (st : Store) : Prop where
  backup : ∀ e, ch.backup = some e → e.1 ∈ B
  task : ∀ e, ch.task = some e → ∃ t, st.tasks[e.1]? = some t ∧
    e.2.operation.name = t.operation.name ∧ e.2.effect = t.effect ∧
    ∃ b ∈ B, OperationOn t.operation.name b
  begun : ∀ t, ch.begun = some t → (∃ b ∈ B, OperationOn t.operation.name b) ∧
    ∃ b encryption, t.effect = .backup b encryption
  read : ∀ name, ch.read = some name → name ∈ B

theorem nothing_on (B : Set String) (st : Store) : ({} : Change).On B st := by
  constructor <;> rintro _ ⟨⟩

/-- A change that begins no operation. -/
theorem apply_of_begun {ch : Change} (none : ch.begun = none) (st : Store) :
    ch.apply st = { st with
      backups := ch.backup.elim st.backups fun e => st.backups.put e.1 e.2
      tasks := ch.replaced st.tasks
      cancels := ch.cancelled.elim st.cancels st.cancels.count
      backupReads := ch.read.elim st.backupReads st.backupReads.count } := by
  simp [apply, none]

end Change

/-- Two stores have the same backups in `B`, the same operations on them, and the same databases. -/
structure Store.Alike (B : Set String) (st st' : Store) : Prop where
  databases : st'.databases = st.databases
  backups : ∀ b ∈ B, st'.backups.get? b = st.backups.get? b
  reads : ∀ b ∈ B, st'.backupReads.get? b = st.backupReads.get? b
  found : ∀ name, (∀ b, OperationOn name b → b ∈ B) → st'.find? name = st.find? name

theorem Store.Alike.refl (B : Set String) (st : Store) : st.Alike B st :=
  ⟨rfl, fun _ _ => rfl, fun _ _ => rfl, fun _ _ => rfl⟩

theorem Store.Alike.trans {B : Set String} {st st' st'' : Store} (h : st.Alike B st')
    (h' : st'.Alike B st'') : st.Alike B st'' where
  databases := h'.databases.trans h.databases
  backups b mem := (h'.backups b mem).trans (h.backups b mem)
  reads b mem := (h'.reads b mem).trans (h.reads b mem)
  found name owned := (h'.found name owned).trans (h.found name owned)

section
variable {st : Store} {ch ch' : Change} {B C : Set String}

/-- Stores that have the same operations of a name find the same one by it. -/
theorem find?_congr {st' : Store} {name : String}
    (same : ∀ (j : Nat) (u : Task), u.operation.name = name →
      (st'.tasks[j]? = some u ↔ st.tasks[j]? = some u)) : st'.find? name = st.find? name := by
  refine Option.ext fun ⟨i, t⟩ => ?_
  rw [Store.find?_eq_some_iff, Store.find?_eq_some_iff]
  refine ⟨fun ⟨at_i, named, first⟩ => ⟨(same i t named).1 at_i, named, fun j u lt at_j other => ?_⟩,
    fun ⟨at_i, named, first⟩ => ⟨(same i t named).2 at_i, named, fun j u lt at_j other => ?_⟩⟩
  · exact first j u lt ((same j u other).2 at_j) other
  · exact first j u lt ((same j u other).1 at_j) other

theorem getElem?_set_iff {ts : List Task} {i j : Nat} {t t' u : Task} (at_i : ts[i]? = some t)
    (ne : t ≠ u) (ne' : t' ≠ u) : (ts.set i t')[j]? = some u ↔ ts[j]? = some u := by
  rw [List.getElem?_set]
  split
  case isTrue same =>
    subst same
    rw [if_pos (List.getElem?_eq_some_iff.1 at_i).1, at_i]
    simp [ne, ne']
  case isFalse => rfl

theorem getElem?_append_iff {ts new : List Task} {j : Nat} {u : Task} (absent : u ∉ new) :
    (ts ++ new)[j]? = some u ↔ ts[j]? = some u := by
  rw [List.getElem?_append]
  split
  · rfl
  case isFalse behind =>
    rw [List.getElem?_eq_none (Nat.le_of_not_lt behind)]
    exact iff_of_false (fun at_j => absent (List.mem_of_getElem? at_j)) (by simp)

/-- What is done to an operation is not seen by the name of another one. -/
theorem find?_apply (on : ch.On C st) {name : String}
    (other : ∀ b, OperationOn name b → b ∉ C) : (ch.apply st).find? name = st.find? name := by
  have named_ne {t u : Task} (works : ∃ b ∈ C, OperationOn t.operation.name b)
      (named : u.operation.name = name) : t ≠ u := by
    rintro rfl
    obtain ⟨b, mem, works⟩ := works
    exact other b (named ▸ works) mem
  refine find?_congr fun j u named => ?_
  have absent : u ∉ ch.begun.toList := fun mem =>
    named_ne (on.begun u (Option.mem_toList.1 mem)).1 named rfl
  refine (getElem?_append_iff absent).trans ?_
  cases change : ch.task with
  | none => simp only [Change.replaced, change, Option.elim_none]
  | some e =>
    obtain ⟨t, at_e, name, -, works⟩ := on.task e change
    simp only [Change.replaced, change, Option.elim_some]
    exact getElem?_set_iff at_e (named_ne works named) (named_ne (name ▸ works) named)

/-- A change is not seen where its backups are not looked at. -/
theorem alike_apply (disjoint : Disjoint B C) (on : ch.On C st) : st.Alike B (ch.apply st) where
  databases := rfl
  backups b mem := by
    have apart : b ∉ C := Set.disjoint_left.1 disjoint mem
    cases change : ch.backup with
    | none => simp only [Change.apply, change, Option.elim]
    | some e =>
      have ne : b ≠ e.1 := fun same => apart (same ▸ on.backup e change)
      simp only [Change.apply, change, Option.elim, Catalog.get?_put, if_neg ne]
  reads b mem := by
    have apart : b ∉ C := Set.disjoint_left.1 disjoint mem
    cases read : ch.read with
    | none => simp only [Change.apply, read, Option.elim]
    | some k =>
      have ne : b ≠ k := fun same => apart (same ▸ on.read k read)
      simp only [Change.apply, read, Option.elim, Catalog.get?_count, if_neg ne]
  found name owned := by
    refine find?_apply on fun b works => ?_
    exact Set.disjoint_left.1 disjoint (owned b works)

/-- Different operations may be changed in any order, and before or after others come behind. -/
theorem replaced_comm (disjoint : Disjoint B C) (on : ch.On B st) (on' : ch'.On C st)
    (new : List Task) : ch.replaced (ch'.replaced st.tasks ++ new) =
      ch'.replaced (ch.replaced st.tasks) ++ new := by
  cases change : ch.task with
  | none => simp only [Change.replaced, change, Option.elim_none]
  | some e =>
    obtain ⟨t, at_e, -, -, b, mem, works⟩ := on.task e change
    have lt := (List.getElem?_eq_some_iff.1 at_e).1
    cases change' : ch'.task with
    | none =>
      simp only [Change.replaced, change, change', Option.elim_none, Option.elim_some]
      exact List.set_append_left _ _ lt
    | some e' =>
      obtain ⟨t', at_e', -, -, b', mem', works'⟩ := on'.task e' change'
      -- at one place there is one operation, which works on one backup
      have ne : e'.1 ≠ e.1 := by
        intro same
        rw [same, at_e] at at_e'
        obtain rfl := Option.some.inj at_e'
        exact Set.disjoint_left.1 disjoint mem (works.unique works' ▸ mem')
      simp only [Change.replaced, change, change', Option.elim_some]
      rw [List.set_append_left _ _ (by rwa [List.length_set]), List.set_comm _ _ ne]

/-- Changes on different backups, of which only one begins an operation, commute. -/
theorem apply_comm (disjoint : Disjoint B C) (on : ch.On B st) (on' : ch'.On C st)
    (one : ch.begun = none ∨ ch'.begun = none) :
    ch.apply (ch'.apply st) = ch'.apply (ch.apply st) := by
  have backups : (ch.apply (ch'.apply st)).backups = (ch'.apply (ch.apply st)).backups := by
    cases change : ch.backup with
    | none => simp only [Change.apply, change, Option.elim_none]
    | some e =>
      cases change' : ch'.backup with
      | none => simp only [Change.apply, change, change', Option.elim_none]
      | some e' =>
        have ne : e'.1 ≠ e.1 := fun same =>
          Set.disjoint_left.1 disjoint (on.backup e change) (same ▸ on'.backup e' change')
        simpa only [Change.apply, change, change', Option.elim_some] using
          st.backups.put_comm ne e'.2 e.2
  have tasks : (ch.apply (ch'.apply st)).tasks = (ch'.apply (ch.apply st)).tasks := by
    simp only [Change.apply]
    rcases one with none | none
    · rw [replaced_comm disjoint on on', none, Option.toList_none, List.append_nil, List.append_nil]
    · rw [replaced_comm disjoint.symm on' on, none, Option.toList_none, List.append_nil,
        List.append_nil]
  have cancels : (ch.apply (ch'.apply st)).cancels = (ch'.apply (ch.apply st)).cancels := by
    cases cancel : ch.cancelled <;> cases cancel' : ch'.cancelled <;>
      simp [Change.apply, cancel, cancel', Catalog.count_comm]
  have reads : (ch.apply (ch'.apply st)).backupReads = (ch'.apply (ch.apply st)).backupReads := by
    cases read : ch.read <;> cases read' : ch'.read <;>
      simp [Change.apply, read, read', Catalog.count_comm]
  have added (n : Nat) : n + ch'.begun.toList.length + ch.begun.toList.length =
      n + ch.begun.toList.length + ch'.begun.toList.length := Nat.add_right_comm ..
  exact Store.ext backups rfl tasks cancels reads (added _) (added _)

end

end Memory
end BackupAdmin
