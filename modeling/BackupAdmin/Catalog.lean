/-! Finite maps from names, kept in the order of the names. Main statement: two catalogs are equal
when they give the same value for every name. -/
namespace BackupAdmin

/-- Entries with increasing names. -/
structure Catalog (α : Type) where
  entries : List (String × α)
  sorted : entries.Pairwise (fun a b => a.1 < b.1)
deriving DecidableEq

namespace Catalog
variable {α : Type}

/-- Puts an entry at its place, in place of one with the same name. -/
def insertEntry (k : String) (v : α) : List (String × α) → List (String × α)
  | [] => [(k, v)]
  | (l, w) :: es =>
    if k < l then (k, v) :: (l, w) :: es
    else if k = l then (k, v) :: es
    else (l, w) :: insertEntry k v es

theorem lt_of_not_lt_of_ne {k l : String} (h : ¬ k < l) (hne : k ≠ l) : l < k := by
  have hle := String.not_lt.1 h
  rcases Classical.em (l < k) with hlt | hnlt
  · exact hlt
  · exact absurd (String.le_antisymm (String.not_lt.1 hnlt) hle) hne

theorem name_of_mem_insertEntry {k : String} {v : α} {e : String × α} {es : List (String × α)}
    (h : e ∈ insertEntry k v es) : e.1 = k ∨ ∃ e' ∈ es, e'.1 = e.1 := by
  induction es with
  | nil => left; simp [insertEntry] at h; simp [h]
  | cons e' es ih =>
    simp only [insertEntry] at h
    split at h
    · simp only [List.mem_cons] at h ⊢; grind
    · split at h <;> simp only [List.mem_cons] at h ⊢ <;> grind

theorem pairwise_insertEntry (k : String) (v : α) {es : List (String × α)}
    (h : es.Pairwise (fun a b => a.1 < b.1)) :
    (insertEntry k v es).Pairwise (fun a b => a.1 < b.1) := by
  induction es with
  | nil => simp [insertEntry]
  | cons e es ih =>
    obtain ⟨l, w⟩ := e
    rw [List.pairwise_cons] at h
    simp only [insertEntry]
    split
    · rename_i hlt
      refine List.pairwise_cons.2 ⟨fun e he => ?_, List.pairwise_cons.2 h⟩
      rcases List.mem_cons.1 he with rfl | he
      · exact hlt
      · exact String.lt_trans hlt (h.1 e he)
    · split
      · rename_i heq; subst heq
        exact List.pairwise_cons.2 ⟨fun e he => h.1 e he, h.2⟩
      · rename_i hnlt hne
        refine List.pairwise_cons.2 ⟨fun e he => ?_, ih h.2⟩
        rcases name_of_mem_insertEntry he with hk | ⟨e', he', hk⟩
        · rw [hk]; exact lt_of_not_lt_of_ne hnlt hne
        · rw [← hk]; exact h.1 e' he'

def empty : Catalog α := ⟨[], .nil⟩

instance : Inhabited (Catalog α) := ⟨empty⟩

def get? (c : Catalog α) (k : String) : Option α := c.entries.lookup k

def contains (c : Catalog α) (k : String) : Bool := (c.get? k).isSome

def insert (c : Catalog α) (k : String) (v : α) : Catalog α :=
  ⟨insertEntry k v c.entries, pairwise_insertEntry k v c.sorted⟩

def erase (c : Catalog α) (k : String) : Catalog α :=
  ⟨c.entries.filter (·.1 ≠ k), c.sorted.filter _⟩

/-- The catalog with every value changed, depending on its name. -/
def mapValues (c : Catalog α) (f : String → α → α) : Catalog α :=
  ⟨c.entries.map fun e => (e.1, f e.1 e.2), by
    rw [List.pairwise_map]; exact c.sorted⟩

/-- The catalog with the value under one name changed, if there is one. -/
def modify (c : Catalog α) (k : String) (f : α → α) : Catalog α :=
  c.mapValues fun l v => if l = k then f v else v

def values (c : Catalog α) : List α := c.entries.map (·.2)

def isEmpty (c : Catalog α) : Bool := c.entries.isEmpty

/-- The catalog of these entries; of a repeated name the last one stays. -/
def ofList (es : List (String × α)) : Catalog α :=
  es.foldl (fun c e => c.insert e.1 e.2) empty

theorem lookup_insertEntry (k l : String) (v : α) (es : List (String × α)) :
    (insertEntry k v es).lookup l = if l = k then some v else es.lookup l := by
  induction es with
  | nil => simp only [insertEntry, List.lookup_cons, List.lookup_nil]; split <;> simp_all
  | cons e es ih =>
    obtain ⟨m, w⟩ := e
    simp only [insertEntry]
    split
    · simp only [List.lookup_cons]; grind
    · split
      · simp only [List.lookup_cons]; grind
      · simp only [List.lookup_cons, ih]; grind

@[simp] theorem get?_empty (k : String) : (empty : Catalog α).get? k = none := rfl

@[simp] theorem get?_insert (c : Catalog α) (k l : String) (v : α) :
    (c.insert k v).get? l = if l = k then some v else c.get? l := lookup_insertEntry k l v c.entries

theorem lookup_filter_ne (k l : String) (es : List (String × α)) :
    (es.filter (·.1 ≠ k)).lookup l = if l = k then none else es.lookup l := by
  induction es with
  | nil => simp
  | cons e es ih =>
    obtain ⟨m, w⟩ := e
    simp only [List.filter_cons, List.lookup_cons]; grind

@[simp] theorem get?_erase (c : Catalog α) (k l : String) :
    (c.erase k).get? l = if l = k then none else c.get? l := lookup_filter_ne k l c.entries

@[simp] theorem get?_mapValues (c : Catalog α) (f : String → α → α) (k : String) :
    (c.mapValues f).get? k = (c.get? k).map (f k) := by
  simp only [get?, mapValues]
  induction c.entries with
  | nil => rfl
  | cons e es ih =>
    obtain ⟨l, v⟩ := e
    simp only [List.map_cons, List.lookup_cons, ih]; split <;> simp_all

@[simp] theorem get?_modify (c : Catalog α) (k l : String) (f : α → α) :
    (c.modify k f).get? l = if l = k then (c.get? l).map f else c.get? l := by
  rw [modify, get?_mapValues]
  split
  · rfl
  · cases c.get? l <;> rfl

theorem lookup_eq_some_iff {es : List (String × α)} (h : es.Pairwise (fun a b => a.1 < b.1))
    {k : String} {v : α} : es.lookup k = some v ↔ (k, v) ∈ es := by
  induction es with
  | nil => simp
  | cons e es ih =>
    obtain ⟨l, w⟩ := e
    rw [List.pairwise_cons] at h
    rw [List.lookup_cons, List.mem_cons]
    by_cases hk : k = l
    · subst hk
      simp only [beq_self_eq_true, Option.some.injEq, Prod.mk.injEq, true_and]
      refine ⟨fun h => .inl h.symm, fun h' => ?_⟩
      rcases h' with h' | h'
      · exact h'.symm
      · exact absurd (h.1 _ h') (String.lt_irrefl _)
    · have hb : (k == l) = false := by simpa using hk
      simp [hb, ih h.2, hk]

@[ext] theorem ext {c d : Catalog α} (h : ∀ k, c.get? k = d.get? k) : c = d := by
  obtain ⟨es, hes⟩ := c
  obtain ⟨fs, hfs⟩ := d
  have hmem : ∀ e, e ∈ es ↔ e ∈ fs := fun e => by
    obtain ⟨k, v⟩ := e
    rw [← lookup_eq_some_iff hes, ← lookup_eq_some_iff hfs]
    exact iff_of_eq (congrArg (· = some v) (h k))
  suffices es = fs by subst this; rfl
  clear h
  induction es generalizing fs with
  | nil => cases fs with
    | nil => rfl
    | cons f fs => exact absurd ((hmem f).2 (by simp)) (by simp)
  | cons e es ih => cases fs with
    | nil => exact absurd ((hmem e).1 (by simp)) (by simp)
    | cons f fs =>
      have hes' := List.pairwise_cons.1 hes
      have hfs' := List.pairwise_cons.1 hfs
      have hef : e = f := by
        rcases List.mem_cons.1 ((hmem e).1 (by simp)) with h | h
        · exact h
        · rcases List.mem_cons.1 ((hmem f).2 (by simp)) with h' | h'
          · exact h'.symm
          · exact absurd (String.lt_trans (hes'.1 f h') (hfs'.1 e h)) (String.lt_irrefl _)
      subst hef
      congr 1
      refine ih hes'.2 fs hfs'.2 fun x => ?_
      have := hmem x
      simp only [List.mem_cons] at this
      constructor <;> intro hx
      · rcases this.1 (.inr hx) with rfl | hx'
        · exact absurd (hes'.1 _ hx) (String.lt_irrefl _)
        · exact hx'
      · rcases this.2 (.inr hx) with rfl | hx'
        · exact absurd (hfs'.1 _ hx) (String.lt_irrefl _)
        · exact hx'

example : ((empty.insert "b" 2).insert "a" 1).entries = [("a", 1), ("b", 2)] := by decide

end Catalog
end BackupAdmin
