import BackupAdmin.Catalog

/-! What a catalog is made of. Main statement: a catalog is made of its own entries, and of a list
of entries under different names it has each one. -/
namespace BackupAdmin

namespace Catalog
variable {α : Type}

/-- An entry behind all others is put at the end. -/
theorem insertEntry_last {k : String} (v : α) {es : List (String × α)}
    (before : ∀ e ∈ es, e.1 < k) : insertEntry k v es = es ++ [(k, v)] := by
  induction es with
  | nil => rfl
  | cons e es ih =>
    obtain ⟨first, before⟩ := List.forall_mem_cons.1 before
    have behind : ¬ k < e.1 := fun lt => String.lt_irrefl _ (String.lt_trans first lt)
    have other : k ≠ e.1 := by
      rintro rfl
      exact String.lt_irrefl _ first
    rw [insertEntry, if_neg behind, if_neg other, ih before, List.cons_append]

theorem entries_foldl {es : List (String × α)} (c : Catalog α)
    (sorted : (c.entries ++ es).Pairwise (fun a b => a.1 < b.1)) :
    (es.foldl (fun c e => c.insert e.1 e.2) c).entries = c.entries ++ es := by
  induction es generalizing c with
  | nil => simp
  | cons e es ih =>
    have before : ∀ e' ∈ c.entries, e'.1 < e.1 := fun e' mem =>
      (List.pairwise_append.1 sorted).2.2 e' mem e List.mem_cons_self
    have last : (c.insert e.1 e.2).entries = c.entries ++ [e] := insertEntry_last e.2 before
    rw [List.foldl_cons, ih _ (by simpa [last] using sorted), last, List.append_assoc]
    rfl

/-- A catalog is made of its entries. -/
theorem ofList_entries (c : Catalog α) : ofList c.entries = c := by
  have same : (ofList c.entries).entries = c.entries :=
    entries_foldl empty (by simpa [empty] using c.sorted)
  obtain ⟨es, sorted⟩ := c
  generalize ofList es = d at same
  obtain ⟨ds, sorted'⟩ := d
  obtain rfl : ds = es := same
  rfl

theorem mem_insertEntry {k : String} {v : α} {e : String × α} {es : List (String × α)}
    (mem : e ∈ insertEntry k v es) : e = (k, v) ∨ e ∈ es := by
  induction es with
  | nil => exact .inl (List.mem_singleton.1 mem)
  | cons f es ih =>
    rw [insertEntry] at mem
    split at mem
    · exact List.mem_cons.1 mem
    split at mem
    · exact (List.mem_cons.1 mem).imp_right (List.mem_cons_of_mem f)
    · rcases List.mem_cons.1 mem with rfl | later
      · exact .inr List.mem_cons_self
      · exact (ih later).imp_right (List.mem_cons_of_mem f)

theorem forall_insert {P : String × α → Prop} {c : Catalog α} (all : ∀ e ∈ c.entries, P e)
    {k : String} {v : α} (new : P (k, v)) : ∀ e ∈ (c.insert k v).entries, P e := by
  intro e mem
  rcases mem_insertEntry mem with rfl | old
  · exact new
  · exact all e old

/-- A catalog holds only the entries it was made of. -/
theorem forall_ofList {P : String × α → Prop} {es : List (String × α)} (all : ∀ e ∈ es, P e) :
    ∀ e ∈ (ofList es).entries, P e := by
  have grows {es : List (String × α)} (all : ∀ e ∈ es, P e) (c : Catalog α)
      (old : ∀ e ∈ c.entries, P e) :
      ∀ e ∈ (es.foldl (fun c e => c.insert e.1 e.2) c).entries, P e := by
    induction es generalizing c with
    | nil => exact old
    | cons e es ih =>
      obtain ⟨first, all⟩ := List.forall_mem_cons.1 all
      exact ih all _ (forall_insert old first)
  exact grows all empty (by simp [empty])

theorem distinct_entries (c : Catalog α) : (c.entries.map (·.1)).Nodup :=
  List.pairwise_map.2 (c.sorted.imp fun {a b} lt (same : a.1 = b.1) =>
    String.lt_irrefl b.1 (same ▸ lt))

/-- Of entries under different names each one is found, in front of what was there before. -/
theorem get?_foldl {es : List (String × α)} (distinct : (es.map (·.1)).Nodup) (c : Catalog α)
    (k : String) : (es.foldl (fun c e => c.insert e.1 e.2) c).get? k =
      (es.lookup k).or (c.get? k) := by
  induction es generalizing c with
  | nil => rfl
  | cons e es ih =>
    obtain ⟨new, distinct⟩ := List.nodup_cons.1 distinct
    rw [List.foldl_cons, ih distinct, get?_insert, List.lookup_cons]
    by_cases here : k = e.1
    · have absent : es.lookup k = none :=
        List.lookup_eq_none_iff.2 fun m mem =>
          bne_iff_ne.2 fun same => new (List.mem_map.2 ⟨m, mem, (here.symm.trans same).symm⟩)
      simp [here ▸ absent, here]
    · have other : (k == e.1) = false := beq_eq_false_iff_ne.2 here
      rw [if_neg here, other]

theorem get?_ofList {es : List (String × α)} (distinct : (es.map (·.1)).Nodup) (k : String) :
    (ofList es).get? k = es.lookup k := by
  rw [ofList, get?_foldl distinct, get?_empty, Option.or_none]

/-! ### Catalogs that differ under one name -/

section
variable {c d : Catalog α} {k : String} {v : Option α}

/-- A catalog that is another one but for the value of one name is that one if it has its value. -/
theorem eq_of_changed (changed : ∀ l, c.get? l = if l = k then v else d.get? l)
    (same : d.get? k = v) : c = d := by
  refine ext fun l => ?_
  rw [changed]
  split
  case isTrue here => rw [here, same]
  case isFalse => rfl

/-- A value that is there is put in place of itself. -/
theorem insert_self {a : α} (found : d.get? k = some a) : d.insert k a = d :=
  eq_of_changed (fun l => get?_insert d k l a) found

theorem insert_insert (d : Catalog α) (k : String) (a b : α) :
    (d.insert k a).insert k b = d.insert k b := by
  refine ext fun l => ?_
  simp only [get?_insert]
  split <;> rfl

/-- A value that is there is put in place of the one it is changed from. -/
theorem modify_eq_insert {a : α} (found : d.get? k = some a) (f : α → α) :
    d.modify k f = d.insert k (f a) := by
  refine ext fun l => ?_
  rw [get?_modify, get?_insert]
  split
  case isTrue here => rw [here, found, Option.map_some]
  case isFalse => rfl

theorem get?_erase_changed (changed : ∀ l, c.get? l = if l = k then v else d.get? l) (l : String) :
    (c.erase k).get? l = if l = k then none else d.get? l := by
  rw [get?_erase]
  split
  · rfl
  case isFalse other => rw [changed, if_neg other]

theorem get?_modify_changed (changed : ∀ l, c.get? l = if l = k then v else d.get? l) (f : α → α)
    (l : String) : (c.modify k f).get? l = if l = k then v.map f else d.get? l := by
  rw [get?_modify, changed]
  split <;> rfl

end

end Catalog
end BackupAdmin
