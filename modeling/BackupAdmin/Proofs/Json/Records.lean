import BackupAdmin.Json.Decode
import BackupAdmin.Proofs.Catalog
import BackupAdmin.Proofs.Text.Digits
import Mathlib.Data.List.Nodup

/-! Records read back. Main statements: the fields of a record are the values of its slots, a field
of each kind is read as what it was written for, and a sorted value stays as it is when sorted
again. -/
namespace BackupAdmin

/-- A step that gives a value hands it on. -/
theorem bind_of_eq_some {α β : Type} {o : Option α} {a : α} (h : o = some a) (f : α → Option β) :
    o.bind f = f a := by rw [h, Option.bind_some]

/-- Under different names every member is found. -/
theorem lookup_of_mem {α : Type} {ms : List (String × α)} (distinct : (ms.map (·.1)).Nodup)
    {m : String × α} (mem : m ∈ ms) : ms.lookup m.1 = some m.2 := by
  induction ms with
  | nil => contradiction
  | cons l ms ih =>
    obtain ⟨new, distinct⟩ := List.nodup_cons.1 distinct
    rcases List.mem_cons.1 mem with rfl | mem
    · exact List.lookup_cons_self
    · have other : (m.1 == l.1) = false :=
        beq_eq_false_iff_ne.2 fun same => new (List.mem_map.2 ⟨m, mem, same⟩)
      rw [List.lookup_cons, other]
      exact ih distinct mem

namespace Json

/-! ### Sorted members -/

theorem insertMember_eq (k : String) (v : Json) (ms : List (String × Json)) :
    insertMember k v ms = Catalog.insertEntry k v ms := by
  induction ms with
  | nil => rfl
  | cons m ms ih => rw [insertMember, Catalog.insertEntry, ih]

/-- The sorted members are the entries of a catalog. -/
theorem sortMembers_eq (ms : List (String × Json)) :
    sortMembers ms = (Catalog.ofList ms).entries := by
  have from_catalog (c : Catalog Json) :
      ms.foldl (fun acc m => insertMember m.1 m.2 acc) c.entries =
        (ms.foldl (fun c e => c.insert e.1 e.2) c).entries := by
    induction ms generalizing c with
    | nil => rfl
    | cons m ms ih =>
      have step : insertMember m.1 m.2 c.entries = (c.insert m.1 m.2).entries := insertMember_eq ..
      exact (congrArg (ms.foldl _) step).trans (ih _)
  exact from_catalog .empty

theorem record_ne_null (ms : List (String × Json)) : record ms ≠ .null := Json.noConfusion

theorem distinct_sortMembers (ms : List (String × Json)) : ((sortMembers ms).map (·.1)).Nodup :=
  sortMembers_eq ms ▸ Catalog.distinct_entries _

theorem lookup_sortMembers {ms : List (String × Json)} (distinct : (ms.map (·.1)).Nodup)
    (k : String) : (sortMembers ms).lookup k = ms.lookup k := by
  rw [sortMembers_eq]
  exact Catalog.get?_ofList distinct k

theorem forall_sortMembers {P : String × Json → Prop} {ms : List (String × Json)}
    (all : ∀ m ∈ ms, P m) : ∀ m ∈ sortMembers ms, P m :=
  sortMembers_eq ms ▸ Catalog.forall_ofList all

theorem sortMembers_sortMembers (ms : List (String × Json)) :
    sortMembers (sortMembers ms) = sortMembers ms := by
  rw [sortMembers_eq (sortMembers ms), sortMembers_eq ms, Catalog.ofList_entries]

/-! ### Sorted values -/

theorem canonicalItems?_self {vs : List Json} (sorted : ∀ v ∈ vs, canonical? v = some v) :
    canonicalItems? vs = some vs := by
  induction vs with
  | nil => rfl
  | cons v vs ih =>
    obtain ⟨first, sorted⟩ := List.forall_mem_cons.1 sorted
    simp [canonicalItems?, first, ih sorted]

theorem canonicalMembers?_self {ms : List (String × Json)}
    (sorted : ∀ m ∈ ms, canonical? m.2 = some m.2) : canonicalMembers? ms = some ms := by
  induction ms with
  | nil => rfl
  | cons m ms ih =>
    obtain ⟨first, sorted⟩ := List.forall_mem_cons.1 sorted
    simp [canonicalMembers?, first, ih sorted]

/-- An object of sorted values is sorted by its members. -/
theorem canonical?_object {ms : List (String × Json)}
    (sorted : ∀ m ∈ ms, canonical? m.2 = some m.2) :
    canonical? (.object ms) = some (record ms) := by
  rw [canonical?, canonicalMembers?_self sorted, Option.map_some, Function.comp_apply, record]

theorem canonical?_record {ms : List (String × Json)}
    (sorted : ∀ m ∈ ms, canonical? m.2 = some m.2) : canonical? (record ms) = some (record ms) := by
  rw [record, canonical?_object (forall_sortMembers sorted), record, sortMembers_sortMembers]

mutual

/-- What is sorted stays as it is. -/
theorem canonical?_idem {v w : Json} (sort : canonical? v = some w) : canonical? w = some w := by
  cases v with
  | array items =>
    obtain ⟨ws, inner, rfl⟩ := Option.map_eq_some_iff.1 sort
    rw [canonical?, canonicalItems?_self (canonicalItems?_idem inner), Option.map_some]
  | object ms =>
    obtain ⟨ns, inner, rfl⟩ := Option.map_eq_some_iff.1 sort
    exact canonical?_record (canonicalMembers?_idem inner)
  | unreadable => contradiction
  | null | bool | number | string =>
    obtain rfl := Option.some.inj sort
    rfl

theorem canonicalItems?_idem {vs ws : List Json} (sort : canonicalItems? vs = some ws) :
    ∀ w ∈ ws, canonical? w = some w := by
  cases vs with
  | nil =>
    obtain rfl := Option.some.inj sort
    simp
  | cons v vs =>
    simp only [canonicalItems?, Option.bind_eq_bind, Option.bind_eq_some_iff] at sort
    obtain ⟨w, first, ws', rest, same⟩ := sort
    obtain rfl := Option.some.inj same
    exact List.forall_mem_cons.2 ⟨canonical?_idem first, canonicalItems?_idem rest⟩

theorem canonicalMembers?_idem {ms ns : List (String × Json)}
    (sort : canonicalMembers? ms = some ns) : ∀ n ∈ ns, canonical? n.2 = some n.2 := by
  cases ms with
  | nil =>
    obtain rfl := Option.some.inj sort
    simp
  | cons m ms =>
    simp only [canonicalMembers?, Option.bind_eq_bind, Option.bind_eq_some_iff] at sort
    obtain ⟨w, first, ns', rest, same⟩ := sort
    obtain rfl := Option.some.inj same
    exact List.forall_mem_cons.2 ⟨canonical?_idem first, canonicalMembers?_idem rest⟩

end

/-- Only null is sorted to null. -/
theorem eq_null_of_canonical? {v : Json} (sort : canonical? v = some .null) : v = .null := by
  cases v with
  | null => rfl
  | array items => simp [canonical?] at sort
  | object ms => simp [canonical?] at sort
  | unreadable => contradiction
  | bool | number | string => exact absurd (Option.some.inj sort) nofun

/-! ### Fields -/

/-- A record whose members all are fields has these fields. -/
theorem fields?_object {names : List String} {ms : List (String × Json)}
    (distinct : (ms.map (·.1)).Nodup) (known : ∀ m ∈ ms, m.1 ∈ names) :
    fields? names (.object ms) = some ms := by
  have all : ms.filter (fun m => names.contains m.1) = ms :=
    List.filter_eq_self.2 fun m mem => by simpa using known m mem
  simp only [fields?, all, if_pos distinct]

/-- The members that are there, of slots that may be left out. -/
def present (slots : List (String × Option Json)) : List (String × Json) :=
  slots.filterMap fun s => s.2.map (s.1, ·)

theorem present_cons (s : String × Option Json) (slots : List (String × Option Json)) :
    present (s :: slots) = (s.2.map (s.1, ·)).toList ++ present slots := by
  obtain ⟨k, _ | v⟩ := s <;> rfl

@[simp] theorem present_nil : present [] = [] := rfl

@[simp] theorem present_some (k : String) (v : Json) (slots : List (String × Option Json)) :
    present ((k, some v) :: slots) = (k, v) :: present slots := rfl

/-- A text that is left out when empty. -/
def textSlot (s : String) : Option Json := if s = "" then none else some (.string s)

/-- A list that is left out when empty. -/
def listSlot {α : Type} (f : α → Json) (xs : List α) : Option Json :=
  if xs.isEmpty then none else some (.array (xs.map f))

@[simp] theorem present_text (k s : String) (slots : List (String × Option Json)) :
    present ((k, textSlot s) :: slots) = textMember k s ++ present slots := by
  by_cases empty : s = "" <;> simp [present_cons, textMember, textSlot, empty]

@[simp] theorem present_optional {α : Type} (k : String) (f : α → Json) (o : Option α)
    (slots : List (String × Option Json)) :
    present ((k, o.map f) :: slots) = optionalMember k f o ++ present slots := by
  cases o <;> rfl

@[simp] theorem present_list {α : Type} (k : String) (f : α → Json) (xs : List α)
    (slots : List (String × Option Json)) :
    present ((k, listSlot f xs) :: slots) = listMember k f xs ++ present slots := by
  cases xs <;> rfl

theorem names_present (slots : List (String × Option Json)) :
    List.Sublist ((present slots).map (·.1)) (slots.map (·.1)) := by
  induction slots with
  | nil => exact List.Sublist.slnil
  | cons s slots ih =>
    obtain ⟨k, _ | v⟩ := s
    · exact ih.cons k
    · exact ih.cons_cons k

theorem mem_present {slots : List (String × Option Json)} {k : String} {v : Json} :
    (k, v) ∈ present slots ↔ (k, some v) ∈ slots := by
  simp only [present, List.mem_filterMap, Option.map_eq_some_iff, Prod.mk.injEq]
  constructor
  · rintro ⟨⟨l, w⟩, mem, x, rfl, rfl, rfl⟩
    exact mem
  · intro mem
    exact ⟨_, mem, v, rfl, rfl, rfl⟩

theorem canonical?_present {slots : List (String × Option Json)}
    (sorted : ∀ s ∈ slots, ∀ v ∈ s.2, canonical? v = some v) :
    canonical? (record (present slots)) = some (record (present slots)) :=
  canonical?_record fun _ mem => sorted _ (mem_present.1 mem) _ rfl

/-- Under different names every slot is found as it is, also when it is left out. -/
theorem lookup_present {slots : List (String × Option Json)} (distinct : (slots.map (·.1)).Nodup)
    {s : String × Option Json} (mem : s ∈ slots) : (present slots).lookup s.1 = s.2 := by
  obtain ⟨k, _ | v⟩ := s
  · refine List.lookup_eq_none_iff.2 fun m there => bne_iff_ne.2 fun same => ?_
    have both := List.inj_on_of_nodup_map distinct mem (mem_present.1 there) same
    exact absurd (congrArg Prod.snd both) nofun
  · exact lookup_of_mem ((names_present slots).nodup distinct) (mem_present.2 mem)

/-- Members of other names do not matter to what is found under a name. -/
theorem lookup_filter {p : String → Bool} {k : String} (kept : p k = true)
    (ms : List (String × Json)) : (ms.filter fun m => p m.1).lookup k = ms.lookup k := by
  induction ms with
  | nil => rfl
  | cons m ms ih =>
    by_cases here : k = m.1
    · subst here
      rw [List.filter_cons_of_pos (by exact kept), List.lookup_cons_self, List.lookup_cons_self]
    · have other : (k == m.1) = false := beq_eq_false_iff_ne.2 here
      rw [List.filter_cons]
      split
      · rw [List.lookup_cons, List.lookup_cons, other, ih]
      · rw [List.lookup_cons, other, ih]

/-- The fields of an object under different names are the values found under these names. -/
theorem exists_fields (names : List String) {ms : List (String × Json)}
    (distinct : (ms.map (·.1)).Nodup) :
    ∃ fs, fields? names (.object ms) = some fs ∧ ∀ k ∈ names, fs.lookup k = ms.lookup k := by
  have sub : List.Sublist ((ms.filter fun m => names.contains m.1).map (·.1)) (ms.map (·.1)) :=
    List.filter_sublist.map _
  exact ⟨_, if_pos (sub.nodup distinct), fun k known => lookup_filter (by simpa using known) ms⟩

/-- The fields of a record are the values of its slots. -/
theorem fields?_record (slots : List (String × Option Json)) (names : List String)
    (same : slots.map (·.1) = names) (distinct : names.Nodup) :
    ∃ fs, fields? names (record (present slots)) = some fs ∧ ∀ s ∈ slots, fs.lookup s.1 = s.2 := by
  subst same
  obtain ⟨fs, read, found⟩ :=
    exists_fields (slots.map (·.1)) (distinct_sortMembers (present slots))
  refine ⟨fs, read, fun s mem => ?_⟩
  rw [found s.1 (List.mem_map_of_mem mem),
    lookup_sortMembers ((names_present slots).nodup distinct), lookup_present distinct mem]

namespace Fields
variable {α : Type} {fs : Fields} {k : String} {v : Json} {a : α} {f : Json → Option α}

theorem required_of_lookup (found : fs.lookup k = some v) (read : f v = some a) :
    fs.required k f = some a := by
  rw [required, found, Option.bind_some, read]

theorem orElse_of_lookup (found : fs.lookup k = some v) (read : f v = some a) (default : α) :
    fs.orElse k default f = some a := by
  rw [orElse, found]
  exact read

theorem orElse_string {s : String} (found : fs.lookup k = some (.string s)) (default : String) :
    fs.orElse k default asString? = some s := by
  rw [orElse, found]
  rfl

theorem orElse_text {s : String} (found : fs.lookup k = textSlot s) :
    fs.orElse k "" asString? = some s := by
  by_cases empty : s = ""
  · rw [orElse, found, textSlot, if_pos empty, empty]
  · rw [textSlot, if_neg empty] at found
    exact orElse_string found ""

theorem mapM_map {β : Type} {g : β → Json} {h : Json → Option β} (read : ∀ b, h (g b) = some b)
    (bs : List β) : (bs.map g).mapM h = some bs := by
  induction bs with
  | nil => rfl
  | cons b bs ih => simp [read, ih]

theorem orElse_list {xs : List α} {g : α → Json} (read : ∀ a, f (g a) = some a)
    (found : fs.lookup k = listSlot g xs) : fs.orElse k [] (asListOf? f) = some xs := by
  cases xs with
  | nil => rw [orElse, found]; rfl
  | cons x xs => exact orElse_of_lookup found (mapM_map read (x :: xs)) []

theorem optional_of_lookup {o : Option α} {g : α → Json} (found : fs.lookup k = o.map g)
    (read : ∀ a ∈ o, f (g a) = some a ∧ g a ≠ .null) : fs.optional k f = some o := by
  cases o with
  | none => simp [optional, found]
  | some a =>
    obtain ⟨back, there⟩ := read a rfl
    rw [optional, found]
    split
    · contradiction
    · next null => exact absurd (Option.some.inj null) there
    · next same => rw [← Option.some.inj same, back, Option.map_some]

theorem optional_text {o : Option String} (found : fs.lookup k = o.map .string) :
    fs.optional k asString? = some o :=
  optional_of_lookup found fun _ _ => ⟨rfl, nofun⟩

/-- What a field with a default holds is the default, or was read. -/
theorem cases_of_orElse {default : α} (read : fs.orElse k default f = some a) :
    a = default ∨ ∃ v, f v = some a := by
  unfold orElse at read
  split at read
  · exact .inl (Option.some.inj read).symm
  · exact .inr ⟨_, read⟩

/-- What an optional field holds was read, and not from null. -/
theorem read_of_optional {o : Option α} (read : fs.optional k f = some o) :
    ∀ a ∈ o, ∃ v, v ≠ .null ∧ f v = some a := by
  rintro a rfl
  unfold optional at read
  split at read
  · cases Option.some.inj read
  · cases Option.some.inj read
  · next v there _ =>
    obtain ⟨b, back, same⟩ := Option.map_eq_some_iff.1 read
    obtain rfl := Option.some.inj same
    refine ⟨v, ?_, back⟩
    rintro rfl
    contradiction

end Fields

end Json
end BackupAdmin
