import BackupAdmin.Proofs.Toml.Lines
import Mathlib.Data.List.Nodup

/-! Tables within tables that are read back. Main statement: what is printed of a table, with the
values in it before the tables in it, is read as that table. -/
namespace BackupAdmin.Toml

/-- No member has the name. -/
def Absent (k : String) (ms : Members) : Prop := ∀ m ∈ ms, m.1 ≠ k

section
variable {k : String} {ms : Members} {n n' : Node}

theorem Absent.any (absent : Absent k ms) : ms.any (·.1 = k) = false := by
  simpa using fun l n mem => absent (l, n) mem

theorem Absent.lookup_append (absent : Absent k ms) (ms' : Members) :
    (ms ++ ms').lookup k = ms'.lookup k := by
  induction ms with
  | nil => rfl
  | cons m ms ih =>
    obtain ⟨ne, absent⟩ := List.forall_mem_cons.1 absent
    have other : (k == m.1) = false := by simpa using Ne.symm ne
    rw [List.cons_append, List.lookup_cons, other]
    exact ih absent

theorem Absent.lookup (absent : Absent k ms) : ms.lookup k = none := by
  simpa using absent.lookup_append []

theorem Absent.lookup_last (absent : Absent k ms) (n : Node) :
    (ms ++ [(k, n)]).lookup k = some n := by
  rw [absent.lookup_append, List.lookup_cons_self]

theorem Absent.setMember_last (absent : Absent k ms) (n n' : Node) :
    setMember k n' (ms ++ [(k, n)]) = ms ++ [(k, n')] := by
  have there : (ms ++ [(k, n)]).any (·.1 = k) = true := by simp
  have kept : (ms.map fun m => if m.1 = k then (k, n') else m) = ms :=
    (List.map_congr_left fun m mem => if_neg (absent m mem)).trans (List.map_id' ms)
  rw [setMember, if_pos there, List.map_append, kept]
  simp

end

/-- A table on the way to another one: what stands before it, its name, and whether no header has
named it so far. -/
structure Frame where
  before : Members
  name : String
  implied : Bool

/-- The document in which the members of the innermost table of a way are these. -/
def around : List Frame → Members → Members
  | [], ms => ms
  | f :: fs, ms => f.before ++ [(f.name, .table f.implied false (around fs ms))]

/-- Every table of a way has a name of its own. -/
def Fresh (fs : List Frame) : Prop := ∀ f ∈ fs, Absent f.name f.before

def names (fs : List Frame) : List String := fs.map (·.name)

section
variable {fs : List Frame} {ms P : Members} {k : String} {path : List String}

theorem around_append (fs : List Frame) (f : Frame) (ms : Members) :
    around (fs ++ [f]) ms = around fs (f.before ++ [(f.name, .table f.implied false ms)]) := by
  induction fs with
  | nil => rfl
  | cons g fs ih => rw [List.cons_append, around, ih, around]

theorem Fresh.append (fresh : Fresh fs) {f : Frame} (absent : Absent f.name f.before) :
    Fresh (fs ++ [f]) := by
  simpa [Fresh, or_imp, forall_and] using ⟨fresh, absent⟩

/-- A change of the table that a way leads to. -/
theorem changeAt_around (fresh : Fresh fs) (f : Members → Option Members) (ms : Members) :
    changeAt f (names fs) (around fs ms) = (f ms).map (around fs) := by
  induction fs with
  | nil => simp [names, changeAt, around]
  | cons g fs ih =>
    obtain ⟨absent, fresh⟩ := List.forall_mem_cons.1 fresh
    have inner := ih fresh
    simp only [names] at inner
    simp only [names, List.map_cons, changeAt, around, absent.lookup_last, inner, Option.map_map,
      Function.comp_def, absent.setMember_last]

/-- Opening a table below the one that a way leads to. -/
theorem openTable_around (fresh : Fresh fs) (ne : path ≠ []) (ms : Members) :
    openTable false (names fs ++ path) (around fs ms) =
      (openTable false path ms).map (around fs) := by
  induction fs with
  | nil => simp [names, around]
  | cons g fs ih =>
    obtain ⟨absent, fresh⟩ := List.forall_mem_cons.1 fresh
    have inner := ih fresh
    obtain ⟨k, rest, more⟩ :=
      List.exists_cons_of_ne_nil (List.append_ne_nil_of_right_ne_nil (names fs) ne)
    have split : names (g :: fs) ++ path = g.name :: k :: rest := by
      rw [← more]
      rfl
    rw [more] at inner
    simp only [split, around, openTable, absent.lookup_last, inner, Option.map_map,
      Function.comp_def, absent.setMember_last]

/-- Opening a table by a longer name implies the tables on its way. -/
theorem openTable_implied (absent : Absent k P) (ne : path ≠ []) :
    openTable false (k :: path) P =
      openTable false (k :: path) (P ++ [(k, .table true false [])]) := by
  obtain ⟨l, path, rfl⟩ := List.exists_cons_of_ne_nil ne
  simp only [openTable, absent.lookup, absent.lookup_last, absent.setMember_last]

end

/-- The lines for the members that are no tables. -/
def ownPairs (ms : List (String × Json)) : List Line :=
  (ms.filter (!isTable ·.2)).map fun m => .pair m.1 m.2

mutual
/-- The lines of the sections of a table. -/
def sectionLines (path : List String) : Json → List (List Line)
  | .object ms =>
    let own := ownPairs ms
    let header := if path.isEmpty then [] else [.header path]
    (if own.isEmpty && (path.isEmpty || !ms.isEmpty) then [] else [header ++ own]) ++
      innerLines path ms
  | _ => []
def innerLines (path : List String) : List (String × Json) → List (List Line)
  | [] => []
  | (k, v) :: ms => sectionLines (path ++ [k]) v ++ innerLines path ms
end

theorem ownLines_eq (ms : List (String × Json)) :
    ownLines ms = (ownPairs ms).flatMap Line.chars := by
  induction ms with
  | nil => rfl
  | cons m ms ih =>
    obtain ⟨k, v⟩ := m
    rw [ownLines, ih]
    cases table : isTable v <;> simp [ownPairs, table, Line.chars]

theorem isEmpty_ownLines (ms : List (String × Json)) :
    (ownLines ms).isEmpty = (ownPairs ms).isEmpty := by
  rw [ownLines_eq]
  cases lines : ownPairs ms with
  | nil => rfl
  | cons l ls => cases l <;> simp [Line.chars]

mutual
theorem sections_eq (path : List String) (v : Json) :
    sections path v = (sectionLines path v).map (·.flatMap Line.chars) := by
  cases v with
  | object ms =>
    have header : (if path.isEmpty then [] else '[' :: pathText path ++ "]\n".toList) =
        (if path.isEmpty then [] else [Line.header path]).flatMap Line.chars := by
      split <;> simp [Line.chars]
    rw [sections, sectionLines, innerSections_eq path ms, isEmpty_ownLines, ownLines_eq, header,
      List.map_append, ← List.flatMap_append]
    split <;> rfl
  | _ => rfl
theorem innerSections_eq (path : List String) (ms : List (String × Json)) :
    innerSections path ms = (innerLines path ms).map (·.flatMap Line.chars) := by
  cases ms with
  | nil => rfl
  | cons m ms =>
    obtain ⟨k, v⟩ := m
    rw [innerSections, innerLines, List.map_append, sections_eq (path ++ [k]) v,
      innerSections_eq path ms]
end

theorem sectionLines_eq_nil {v : Json} (leaf : isTable v = false) (path : List String) :
    sectionLines path v = [] := by
  cases v <;> first | rfl | contradiction

/-- All lines of a document. -/
def documentLines (v : Json) : List Line := [Line.blank].intercalate (sectionLines [] v)

theorem intercalate_cons_cons {α : Type} (a : α) (l m : List α) (ls : List (List α)) :
    [a].intercalate (l :: m :: ls) = l ++ a :: [a].intercalate (m :: ls) := by
  simp [List.intercalate]

theorem toList_text (v : Json) : (text v).toList = (documentLines v).flatMap Line.chars := by
  have joined (ls : List (List Line)) : ['\n'].intercalate (ls.map (·.flatMap Line.chars)) =
      ([Line.blank].intercalate ls).flatMap Line.chars := by
    induction ls with
    | nil => rfl
    | cons l ls ih =>
      cases ls with
      | nil => simp [List.intercalate]
      | cons m ls =>
        rw [List.map_cons] at ih
        rw [List.map_cons, List.map_cons, intercalate_cons_cons, intercalate_cons_cons, ih,
          List.flatMap_append, List.flatMap_cons]
        rfl
  rw [text, String.toList_ofList, sections_eq, joined, documentLines]

/-- Blank lines do nothing. -/
theorem foldlM_intercalate (ls : List (List Line)) (d : Document) :
    ([Line.blank].intercalate ls).foldlM Line.apply d = ls.flatten.foldlM Line.apply d := by
  induction ls generalizing d with
  | nil => rfl
  | cons l ls ih =>
    cases ls with
    | nil => simp [List.intercalate]
    | cons m ls =>
      have blank (d : Document) : (Line.blank :: [Line.blank].intercalate (m :: ls)).foldlM
          Line.apply d = (m :: ls).flatten.foldlM Line.apply d := ih d
      rw [intercalate_cons_cons, List.flatten_cons, List.foldlM_append, List.foldlM_append]
      simp only [blank]

/-- Values that come back when they are printed and read: leaves, and tables of such values under
different names, with the leaves in front. -/
inductive Orderly : Json → Prop
  | leaf {v : Json} (h : Leaf v) : Orderly v
  | table {ms : List (String × Json)} (distinct : (ms.map (·.1)).Nodup)
      (ordered : ms.filter (!isTable ·.2) ++ ms.filter (isTable ·.2) = ms)
      (members : ∀ m ∈ ms, Orderly m.2) : Orderly (.object ms)

/-- The members that are no tables, as they are read. -/
def leafNodes (ms : List (String × Json)) : Members :=
  (ms.filter (!isTable ·.2)).map fun m => (m.1, .leaf m.2)

mutual
/-- A value as it is read: a table is only implied when it holds nothing but tables. -/
def nodeOf : Json → Node
  | .object ms =>
    .table ((ownPairs ms).isEmpty && !ms.isEmpty) false (leafNodes ms ++ tableNodes ms)
  | v => .leaf v
def tableNodes : List (String × Json) → Members
  | [] => []
  | (k, v) :: ms => (if isTable v then [(k, nodeOf v)] else []) ++ tableNodes ms
end

/-- The lines lead from a document to a place of another one. -/
def Leads (d : Document) (ls : List Line) (ms : Members) : Prop :=
  ∃ here, ls.foldlM Line.apply d = some ⟨ms, here⟩

section
variable {fs : List Frame} {ms : List (String × Json)} {P Q R : Members} {k : String} {v : Json}
  {path here : List String} {ls ls' : List Line} {d : Document}

theorem Leads.append (h : ls.foldlM Line.apply d = some ⟨Q, here⟩) (h' : Leads ⟨Q, here⟩ ls' R) :
    Leads d (ls ++ ls') R := by
  obtain ⟨there, run⟩ := h'
  exact ⟨there, by rw [List.foldlM_append, h]; exact run⟩

/-- The lines of a table's own members add them to it. -/
theorem run_ownPairs (fresh : Fresh fs) (distinct : (ms.map (·.1)).Nodup)
    (apart : ∀ m ∈ ms, Absent m.1 Q) :
    (ownPairs ms).foldlM Line.apply ⟨around fs Q, names fs⟩ =
      some ⟨around fs (Q ++ leafNodes ms), names fs⟩ := by
  induction ms generalizing Q with
  | nil => simp [ownPairs, leafNodes]
  | cons m ms ih =>
    obtain ⟨k, v⟩ := m
    obtain ⟨new, distinct⟩ := List.nodup_cons.1 distinct
    obtain ⟨absent, apart⟩ := List.forall_mem_cons.1 apart
    cases table : isTable v with
    | true =>
      have own : ownPairs ((k, v) :: ms) = ownPairs ms := by simp [ownPairs, table]
      have leaves : leafNodes ((k, v) :: ms) = leafNodes ms := by simp [leafNodes, table]
      rw [own, leaves]
      exact ih distinct apart
    | false =>
      have own : ownPairs ((k, v) :: ms) = .pair k v :: ownPairs ms := by simp [ownPairs, table]
      have leaves : leafNodes ((k, v) :: ms) = (k, .leaf v) :: leafNodes ms := by
        simp [leafNodes, table]
      have added : Line.apply ⟨around fs Q, names fs⟩ (.pair k v) =
          some ⟨around fs (Q ++ [(k, .leaf v)]), names fs⟩ := by
        simp [Line.apply, changeAt_around fresh, addValue, absent.any]
      have apart' : ∀ m ∈ ms, Absent m.1 (Q ++ [(k, .leaf v)]) := by
        intro m mem
        refine List.forall_mem_append.2 ⟨apart m mem, ?_⟩
        have ne : k ≠ m.1 := fun same => new (List.mem_map.2 ⟨m, mem, same.symm⟩)
        simpa using ne
      rw [own, leaves, List.foldlM_cons, added]
      have rest := ih distinct apart'
      rw [List.append_assoc] at rest
      exact rest

theorem flatten_implied (implied : ((ownPairs ms).isEmpty && !ms.isEmpty) = true)
    (path : List String) :
    (sectionLines path (.object ms)).flatten = (innerLines path ms).flatten := by
  obtain ⟨own, some⟩ := Bool.and_eq_true_iff.1 implied
  rw [sectionLines, own, some, Bool.or_true, Bool.true_and, if_pos rfl, List.nil_append]

theorem flatten_named (named : ((ownPairs ms).isEmpty && !ms.isEmpty) = false) (ne : path ≠ []) :
    (sectionLines path (.object ms)).flatten =
      .header path :: (ownPairs ms ++ (innerLines path ms).flatten) := by
  have some : path.isEmpty = false := by simpa using ne
  rw [sectionLines, some, Bool.false_or, named]
  rfl

/-- A table that is only implied has a table for its first member. -/
theorem exists_cons_of_implied (implied : ((ownPairs ms).isEmpty && !ms.isEmpty) = true) :
    ∃ k v rest, ms = (k, v) :: rest ∧ isTable v = true := by
  cases ms with
  | nil => simp at implied
  | cons m ms =>
    obtain ⟨k, v⟩ := m
    refine ⟨k, v, ms, rfl, ?_⟩
    cases table : isTable v with
    | true => rfl
    | false => simp [ownPairs, table] at implied

/-- What is printed of a table begins with a header of it or of a table in it. -/
theorem exists_header (orderly : Orderly v) (table : isTable v = true) (ne : path ≠ []) :
    ∃ more rest, (sectionLines path v).flatten = .header (path ++ more) :: rest := by
  induction orderly generalizing path with
  | leaf h =>
    rw [isTable_leaf h] at table
    contradiction
  | @table ms distinct ordered members ih =>
    cases own : (ownPairs ms).isEmpty && !ms.isEmpty with
    | false =>
      rw [flatten_named own ne]
      exact ⟨[], _, by rw [List.append_nil]⟩
    | true =>
      obtain ⟨k, v, rest, rfl, first⟩ := exists_cons_of_implied own
      have below : path ++ [k] ≠ [] := by simp
      obtain ⟨more, lines, header⟩ := ih (k, v) List.mem_cons_self first below
      refine ⟨k :: more, lines ++ (innerLines path rest).flatten, ?_⟩
      rw [flatten_implied own, innerLines, List.flatten_append, header, List.append_assoc]
      rfl

/-- A header below a table that is not there yet does what it does when the table is implied. -/
theorem run_implied (fresh : Fresh fs) (absent : Absent k P) (more : List String) (l : String)
    (here : List String) (ls : List Line) :
    (Line.header (names fs ++ [k] ++ l :: more) :: ls).foldlM Line.apply ⟨around fs P, here⟩ =
      (Line.header (names fs ++ [k] ++ l :: more) :: ls).foldlM Line.apply
        ⟨around (fs ++ [⟨P, k, true⟩]) [], here⟩ := by
  have same : openTable false (names fs ++ [k] ++ l :: more) (around fs P) =
      openTable false (names fs ++ [k] ++ l :: more) (around (fs ++ [⟨P, k, true⟩]) []) := by
    rw [around_append, List.append_assoc, openTable_around fresh (by simp),
      openTable_around fresh (by simp), List.singleton_append,
      openTable_implied absent (by simp)]
  simp only [List.foldlM_cons, Line.apply, same]

/-- What is printed of a table below others puts it in its place. -/
def Lands (k : String) (v : Json) : Prop :=
  ∀ (fs : List Frame) (P : Members) (here : List String), Fresh fs → Absent k P →
    Leads ⟨around fs P, here⟩ (sectionLines (names fs ++ [k]) v).flatten
      (around fs (P ++ [(k, nodeOf v)]))

theorem leads_inner (lands : ∀ m ∈ ms, isTable m.2 = true → Lands m.1 m.2) (fresh : Fresh fs)
    (distinct : (ms.map (·.1)).Nodup) (apart : ∀ m ∈ ms, isTable m.2 = true → Absent m.1 Q)
    (here : List String) :
    Leads ⟨around fs Q, here⟩ (innerLines (names fs) ms).flatten
      (around fs (Q ++ tableNodes ms)) := by
  induction ms generalizing Q here with
  | nil => exact ⟨here, by simp [innerLines, tableNodes]⟩
  | cons m ms ih =>
    obtain ⟨k, v⟩ := m
    obtain ⟨first, lands⟩ := List.forall_mem_cons.1 lands
    obtain ⟨new, distinct⟩ := List.nodup_cons.1 distinct
    obtain ⟨absent, apart⟩ := List.forall_mem_cons.1 apart
    cases table : isTable v with
    | false =>
      have nodes : tableNodes ((k, v) :: ms) = tableNodes ms := by simp [tableNodes, table]
      rw [innerLines, sectionLines_eq_nil table, List.nil_append, nodes]
      exact ih lands distinct apart here
    | true =>
      obtain ⟨there, run⟩ := first table fs Q here fresh (absent table)
      have apart' : ∀ m ∈ ms, isTable m.2 = true → Absent m.1 (Q ++ [(k, nodeOf v)]) := by
        intro m mem table
        refine List.forall_mem_append.2 ⟨apart m mem table, ?_⟩
        have ne : k ≠ m.1 := fun same => new (List.mem_map.2 ⟨m, mem, same.symm⟩)
        simpa using ne
      have nodes : tableNodes ((k, v) :: ms) = (k, nodeOf v) :: tableNodes ms := by
        simp [tableNodes, table]
      rw [innerLines, List.flatten_append, nodes]
      have rest := ih lands distinct apart' there
      rw [List.append_assoc] at rest
      exact Leads.append run rest

theorem leafNodes_implied (implied : ((ownPairs ms).isEmpty && !ms.isEmpty) = true) :
    leafNodes ms = [] := by
  have none : ownPairs ms = [] := by simpa using (Bool.and_eq_true_iff.1 implied).1
  exact List.map_eq_nil_iff.2 (List.map_eq_nil_iff.1 none)

/-- Under different names no leaf has the name of a table. -/
theorem absent_leafNodes (distinct : (ms.map (·.1)).Nodup) {m : String × Json} (mem : m ∈ ms)
    (table : isTable m.2 = true) : Absent m.1 (leafNodes ms) := by
  intro node leaf same
  obtain ⟨l, mem', rfl⟩ := List.mem_map.1 leaf
  obtain ⟨there, plain⟩ := List.mem_filter.1 mem'
  have one : l = m := List.inj_on_of_nodup_map distinct there mem same
  simp [one, table] at plain

theorem lands (orderly : Orderly v) (table : isTable v = true) (k : String) : Lands k v := by
  induction orderly generalizing k with
  | leaf h =>
    rw [isTable_leaf h] at table
    contradiction
  | @table ms distinct ordered members ih =>
    intro fs P here fresh absent
    have inner := fun m mem table => ih m mem table m.1
    have way (i : Bool) : names (fs ++ [⟨P, k, i⟩]) = names fs ++ [k] := by simp [names]
    have fresh' (i : Bool) : Fresh (fs ++ [⟨P, k, i⟩]) := fresh.append absent
    cases own : (ownPairs ms).isEmpty && !ms.isEmpty with
    | true =>
      obtain ⟨there, run⟩ :=
        leads_inner inner (fresh' true) distinct (Q := []) (by simp [Absent]) here
      have node : nodeOf (.object ms) = .table true false ([] ++ tableNodes ms) := by
        rw [nodeOf, own, leafNodes_implied own]
      refine ⟨there, ?_⟩
      rw [node, ← around_append fs ⟨P, k, true⟩, ← run, way, flatten_implied own]
      -- the first line is a header below the table, which then is implied
      obtain ⟨l, v, rest, rfl, first⟩ := exists_cons_of_implied own
      have below : names fs ++ [k] ++ [l] ≠ [] := by simp
      obtain ⟨more, lines, header⟩ := exists_header (members (l, v) List.mem_cons_self) first below
      rw [innerLines, List.flatten_append, header, List.append_assoc _ [l], List.cons_append]
      exact run_implied fresh absent more l here _
    | false =>
      have opened : Line.apply ⟨around fs P, here⟩ (.header (names fs ++ [k])) =
          some ⟨around (fs ++ [⟨P, k, false⟩]) [], names fs ++ [k]⟩ := by
        simp [Line.apply, openTable_around fresh, openTable, absent.lookup, around_append]
      have added := run_ownPairs (fresh' false) distinct (Q := []) (by simp [Absent])
      obtain ⟨there, run⟩ := leads_inner inner (fresh' false) distinct (Q := leafNodes ms)
        (fun m mem => absent_leafNodes distinct mem) (names fs ++ [k])
      have node : nodeOf (.object ms) = .table false false (leafNodes ms ++ tableNodes ms) := by
        rw [nodeOf, own]
      refine ⟨there, ?_⟩
      rw [way, List.nil_append] at added
      rw [way] at run
      rw [node, ← around_append fs ⟨P, k, false⟩, ← run, flatten_named own (by simp),
        List.foldlM_cons, opened, Option.bind_eq_bind, Option.bind_some, List.foldlM_append, added,
        Option.bind_eq_bind, Option.bind_some]

end

end BackupAdmin.Toml
