import BackupAdmin.Proofs.Toml.Tables

/-! What is printed is read back. Main statement: reading undoes printing for every table of texts,
numbers and such tables. -/
namespace BackupAdmin.Toml

section
variable {ms : List (String × Json)} {v : Json} {l : Line}

theorem Orderly.leaf_of (orderly : Orderly v) (plain : isTable v = false) : Leaf v := by
  cases orderly with
  | leaf h => exact h
  | table => contradiction

/-- Leaves with tables behind them. -/
theorem Orderly.append {a b : List (String × Json)} (leaves : ∀ m ∈ a, Leaf m.2)
    (tables : ∀ m ∈ b, isTable m.2 = true ∧ Orderly m.2)
    (distinct : ((a ++ b).map (·.1)).Nodup) : Orderly (.object (a ++ b)) := by
  refine .table distinct ?_ (List.forall_mem_append.2
    ⟨fun m mem => .leaf (leaves m mem), fun m mem => (tables m mem).2⟩)
  have noTable : a.filter (isTable ·.2) = [] ∧ a.filter (!isTable ·.2) = a := by
    constructor
    · exact List.filter_eq_nil_iff.2 fun m mem => by simp [isTable_leaf (leaves m mem)]
    · exact List.filter_eq_self.2 fun m mem => by simp [isTable_leaf (leaves m mem)]
  have allTables : b.filter (isTable ·.2) = b ∧ b.filter (!isTable ·.2) = [] := by
    constructor
    · exact List.filter_eq_self.2 fun m mem => (tables m mem).1
    · exact List.filter_eq_nil_iff.2 fun m mem => by simp [(tables m mem).1]
  simp [noTable, allTables]

/-- All that is printed are headers with a name, and leaves. -/
theorem plain_sectionLines (orderly : Orderly v) (path : List String) :
    ∀ l ∈ (sectionLines path v).flatten, l.Plain := by
  induction orderly generalizing path with
  | leaf h => simp [sectionLines_eq_nil (isTable_leaf h)]
  | @table ms distinct ordered members ih =>
    have header : ∀ l ∈ (if path.isEmpty then [] else [Line.header path]), l.Plain := by
      intro l mem
      split at mem
      · contradiction
      · next named =>
        rw [List.mem_singleton.1 mem]
        exact .header (by simpa using named)
    have own : ∀ l ∈ ownPairs ms, l.Plain := by
      intro l own
      obtain ⟨m, mem, rfl⟩ := List.mem_map.1 own
      obtain ⟨there, plain⟩ := List.mem_filter.1 mem
      exact .pair m.1 ((members m there).leaf_of (by simpa using plain))
    have inner : ∀ l ∈ (innerLines path ms).flatten, l.Plain := by
      clear own distinct ordered
      induction ms with
      | nil => simp [innerLines]
      | cons m ms next =>
        obtain ⟨first, rest⟩ := List.forall_mem_cons.1 ih
        rw [innerLines, List.flatten_append]
        exact List.forall_mem_append.2 ⟨first (path ++ [m.1]),
          next (List.forall_mem_cons.1 members).2 rest⟩
    rw [sectionLines, List.flatten_append]
    refine List.forall_mem_append.2 ⟨?_, inner⟩
    split
    · simp
    · rw [List.flatten_singleton]
      exact List.forall_mem_append.2 ⟨header, own⟩

/-- Between the sections of a document there are only blank lines. -/
theorem mem_documentLines (mem : l ∈ documentLines v) :
    l = .blank ∨ l ∈ (sectionLines [] v).flatten := by
  rw [documentLines] at mem
  generalize sectionLines [] v = sections at mem
  induction sections with
  | nil => simp [List.intercalate] at mem
  | cons ls rest ih =>
    cases rest with
    | nil => exact .inr (by simpa [List.intercalate] using mem)
    | cons ls' rest =>
      rw [intercalate_cons_cons] at mem
      rw [List.flatten_cons, List.mem_append]
      rcases List.mem_append.1 mem with own | later
      · exact .inr (.inl own)
      · rcases List.mem_cons.1 later with rfl | later
        · exact .inl rfl
        · exact (ih later).imp_right .inr

theorem plain_documentLines (orderly : Orderly v) : ∀ l ∈ documentLines v, l.Plain := by
  intro l mem
  rcases mem_documentLines mem with rfl | mem
  · exact .blank
  · exact plain_sectionLines orderly [] l mem

/-- The lines of a document make its nodes. -/
theorem run_documentLines (orderly : Orderly (.object ms)) :
    Leads {} (documentLines (.object ms)) (leafNodes ms ++ tableNodes ms) := by
  cases orderly with
  | leaf h => cases h
  | table distinct ordered members =>
    have root : Fresh [] := by simp [Fresh]
    have own : (ownPairs ms).foldlM Line.apply {} = some ⟨leafNodes ms, []⟩ :=
      run_ownPairs (Q := []) root distinct (by simp [Absent])
    have inner : Leads ⟨leafNodes ms, []⟩ (innerLines [] ms).flatten
        (leafNodes ms ++ tableNodes ms) :=
      leads_inner (fun m mem table => lands (members m mem) table m.1) root distinct
        (fun m mem => absent_leafNodes distinct mem) []
    have split : (sectionLines [] (.object ms)).flatten =
        ownPairs ms ++ (innerLines [] ms).flatten := by
      rw [sectionLines]
      cases pairs : ownPairs ms <;> simp
    obtain ⟨here, run⟩ := Leads.append own inner
    exact ⟨here, by rw [documentLines, foldlM_intercalate, split, run]⟩

theorem membersJson_append (ms ns : Members) :
    membersJson (ms ++ ns) = membersJson ms ++ membersJson ns := by
  induction ms with
  | nil => rfl
  | cons m ms ih => rw [List.cons_append, membersJson, membersJson, ih, List.cons_append]

theorem membersJson_leafNodes (ms : List (String × Json)) :
    membersJson (leafNodes ms) = ms.filter (!isTable ·.2) := by
  rw [leafNodes]
  generalize ms.filter (!isTable ·.2) = ls
  induction ls with
  | nil => rfl
  | cons l ls ih => rw [List.map_cons, membersJson, ih, Node.toJson]

theorem membersJson_tableNodes (same : ∀ m ∈ ms, (nodeOf m.2).toJson = m.2) :
    membersJson (tableNodes ms) = ms.filter (isTable ·.2) := by
  induction ms with
  | nil => rfl
  | cons m ms ih =>
    obtain ⟨k, v⟩ := m
    obtain ⟨first, same⟩ := List.forall_mem_cons.1 same
    rw [tableNodes, membersJson_append, ih same]
    cases table : isTable v <;> simp [table, membersJson, first]

theorem membersJson_nodes (ordered : ms.filter (!isTable ·.2) ++ ms.filter (isTable ·.2) = ms)
    (same : ∀ m ∈ ms, (nodeOf m.2).toJson = m.2) :
    membersJson (leafNodes ms ++ tableNodes ms) = ms := by
  rw [membersJson_append, membersJson_leafNodes, membersJson_tableNodes same, ordered]

/-- The nodes of a value stand for it. -/
theorem toJson_nodeOf (orderly : Orderly v) : (nodeOf v).toJson = v := by
  induction orderly with
  | leaf h => cases h <;> rfl
  | table distinct ordered members ih =>
    rw [nodeOf, Node.toJson, membersJson_nodes ordered ih]

/-- No line begins with a mark of the byte order. -/
theorem head?_chars (plain : l.Plain) (rest : List Char) :
    ∀ c ∈ (l.chars ++ rest).head?, c ≠ '\uFEFF' := by
  cases plain with
  | blank => simp [Line.chars]
  | header => simp [Line.chars]
  | pair k =>
    have key : ∃ c cs, keyText k = c :: cs ∧ c ≠ '\uFEFF' := by
      unfold keyText
      dsimp only
      split
      · next bare =>
        obtain ⟨some, bare⟩ := Bool.and_eq_true_iff.1 bare
        obtain ⟨c, cs, chars⟩ := List.exists_cons_of_ne_nil (l := k.toList) (by simpa using some)
        refine ⟨c, cs, chars, ?_⟩
        rw [chars] at bare
        rintro rfl
        exact absurd (List.all_eq_true.1 bare _ List.mem_cons_self) (by decide)
      · split
        · exact ⟨_, _, rfl, by decide⟩
        · split <;> exact ⟨_, _, rfl, by decide⟩
    obtain ⟨c, cs, chars, ne⟩ := key
    simp [Line.chars, chars, ne]

/-- Reading undoes printing. -/
theorem read_text (orderly : Orderly (.object ms)) :
    read (text (.object ms)) = some (.object ms) := by
  have plain := plain_documentLines orderly
  obtain ⟨ts, tokenized, length, reads⟩ := reads_lines plain
  obtain ⟨here, run⟩ := run_documentLines orderly
  have members : membersJson (leafNodes ms ++ tableNodes ms) = ms := by
    cases orderly with
    | leaf h => cases h
    | table _ ordered members =>
      exact membersJson_nodes ordered fun m mem => toJson_nodeOf (members m mem)
  have unmarked (cs : List Char) : (text (.object ms)).toList ≠ '\uFEFF' :: cs := by
    intro marked
    rw [toList_text] at marked
    cases lines : documentLines (.object ms) with
    | nil => simp [lines] at marked
    | cons l ls =>
      rw [lines, List.flatMap_cons] at marked
      exact head?_chars (plain l (lines ▸ List.mem_cons_self)) _ _ (by rw [marked]; rfl) rfl
  -- by `unmarked`, nothing is skipped in front
  simp only [read]
  simp only [toList_text, tokenized, Option.bind_eq_bind, Option.bind_some,
    reads {} (ts.length + 1) (Nat.lt_succ_of_le length), run, members]

end

end BackupAdmin.Toml
