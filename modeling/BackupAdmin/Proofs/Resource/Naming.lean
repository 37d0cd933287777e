import BackupAdmin.Proofs.Text.Splitting
import BackupAdmin.Resource.Name
import Mathlib.Computability.Language

/-! Ids and the names made of them. Main statement: the ids that may be used are the words of a
pattern, a name tells the instance and the id that it was made of, and an instance owns the names in
it and no others. -/
namespace BackupAdmin
open Text
open scoped Computability

section
variable {id : String} {cs : List Char}

/-- A character that may stand inside an id. -/
def isIdPart (c : Char) : Bool := isSmallOrDigit c || c == '_' || c == '-'

/-- The words of one character that is of a kind. -/
def oneOf (kind : Char → Bool) : Language Char := {word | ∃ c, kind c = true ∧ word = [c]}

/-- The pattern of ids: `[a-z][a-z0-9_-]*[a-z0-9]`. -/
def idPattern : Language Char := oneOf isSmall * (oneOf isIdPart)∗ * oneOf isSmallOrDigit

theorem mem_kstar_oneOf {kind : Char → Bool} :
    cs ∈ (oneOf kind)∗ ↔ ∀ c ∈ cs, kind c = true := by
  rw [Language.mem_kstar]
  constructor
  · rintro ⟨words, rfl, each⟩ c mem
    obtain ⟨word, here, inside⟩ := List.mem_flatten.1 mem
    obtain ⟨d, ofKind, rfl⟩ := each word here
    rwa [List.mem_singleton.1 inside]
  · intro all
    refine ⟨cs.map fun c => [c], by simp [← List.flatMap_def], fun word here => ?_⟩
    obtain ⟨c, mem, rfl⟩ := List.mem_map.1 here
    exact ⟨c, all c mem, rfl⟩

theorem cons_concat_mem_idPattern {first last : Char} {inside : List Char} :
    first :: (inside ++ [last]) ∈ idPattern ↔
      isSmall first = true ∧ (∀ c ∈ inside, isIdPart c = true) ∧ isSmallOrDigit last = true := by
  constructor
  · rintro ⟨_, ⟨_, ⟨f, small, rfl⟩, between, kept, rfl⟩, _, ⟨l, ends, rfl⟩, same⟩
    have same : f :: (between ++ [l]) = first :: (inside ++ [last]) := by simpa using same
    simp only [List.cons.injEq, List.append_singleton_inj] at same
    obtain ⟨rfl, rfl, rfl⟩ := same
    exact ⟨small, mem_kstar_oneOf.1 kept, ends⟩
  · rintro ⟨small, kept, ends⟩
    exact ⟨_, ⟨[first], ⟨first, small, rfl⟩, inside, mem_kstar_oneOf.2 kept, rfl⟩, [last],
      ⟨last, ends, rfl⟩, by simp⟩

/-- What has two characters has a first and a last one. -/
theorem exists_ends (two : 2 ≤ cs.length) : ∃ first inside last, cs = first :: (inside ++ [last]) := by
  match cs, two with
  | first :: c :: rest, _ =>
    refine ⟨first, (c :: rest).dropLast, (c :: rest).getLast nofun, ?_⟩
    rw [List.dropLast_append_getLast]

/-- A text with two characters follows the pattern if its ends and all its characters do. -/
theorem mem_idPattern_iff (two : 2 ≤ cs.length) : cs ∈ idPattern ↔
    cs.head?.any isSmall = true ∧ cs.getLast?.any isSmallOrDigit = true ∧
      cs.all isIdPart = true := by
  obtain ⟨first, inside, last, rfl⟩ := exists_ends two
  have ends : (first :: (inside ++ [last])).getLast? = some last := by
    rw [← List.cons_append, List.getLast?_concat]
  simp only [cons_concat_mem_idPattern, ends, List.head?_cons, Option.any_some, List.all_eq_true,
    List.forall_mem_cons, List.forall_mem_append]
  constructor
  · rintro ⟨small, kept, digit⟩
    exact ⟨small, digit, by simp [isIdPart, isSmallOrDigit, small], kept,
      by simp [isIdPart, digit], nofun⟩
  · rintro ⟨small, digit, -, kept, -⟩
    exact ⟨small, kept, digit⟩

/-- The ids that may be used have between two and sixty characters and follow the pattern. -/
theorem idFault?_eq_none_iff :
    idFault? id = none ↔ 2 ≤ id.length ∧ id.length ≤ 60 ∧ id.toList ∈ idPattern := by
  rw [← String.length_toList]
  unfold idFault?
  dsimp only
  split
  case isTrue out =>
    simp only [Bool.or_eq_true, decide_eq_true_eq] at out
    simp only [reduceCtorEq, false_iff]
    omega
  case isFalse fits =>
    simp only [Bool.or_eq_true, decide_eq_true_eq, not_or, Nat.not_lt] at fits
    simp only [fits, true_and, mem_idPattern_iff fits.1, ← Bool.and_eq_true, ← Bool.and_assoc]
    split
    case isTrue plain => exact iff_of_true rfl plain
    case isFalse other => exact iff_of_false nofun other

end

/-! ### Names -/

/-- The parts that an instance is named by are free of slashes. -/
structure Instance.Plain (i : Instance) : Prop where
  project : '/' ∉ i.project.toList
  id : '/' ∉ i.id.toList

section
variable {i j : Instance} {a b : String}

/-- What does not stand in an id that may be used. -/
theorem notMem_of_idFault? {id : String} (usable : idFault? id = none) {c : Char}
    (other : isIdPart c = false) : c ∉ id.toList := fun mem =>
  Bool.false_ne_true (other.symm.trans (chars_of_idFault? usable c mem))

theorem slash_notMem_of_idFault? {id : String} (usable : idFault? id = none) : '/' ∉ id.toList :=
  notMem_of_idFault? usable (by decide)

theorem toList_backupName (i : Instance) (id : String) :
    (i.backupName id).toList = i.name.toList ++ '/' :: ("backups".toList ++ '/' :: id.toList) := by
  simp [Instance.backupName]

theorem toList_databaseName (i : Instance) (id : String) :
    (i.databaseName id).toList =
      i.name.toList ++ '/' :: ("databases".toList ++ '/' :: id.toList) := by
  simp [Instance.databaseName]

/-- A text that begins with an instance's name and a slash tells the instance and what follows. -/
theorem name_append_inj (plain : i.Plain) (plain' : j.Plain) {as bs : List Char} :
    i.name.toList ++ '/' :: as = j.name.toList ++ '/' :: bs ↔ i = j ∧ as = bs := by
  have parts (i : Instance) (as : List Char) : i.name.toList ++ '/' :: as =
      "projects/".toList ++ (i.project.toList ++ '/' :: ("instances/".toList ++
        (i.id.toList ++ '/' :: as))) := by
    simp [Instance.name]
  rw [parts, parts, List.append_cancel_left_eq,
    append_sep_inj plain.project plain'.project, List.append_cancel_left_eq,
    append_sep_inj plain.id plain'.id]
  rw [String.toList_inj, String.toList_inj, Instance.mk.injEq, and_assoc]

/-- An instance owns a text that begins with its own name and a slash, but none that begins with
that of another instance. -/
theorem owns_iff {name : String} {rest : List Char} (plain : i.Plain) (plain' : j.Plain)
    (begins : name.toList = i.name.toList ++ '/' :: rest) : j.owns name = true ↔ i = j := by
  rw [Instance.owns, List.isPrefixOf_iff_prefix, begins]
  constructor
  · rintro ⟨more, same⟩
    rw [List.append_assoc, List.singleton_append] at same
    exact ((name_append_inj plain' plain).1 same).1.symm
  · rintro rfl
    exact ⟨rest, by simp⟩

theorem backupName_inj (plain : i.Plain) (plain' : j.Plain) :
    i.backupName a = j.backupName b ↔ i = j ∧ a = b := by
  rw [← String.toList_inj, toList_backupName, toList_backupName, name_append_inj plain plain',
    List.append_cancel_left_eq, List.cons_inj_right, String.toList_inj]

theorem databaseName_inj (plain : i.Plain) (plain' : j.Plain) :
    i.databaseName a = j.databaseName b ↔ i = j ∧ a = b := by
  rw [← String.toList_inj, toList_databaseName, toList_databaseName, name_append_inj plain plain',
    List.append_cancel_left_eq, List.cons_inj_right, String.toList_inj]

theorem backupName_ne_databaseName (plain : i.Plain) (plain' : j.Plain) :
    i.backupName a ≠ j.databaseName b := by
  intro same
  rw [← String.toList_inj, toList_backupName, toList_databaseName,
    name_append_inj plain plain'] at same
  exact absurd (List.cons.inj same.2).1 (by decide)

theorem shortName_backupName (i : Instance) (usable : idFault? a = none) :
    shortName (i.backupName a) = a := by
  rw [shortName, toList_backupName, ← List.cons_append, ← List.append_assoc,
    lastPiece_append _ (slash_notMem_of_idFault? usable), String.ofList_toList]

theorem shortName_databaseName (i : Instance) (usable : idFault? a = none) :
    shortName (i.databaseName a) = a := by
  rw [shortName, toList_databaseName, ← List.cons_append, ← List.append_assoc,
    lastPiece_append _ (slash_notMem_of_idFault? usable), String.ofList_toList]

end

/-- The names that an instance gives to a backup and to a database. -/
inductive Instance.Names (i : Instance) (id : String) : String → Prop
  | backup : Names i id (i.backupName id)
  | database : Names i id (i.databaseName id)

theorem Instance.Names.exists_rest {i : Instance} {id name : String} (h : i.Names id name) :
    ∃ rest, name.toList = i.name.toList ++ '/' :: rest := by
  cases h with
  | backup => exact ⟨_, toList_backupName i id⟩
  | database => exact ⟨_, toList_databaseName i id⟩

/-- The ids that may be used are the words of the pattern with two to sixty characters. Where the
parts of instances are free of slashes, a name tells whether it is a backup's or a database's, its
instance and its id, which is its last part; and an instance owns a name, and an operation under
it, exactly when the name was made in it. -/
theorem names_unambiguous :
    (∀ id, idFault? id = none ↔ 2 ≤ id.length ∧ id.length ≤ 60 ∧ id.toList ∈ idPattern) ∧
    ∀ i j : Instance, i.Plain → j.Plain →
      ∀ a b, idFault? a = none → idFault? b = none →
        shortName (i.backupName a) = a ∧ shortName (i.databaseName a) = a ∧
        (i.backupName a = j.backupName b ↔ i = j ∧ a = b) ∧
        (i.databaseName a = j.databaseName b ↔ i = j ∧ a = b) ∧
        i.backupName a ≠ j.databaseName b ∧
        ∀ name, i.Names a name → (j.owns name = true ↔ i = j) ∧
          ∀ operation, (j.owns (name ++ "/operations/" ++ operation) = true ↔ i = j) := by
  refine ⟨fun id => idFault?_eq_none_iff, fun i j plain plain' a b usable _ =>
    ⟨shortName_backupName i usable, shortName_databaseName i usable,
      backupName_inj plain plain', databaseName_inj plain plain',
      backupName_ne_databaseName plain plain', fun name named => ?_⟩⟩
  obtain ⟨rest, begins⟩ := named.exists_rest
  refine ⟨owns_iff plain plain' begins, fun operation => ?_⟩
  have under : (name ++ "/operations/" ++ operation).toList =
      i.name.toList ++ '/' :: (rest ++ ("/operations/" ++ operation).toList) := by
    simp [begins]
  exact owns_iff plain plain' under

/-- The id of one instance is the beginning of the other's. -/
theorem names_unambiguous_beginning :
    let i : Instance := ⟨"p", "main-2"⟩
    let j : Instance := ⟨"p", "main"⟩
    (i.Plain ∧ j.Plain ∧ idFault? "b1" = none) ∧ j.owns (i.backupName "b1") = false ∧
      j.owns (i.databaseName "b1" ++ "/operations/" ++ "op-1") = false := by
  intro i j
  have plain : i.Plain := ⟨by decide, by decide⟩
  have plain' : j.Plain := ⟨by decide, by decide⟩
  have usable : idFault? "b1" = none := by decide
  have apart : i ≠ j := by decide
  obtain ⟨-, -, -, -, -, owned⟩ := names_unambiguous.2 i j plain plain' "b1" "b1" usable usable
  have backup := (owned _ .backup).1
  have operation := (owned _ .database).2 "op-1"
  exact ⟨⟨plain, plain', usable⟩, Bool.eq_false_iff.2 fun h => apart (backup.1 h),
    Bool.eq_false_iff.2 fun h => apart (operation.1 h)⟩

end BackupAdmin
