import BackupAdmin.Admin.Request
import BackupAdmin.Memory.Service
import BackupAdmin.Proofs.Resource.Naming
import BackupAdmin.Workflow.Basic

/-! The statements that create a database and set its retention period. Main statements: a client
and a service in memory read the id in them that was written, and the service reads the period up to
the first quote. -/
namespace BackupAdmin.Memory
open Text

variable {id : String}

theorem toList_ne_nil_of_idFault? (usable : idFault? id = none) : id.toList ≠ [] := by
  intro empty
  simp [idFault?, empty] at usable

/-- The statement that creates a database. -/
def creation (id : String) : String := "CREATE DATABASE `" ++ id ++ "`"

theorem toList_creation (id : String) :
    (creation id).toList = "CREATE DATABASE".toList ++ ' ' :: '`' :: (id.toList ++ ['`']) := by
  have text : creation id = "CREATE DATABASE `" ++ id ++ "`" := rfl
  simp [text]

theorem trim_creation (id : String) : trim (creation id).toList = (creation id).toList := by
  have ends : (creation id).toList.getLast? = some '`' := by
    rw [toList_creation, ← List.cons_append, ← List.cons_append, ← List.append_assoc,
      List.getLast?_concat]
  refine trimWhile_eq_self (fun c first => ?_) fun c last => ?_
  · rw [toList_creation, List.head?_append_of_ne_nil _ (by decide)] at first
    exact forall_mem_of_all? (P := fun c => isBlank c = false) (by decide) c first
  · rw [ends] at last
    cases last
    decide

theorem trimQuotes_quoted (usable : idFault? id = none) :
    trimWhile (· = '`') ('`' :: (id.toList ++ ['`'])) = id.toList :=
  trimWhile_enclosed (by decide) (by decide) fun c mem => decide_eq_false fun quote =>
    notMem_of_idFault? usable (by decide : isIdPart '`' = false) (quote ▸ mem : '`' ∈ id.toList)

/-- A client reads the id in the statement that it was written with. -/
theorem statementId?_creation (usable : idFault? id = none) :
    Request.statementId? (creation id) = some id := by
  have words : ((creation id).toList).take Request.createWords.length =
      "CREATE DATABASE".toList := by
    rw [toList_creation]
    exact List.take_left' (by decide)
  have behind : ((creation id).toList).drop Request.createWords.length =
      ' ' :: '`' :: (id.toList ++ ['`']) := by
    rw [toList_creation]
    exact List.drop_left' (by decide)
  have fold : equalFold "CREATE DATABASE".toList Request.createWords = true := by decide
  have trimmed : trim (' ' :: '`' :: (id.toList ++ ['`'])) = '`' :: (id.toList ++ ['`']) := by
    refine (trimWhile_cons (by decide) _).trans (trimWhile_eq_self (fun c first => ?_)
      fun c last => ?_)
    · cases first
      decide
    · rw [← List.cons_append, List.getLast?_concat] at last
      cases last
      decide
  have nonempty : id.toList.isEmpty = false := by simpa using toList_ne_nil_of_idFault? usable
  simp only [Request.statementId?, trim_creation, words, behind, fold, if_true, trimmed,
    trimQuotes_quoted usable, nonempty, Bool.false_eq_true, if_false, String.ofList_toList]

/-- A service reads the same id as the last word. -/
theorem lastWord_creation (usable : idFault? id = none) : Script.lastWord (creation id) = id := by
  have no_space : ' ' ∉ '`' :: (id.toList ++ ['`']) := by
    simp [notMem_of_idFault? usable (by decide : isIdPart ' ' = false)]
  rw [Script.lastWord, trim_creation, toList_creation, lastPiece_append _ no_space,
    trimQuotes_quoted usable, String.ofList_toList]

/-- The name of the option that a service looks for. -/
def periodOption : List Char := "version_retention_period".toList

/-- The statements of the example tables do not name the option. -/
theorem tables_without_option (id period : String) :
    ∀ statement ∈ (Workflow.retentionStatements id period).take 2,
      splitFirst? periodOption statement.toList = none := by
  have plain : ∀ statement ∈ (Workflow.retentionStatements id period).take 2,
      '_' ∉ statement.toList := by
    delta Workflow.retentionStatements
    simp only [List.take_succ_cons, List.take_zero, List.forall_mem_cons, String.toList_append,
      List.mem_append, not_or]
    refine ⟨⟨?_, ?_⟩, ⟨⟨?_, ?_⟩, ?_⟩, List.forall_mem_nil _⟩ <;> decide
  exact fun statement mem =>
    splitFirst?_eq_none (by decide : '_' ∈ periodOption) (plain statement mem)

/-- The statement that sets the period has the name of the option, and no quote before the period. -/
theorem exists_setting (usable : idFault? id = none) (period : String) :
    ∃ before statement, Workflow.retentionStatements id period =
        (Workflow.retentionStatements id period).take 2 ++ [statement] ∧
      statement.toList = before ++ '\'' :: (period.toList ++ '\'' :: [')']) ∧
      periodOption <:+: before ∧ '\'' ∉ before := by
  let before : List Char := "ALTER DATABASE `".toList ++
    (id.toList ++ "` SET OPTIONS (version_retention_period = ".toList)
  refine ⟨before, "ALTER DATABASE `" ++ id ++ "` SET OPTIONS (version_retention_period = '" ++
    period ++ "')", rfl, ?_, ?_, ?_⟩
  · simp [before]
  · have inside : periodOption <:+: "` SET OPTIONS (version_retention_period = ".toList := by
      decide +kernel
    exact inside.trans ((List.suffix_append _ _).trans (List.suffix_append _ _)).isInfix
  · have no_quote : '\'' ∉ id.toList := notMem_of_idFault? usable (by decide)
    simp only [before, List.mem_append, no_quote, false_or]
    decide +kernel

/-- The period that the statements ask for is read up to the first quote in it, also where the name
of the option stands in the id. -/
theorem retentionPeriod_retentionStatements (usable : idFault? id = none) (period : String) :
    Script.retentionPeriod (Workflow.retentionStatements id period) =
      some (String.ofList (period.toList.takeWhile (· ≠ '\''))) := by
  obtain ⟨before, statement, listed, written, inside, no_quote⟩ := exists_setting usable period
  have absent := tables_without_option id period
  -- what the other statements say matters no more, and spelled out they are long
  generalize Workflow.retentionStatements id period = statements at listed absent ⊢
  obtain ⟨first, rest, named, suffix⟩ :=
    splitFirst?_of_infix inside ('\'' :: (period.toList ++ '\'' :: [')']))
  rw [← written] at named
  have opened : splitFirst? ['\''] (rest ++ '\'' :: (period.toList ++ '\'' :: [')'])) =
      some (rest, period.toList ++ '\'' :: [')']) :=
    splitFirst?_append (fun quote => no_quote (suffix.subset quote)) [] _
  obtain ⟨behind, closed⟩ := splitFirst?_singleton '\'' period.toList [')']
  unfold Script.retentionPeriod
  unfold periodOption at named absent
  rw [listed, List.findSome?_append, List.findSome?_eq_none_iff.2, Option.none_or,
    List.findSome?_singleton]
  · simp only [named, Option.bind_eq_bind, Option.bind_some, opened, closed]
  · intro other mem
    simp only [absent other mem, Option.bind_eq_bind, Option.bind_none]

end BackupAdmin.Memory
