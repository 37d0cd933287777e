import BackupAdmin.Admin.Request

/-! The admin service as its callers see it: a state that answers calls. -/
namespace BackupAdmin

structure PageRequest where
  filter : Option String := none
  pageSize : Option Nat := none
  token : Option String := none
deriving DecidableEq

/-- One page of a listing; `next` asks for the page after it. -/
structure Page (α : Type) where
  items : List α
  next : Option String

/-- A page from an answer, where an empty token means that no page follows. -/
def Page.ofAnswer {α : Type} (items : List α) (next : Option String) : Page α :=
  ⟨items, next.filter (· ≠ "")⟩

inductive OperationListKind where
  | backup
  | database
deriving DecidableEq

inductive Call where
  | submit (i : Instance) (r : Request)
  | getOperation (name : String)
  | cancelOperation (name : String)
  | listBackups (i : Instance) (p : PageRequest)
  | listOperations (kind : OperationListKind) (i : Instance) (p : PageRequest)
  | getBackup (name : String)
  | updateExpireTime (name : String) (t : Instant)
  | deleteBackup (name : String)
  | getDatabase (name : String)
  | dropDatabase (name : String)
deriving DecidableEq

/-- What a call is answered with when it succeeds. -/
@[reducible] def Call.Answer : Call → Type
  | .submit .. | .getOperation _ => Operation
  | .listBackups .. => Page Backup
  | .listOperations .. => Page Operation
  | .getBackup _ | .updateExpireTime .. => Backup
  | .getDatabase _ => Database
  | .cancelOperation _ | .deleteBackup _ | .dropDatabase _ => Unit

/-- The answer to a call, the time that the call took, and the state after it. -/
structure Reply (σ α : Type) where
  result : Except AdminError α
  state : σ
  took : Duration := 0

structure Service (σ : Type) where
  answer : (c : Call) → σ → Reply σ c.Answer

end BackupAdmin
