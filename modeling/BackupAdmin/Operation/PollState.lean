import BackupAdmin.Operation.Basic
import BackupAdmin.Admin.Error

/-! What one snapshot of an operation decides for a caller that waits until a timeout. -/
namespace BackupAdmin

inductive PollState where
  | pending
  | done
  | cancelled
  | timedOut
deriving DecidableEq

namespace PollState

/-- A finished operation decides by itself; only then does the time that has passed count. -/
def evaluate (o : Operation) (elapsed timeout : Duration) : PollState :=
  if o.done then
    if o.error.any OperationError.isCancelled then .cancelled else .done
  else if timeout ≤ elapsed then .timedOut
  else .pending

def isTerminal (s : PollState) : Bool := s ≠ .pending

theorem evaluate_eq_pending_iff {o : Operation} {e t : Duration} :
    evaluate o e t = .pending ↔ o.done = false ∧ e < t := by
  unfold evaluate; split <;> split <;> simp_all

theorem evaluate_eq_timedOut_iff {o : Operation} {e t : Duration} :
    evaluate o e t = .timedOut ↔ o.done = false ∧ t ≤ e := by
  unfold evaluate; split <;> split <;> simp_all

theorem evaluate_eq_cancelled_iff {o : Operation} {e t : Duration} :
    evaluate o e t = .cancelled ↔ o.done = true ∧ ∃ x, o.error = some x ∧ x.code = 1 := by
  unfold evaluate
  split <;> split <;> simp_all [Option.any_eq_true, OperationError.isCancelled_iff]

theorem evaluate_eq_done_iff {o : Operation} {e t : Duration} :
    evaluate o e t = .done ↔ o.done = true ∧ ∀ x, o.error = some x → x.code ≠ 1 := by
  unfold evaluate
  split <;> split <;> cases h : o.error <;> simp_all [OperationError.isCancelled_iff]

end PollState

/-- How waiting for an operation ended. -/
inductive OperationResult (α : Type) where
  | success (a : α)
  | cancelled
  | failed (e : OperationError)
  | timedOut
deriving DecidableEq

namespace OperationResult
variable {α β : Type}

def isSuccess : OperationResult α → Bool
  | .success _ => true
  | _ => false

def map (f : α → β) : OperationResult α → OperationResult β
  | .success a => .success (f a)
  | .cancelled => .cancelled
  | .failed e => .failed e
  | .timedOut => .timedOut

/-- The value of a success; any other end is an error. -/
def toExcept (operation : String) (timeout : Duration) : OperationResult α → Except AdminError α
  | .success a => .ok a
  | .cancelled => .error (.operationCancelled operation)
  | .failed e => .error (.operationFailed e.code e.message)
  | .timedOut => .error (.timeout timeout)

end OperationResult

/-- How an operation ended that was asked to stop. -/
inductive CancelOutcome (α : Type) where
  | cancelled
  | completedBeforeCancel (a : α)
  | failed (e : OperationError)
deriving DecidableEq

end BackupAdmin
