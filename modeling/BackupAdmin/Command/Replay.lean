import BackupAdmin.Command.Run

/-! A run in steps: given the answers to its questions so far, it asks the next one or ends. -/
namespace BackupAdmin

inductive Question where
  | read (path : String)
  | makeDirs (path : String)
  | write (path text : String)
  | send (q : Web.Request)
  | line (shown : String)

inductive Answer where
  | read (r : Option (Except FileFault String))
  | changed (r : Except FileFault Unit)
  | delivered (d : Web.Delivery)
  | line (s : String)

/-- The answers that are left, and the first question that had none. -/
structure Replay where
  answers : List Answer
  question : Option Question := none

namespace Replay

/-- Answers a question with the next answer, if that is of its kind. Behind a question without
an answer all others get the same default. -/
def reply {α : Type} (q : Question) (default : α) (f : Answer → Option α) : StateM Replay α :=
  fun r => match r.answers, r.question with
    | a :: rest, none => ((f a).getD default, { r with answers := rest })
    | _, _ => (default, { answers := [], question := r.question <|> some q })

def machine : Machine Replay where
  disk := {
    read := fun path => reply (.read path) none fun
      | .read r => some r
      | _ => none
    makeDirs := fun path => reply (.makeDirs path) (.ok ()) fun
      | .changed r => some r
      | _ => none
    write := fun path text => reply (.write path text) (.ok ()) fun
      | .changed r => some r
      | _ => none }
  send := fun q => reply (.send q) ⟨none, 0⟩ fun
    | .delivered d => some d
    | _ => none
  ask := fun shown => reply (.line shown) "" fun
    | .line s => some s
    | _ => none

end Replay

/-- A run as far as the answers take it, and its next question unless it has ended. -/
def Program.resume (now : Instant) (e : Environment) (words : List String) (answers : List Answer) :
    Option (Outcome × Option Question) := do
  let (o, r) ← Program.run Replay.machine now e words { answers }
  return (o, r.question)

end BackupAdmin
