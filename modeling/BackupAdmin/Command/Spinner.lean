import BackupAdmin.Admin.Session

/-! The line that shows how an operation goes on, driven by its events. -/
namespace BackupAdmin

/-- The line's text, and whether the operation has come to an end. -/
structure Spinner where
  message : String
  finished : Bool := false
deriving DecidableEq

namespace Spinner

def lineOf : Event → String
  | .started o => "Operation " ++ shortName o ++ " started"
  | .polling o (some percent) _ =>
    "Operation " ++ shortName o ++ ": " ++ toString percent.toInt ++ "% complete"
  | .polling o none _ => "Operation " ++ shortName o ++ ": running"
  | .cancelRequested o => "Cancelling operation " ++ shortName o
  | .completed o => "✓ Operation " ++ shortName o ++ " done"
  | .cancelled o => "⊘ Operation " ++ shortName o ++ " cancelled"
  | .failed o error => "✗ Operation " ++ shortName o ++ " failed: " ++ error
  | .timedOut o waited =>
    "✗ Gave up on operation " ++ shortName o ++ " after " ++ toString waited.seconds ++ "s"

/-- The line after an event; once finished it stays so. -/
def step (s : Spinner) (e : Event) : Spinner := ⟨lineOf e, s.finished || e.isFinal⟩

def run (s : Spinner) (es : List Event) : Spinner := es.foldl step s

end Spinner
end BackupAdmin
