import BackupAdmin.Arguments.Reader
import BackupAdmin.Command.Error
import BackupAdmin.Config.Disk
import BackupAdmin.Program
import BackupAdmin.Web.Exchange

/-! What a run of the program needs of the outside, and how it ends. -/
namespace BackupAdmin

/-- A disk, a network, and a person who types a line when asked, over states of type `σ`. -/
structure Machine (σ : Type) where
  disk : Disk σ
  send : Web.Transport σ
  ask : String → StateM σ String

inductive Ending where
  | done
  | failed (e : CommandError)
  | unloaded (e : ConfigError)
  | refused (f : Arguments.Fault)
deriving DecidableEq

/-- What a run writes to its output after all questions, how it ends, and how long it slept. -/
structure Outcome where
  output : String := ""
  ending : Ending := .done
  slept : Duration := 0
deriving DecidableEq

/-- A part of a run that ends, as a run that may go on for ever. -/
def Machine.ending {σ α : Type} (x : StateM σ α) : StateT σ Option α := fun s => some (x s)

namespace Outcome

/-- The status: one for errors, two for a command line that cannot be carried out. -/
def status (o : Outcome) : Nat :=
  match o.ending with
  | .done | .refused .help | .refused .version => 0
  | .failed _ | .unloaded _ => 1
  | .refused _ => 2

end Outcome

def Arguments.Fault.message : Arguments.Fault → String
  | .help | .version | .commandWanted => ""
  | .commandMissing => "a command is required"
  | .commandUnknown => "unrecognized command"
  | .unknown word => "unexpected argument '" ++ word ++ "' found"
  | .valueMissing p => "a value is required for '" ++ p ++ "' but none was supplied"
  | .valueUnwanted p => "no value is taken by '" ++ p ++ "'"
  | .notOneOf p | .malformed p => "invalid value for '" ++ p ++ "'"
  | .repeated p => "the argument '" ++ p ++ "' cannot be used multiple times"
  | .missing ps => "required arguments were not provided: " ++ Text.joinWith ", " ps

def Outcome.diagnostics (o : Outcome) : String :=
  match o.ending with
  | .done | .refused .help | .refused .version => ""
  | .failed e => e.diagnostic
  | .unloaded e => match e.causes.map (·.getD "Invalid config file") with
    | [text, cause] => "Error: " ++ text ++ "\n\nCaused by:\n    " ++ cause ++ "\n"
    | texts => "Error: " ++ Text.joinWith ": " texts ++ "\n"
  | .refused .commandWanted => "usage: " ++ Program.name ++ " [options] <command>\n"
  | .refused f => "error: " ++ f.message ++ "\n"

end BackupAdmin
