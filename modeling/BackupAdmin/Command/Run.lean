import BackupAdmin.Command.Backups
import BackupAdmin.Command.Completion
import BackupAdmin.Command.Profiles

/-! A run of the program: from the words of the command line to what is written. -/
namespace BackupAdmin
open Json

namespace CommandLine
variable {σ : Type}

/-- The place of the configuration: the one that is named, or the usual one. -/
def place (l : CommandLine) (e : Environment) : Option String := l.configFile <|> e.configPath?

def load (m : Machine σ) (e : Environment) (place : Option String) :
    StateM σ (Except ConfigError Config) :=
  match place with
  | some path => m.disk.load e path
  | none => return .error .configDir

def versionOutcome (choice : OutputChoice) (query : Option String) : Outcome :=
  match choice.format? query with
  | none => { output := Program.name ++ " " ++ Program.version ++ "\n" }
  | some f =>
    let value := record [("version", .string Program.version), ("name", .string Program.name)]
    match f.render query value with
    | .ok text => { output := text ++ "\n" }
    | .error e => { ending := .failed (.ofContexts [some e.message, none]) }

/-- Carries out a command line with the configuration that was loaded for it. -/
def run (m : Machine σ) (now : Instant) (e : Environment) (l : CommandLine) (c : Config) :
    StateT σ Option Outcome :=
  match l.command with
  | .version => return versionOutcome l.output l.query
  | .completions shell => return { output := shell.script }
  | .profile p => Machine.ending (p.run m (l.place e) c l.output)
  | .backup t b =>
    b.run m now (Connection.resolve c e l.configFile.isSome l.profile) l.output l.query t

end CommandLine

namespace Program
variable {σ : Type}

def help : String :=
  "Usage: " ++ name ++ " [options] <command>\n\nCommands:\n" ++
    String.join (CommandLine.grammar.inner.map fun c => "  " ++ c.name ++ "\n") ++
    "\nOptions:\n" ++
    String.join (CommandLine.grammar.options.map fun o => "  " ++ o.shown ++ "\n")

/-- A run of the program with these words on its command line. -/
def run (m : Machine σ) (now : Instant) (e : Environment) (words : List String) :
    StateT σ Option Outcome := do
  match CommandLine.read e words with
  | .error .help => return { output := help, ending := .refused .help }
  | .error .version => return { output := name ++ " " ++ version ++ "\n", ending := .refused .version }
  | .error f => return { ending := .refused f }
  | .ok l => match ← Machine.ending (CommandLine.load m e (l.place e)) with
    | .error fault => return { ending := .unloaded fault }
    | .ok c => l.run m now e c

end Program
end BackupAdmin
