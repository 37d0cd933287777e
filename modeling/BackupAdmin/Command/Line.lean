import BackupAdmin.Command.Output
import BackupAdmin.Config.Basic
import BackupAdmin.Time.Instant

/-! What a command line asks for. -/
namespace BackupAdmin

structure Target where
  instanceId : Option String
  databaseId : String
  backupId : String
deriving DecidableEq

inductive BackupCommand where
  | create (key : Option String) (version : Option Instant)
  | cancel
  | listOperations
  | list
  | update
  | restore (key : Option String)
  | listDatabaseOperations
  | delete
  | copy (source : String)
  | createDatabase (retention : String)
deriving DecidableEq

namespace BackupCommand

def name : BackupCommand → String
  | .create .. => "create-backup"
  | .cancel => "cancel-backup"
  | .listOperations => "list-backup-operations"
  | .list => "list-backups"
  | .update => "update-backup"
  | .restore _ => "restore-database"
  | .listDatabaseOperations => "list-database-operations"
  | .delete => "delete-backup"
  | .copy _ => "copy-backup"
  | .createDatabase _ => "create-database-with-version-retention-period"

def waits : BackupCommand → Bool
  | .listOperations | .list | .update | .listDatabaseOperations => false
  | _ => true

end BackupCommand

/-- What is stored in a profile; what is not given stays as it is. -/
structure ProfileSettings where
  project : String
  endpoint : String
  accessToken : Option String
  defaultInstance : Option String
  pollInterval : Option Nat
deriving DecidableEq

inductive ProfileCommand where
  | list
  | path
  | «show» (name : String)
  | set (name : String) (settings : ProfileSettings)
  | remove (name : String) (confirmed : Bool)
  | makeDefault (name : String)
deriving DecidableEq

def ProfileCommand.name : ProfileCommand → String
  | .list => "list"
  | .path => "path"
  | .show _ => "show"
  | .set .. => "set"
  | .remove .. => "remove"
  | .makeDefault _ => "default"

inductive Shell where
  | bash | zsh | fish | powerShell | elvish
deriving DecidableEq

/-- A shell as it is called on the command line, and as it calls itself. -/
def Shell.names : Shell → String × String
  | .bash => ("bash", "Bash")
  | .zsh => ("zsh", "Zsh")
  | .fish => ("fish", "Fish")
  | .powerShell => ("powershell", "PowerShell")
  | .elvish => ("elvish", "Elvish")

inductive Command where
  | version
  | completions (shell : Shell)
  | profile (c : ProfileCommand)
  | backup (target : Target) (c : BackupCommand)
deriving DecidableEq

/-- The command for a log, without any credentials. -/
def Command.describe : Command → String
  | .version => "version"
  | .completions shell => "completions " ++ shell.names.2
  | .profile c => "profile " ++ c.name ++ match c with
    | .list | .path => ""
    | .set name _ => " " ++ name ++ " [credentials redacted]"
    | .show name | .remove name _ | .makeDefault name => " " ++ name
  | .backup t c => c.name ++ " " ++ t.instanceId.getD "<default>" ++ " --database-id " ++
      t.databaseId ++ " --backup-id " ++ t.backupId

/-- A command with the options that all commands share. -/
structure CommandLine where
  profile : Option String
  configFile : Option String
  output : OutputChoice
  query : Option String
  verbosity : Nat
  command : Command
deriving DecidableEq

theorem describe_set_token (name : String) (s : ProfileSettings) (t : Option String) :
    (Command.profile (.set name { s with accessToken := t })).describe =
      (Command.profile (.set name s)).describe := rfl

end BackupAdmin
