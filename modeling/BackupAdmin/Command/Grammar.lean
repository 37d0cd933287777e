import BackupAdmin.Arguments.Reader
import BackupAdmin.Command.Line
import BackupAdmin.Program

/-! The grammar of this program's command line, and the command line that words spell. -/
namespace BackupAdmin
open Arguments

namespace CommandLine

def valueOption (key long : String) (required : Bool) (domain : Domain) : Parameter :=
  { key, long := some long, role := .value domain, required }

def profileOption : Parameter :=
  { key := "profile", long := some "profile", short := some 'p'
    envVar := some Environment.profileVar }

def configFileOption : Parameter :=
  { key := "config_file", long := some "config-file", envVar := some Environment.configFileVar }

def outputChoices : List OutputChoice := [.auto, .json, .yaml, .table]

def outputOption : Parameter :=
  { valueOption "output" "output" false (.word (outputChoices.map OutputChoice.name)) with
    short := some 'o' }

def queryOption : Parameter := { valueOption "query" "query" false .any with short := some 'q' }

def verboseOption : Parameter :=
  { key := "verbose", role := .count, long := some "verbose", short := some 'v' }

def helpOption : Parameter :=
  { key := "help", role := .help, long := some "help", short := some 'h' }

def versionOption : Parameter :=
  { key := "version", role := .version, long := some "version", short := some 'V' }

def databaseOption : Parameter := valueOption "database_id" "database-id" false .any
def backupOption : Parameter := valueOption "backup_id" "backup-id" false .any
def keyOption : Parameter := valueOption "kms_key_name" "kms-key-name" false .any
def versionTimeOption : Parameter := valueOption "version_time" "version-time" false .instant
def sourceOption : Parameter := valueOption "source_backup" "source-backup" true .any
def retentionOption : Parameter := valueOption "retention_period" "retention-period" false .any
def projectOption : Parameter := valueOption "project" "project" true .any
def endpointOption : Parameter := valueOption "endpoint" "endpoint" false .any
def tokenOption : Parameter := valueOption "access_token" "access-token" false .any
def instanceOption : Parameter := valueOption "default_instance" "default-instance" false .any
def pollIntervalOption : Parameter := valueOption "poll_interval" "poll-interval" false .positive

def yesOption : Parameter :=
  { key := "yes", role := .flag, long := some "yes", short := some 'y' }

def instanceArgument : Parameter := { key := "instance_id" }
def nameArgument : Parameter := { key := "name", required := true }

def shellArgument : Parameter :=
  { key := "shell", required := true
    role := .value (.word ["bash", "zsh", "fish", "powershell", "power-shell", "elvish"]) }

/-- The options that every command has. -/
def sharedOptions : List Parameter :=
  [profileOption, configFileOption, outputOption, queryOption, verboseOption, helpOption]

def innerCommand (name : String) (aliases : List String) (options positionals : List Parameter) :
    Grammar := .command name aliases (options ++ sharedOptions) positionals []

/-- A command for a workflow; its name may also be written with underscores. -/
def workflowCommand (name : String) (options : List Parameter) : Grammar :=
  let underscored := String.ofList (Text.replaceChar '-' ['_'] name.toList)
  innerCommand name [underscored] (databaseOption :: backupOption :: options) [instanceArgument]

def profileGrammar : Grammar :=
  .command "profile" ["prof", "pr"] sharedOptions []
    [innerCommand "list" ["ls", "l"] [] [],
      innerCommand "path" [] [] [],
      innerCommand "show" ["sh", "get"] [] [nameArgument],
      innerCommand "set" ["add", "create"]
        [projectOption, endpointOption, tokenOption, instanceOption, pollIntervalOption]
        [nameArgument],
      innerCommand "remove" ["rm", "del", "delete"] [yesOption] [nameArgument],
      innerCommand "default" ["def"] [] [nameArgument]]

def grammar : Grammar :=
  .command Program.name [] (versionOption :: sharedOptions) []
    [workflowCommand "create-backup" [keyOption, versionTimeOption],
      workflowCommand "cancel-backup" [],
      workflowCommand "list-backup-operations" [],
      workflowCommand "list-backups" [],
      workflowCommand "update-backup" [],
      workflowCommand "restore-database" [keyOption],
      workflowCommand "list-database-operations" [],
      workflowCommand "delete-backup" [],
      workflowCommand "copy-backup" [sourceOption],
      workflowCommand "create-database-with-version-retention-period" [retentionOption],
      profileGrammar,
      innerCommand "version" ["ver", "v"] [] [],
      innerCommand "completions" ["comp"] [] [shellArgument]]

/-- What workflows act on when nothing is said. -/
def exampleDatabase : String := "example_db"
def exampleBackup : String := "example_backup"

def defaultRetention : String := "7d"

def outputOf (word : String) : OutputChoice :=
  (outputChoices.find? (·.name = word)).getD .auto

def shellOf : String → Shell
  | "zsh" => .zsh
  | "fish" => .fish
  | "elvish" => .elvish
  | "powershell" | "power-shell" => .powerShell
  | _ => .bash

def targetOf (r : Reading) : Target where
  instanceId := r.text? instanceArgument
  databaseId := (r.text? databaseOption).getD exampleDatabase
  backupId := (r.text? backupOption).getD exampleBackup

def backupCommandOf (r : Reading) : String → BackupCommand
  | "create-backup" =>
    .create (r.text? keyOption) ((r.text? versionTimeOption).bind Instant.ofText?)
  | "cancel-backup" => .cancel
  | "list-backup-operations" => .listOperations
  | "update-backup" => .update
  | "restore-database" => .restore (r.text? keyOption)
  | "list-database-operations" => .listDatabaseOperations
  | "delete-backup" => .delete
  | "copy-backup" => .copy ((r.text? sourceOption).getD "")
  | "create-database-with-version-retention-period" =>
    .createDatabase ((r.text? retentionOption).getD defaultRetention)
  | _ => .list

def settingsOf (r : Reading) : ProfileSettings where
  project := (r.text? projectOption).getD ""
  endpoint := (r.text? endpointOption).getD defaultEndpoint
  accessToken := r.text? tokenOption
  defaultInstance := r.text? instanceOption
  pollInterval := (r.text? pollIntervalOption).bind positive?

def profileCommandOf (r : Reading) (command : String) : ProfileCommand :=
  let name := (r.text? nameArgument).getD ""
  match command with
  | "path" => .path
  | "show" => .show name
  | "set" => .set name (settingsOf r)
  | "remove" => .remove name (0 < r.times yesOption)
  | "default" => .makeDefault name
  | _ => .list

def commandOf (r : Reading) : Command :=
  match r.path with
  | "profile" :: name :: _ => .profile (profileCommandOf r name)
  | "completions" :: _ => .completions (shellOf ((r.text? shellArgument).getD ""))
  | "version" :: _ | [] => .version
  | name :: _ => .backup (targetOf r) (backupCommandOf r name)

def ofReading (r : Reading) : CommandLine where
  profile := r.text? profileOption
  configFile := r.text? configFileOption
  output := outputOf ((r.text? outputOption).getD "auto")
  query := r.text? queryOption
  verbosity := min 255 (r.times verboseOption)
  command := commandOf r

/-- The command line that words spell. -/
def read (e : Environment) (words : List String) : Except Fault CommandLine := do
  return ofReading (← Arguments.read e grammar words)

end CommandLine
end BackupAdmin
