import BackupAdmin.Admin.Error
import BackupAdmin.Text.Blank

/-! Errors as a person at the command line sees them: few kinds, each with advice. -/
namespace BackupAdmin

/-- A failed command. A text is `none` where the network or a reader of a format words it. -/
inductive CommandError where
  | configuration (text : Option String)
  | profileNotFound (name : String)
  | noProfileConfigured
  | missingInstance (profile : String)
  | connection (text : Option String)
  | invalidInput (text : String)
  | notFound (text : String)
  | preconditionFailed (text : String)
  | operationFailed (text : String)
  | timeout (text : String)
  | api (text : Option String)
  | output (text : Option String)
deriving DecidableEq

namespace CommandError

def ofConfig : ConfigError → CommandError
  | .profileNotFound name => .profileNotFound name
  | .noProfiles _ => .noProfileConfigured
  | e => .configuration e.message

def ofAdmin : AdminError → CommandError
  | .transport text => .connection text
  | .invalidArgument text => .invalidInput text
  | .preconditionFailed text => .preconditionFailed text
  | .notFound text => .notFound text
  | .timeout waited => .timeout ("gave up after " ++ toString waited.seconds ++ " seconds")
  | .operationFailed code text => .operationFailed ("code " ++ toString code.toInt ++ ": " ++ text)
  | .operationCancelled operation => .operationFailed (operation ++ " was cancelled")
  | .api status text => .api (some ("HTTP " ++ toString status ++ ": " ++ text))
  | .decode text => .api (text.map ("unexpected response: " ++ ·))
  | .config cause => ofConfig cause

/-- A fault that was wrapped in contexts, the outermost first. -/
def ofContexts (texts : List (Option String)) : CommandError :=
  .output ((texts.mapM id).map (Text.joinWith ": "))

def message : CommandError → Option String
  | .configuration text => text.map ("Configuration error: " ++ ·)
  | .profileNotFound name => some ("Profile '" ++ name ++ "' not found")
  | .noProfileConfigured =>
    some "No profile configured. Use 'backupctl profile set' to configure a profile."
  | .missingInstance profile =>
    some ("No instance given and profile '" ++ profile ++ "' has no default instance")
  | .connection text => text.map ("Connection error: " ++ ·)
  | .invalidInput text => some ("Invalid input: " ++ text)
  | .notFound text => some ("Not found: " ++ text)
  | .preconditionFailed text => some ("Precondition failed: " ++ text)
  | .operationFailed text => some ("Operation failed: " ++ text)
  | .timeout text => some ("Timeout: " ++ text)
  | .api text => text.map ("API error: " ++ ·)
  | .output text => text.map ("Output formatting error: " ++ ·)

/-- The kind of the error in a word, for one that is worded elsewhere. -/
def label : CommandError → String
  | .connection _ => "Connection error"
  | .configuration _ => "Configuration error"
  | .api _ => "API error"
  | _ => "Output formatting error"

/-- The text of a connection error speaks of missing rights. -/
def isUnauthorized (text : String) : Bool :=
  Text.contains "401".toList text.toList ||
    Text.contains "unauth".toList (Text.lower text).toList

def suggestions : CommandError → List String
  | .profileNotFound name =>
    ["List available profiles: backupctl profile list",
      "Create profile '" ++ name ++ "': backupctl profile set " ++ name ++ " --project <project>"]
  | .noProfileConfigured =>
    ["Create a profile: backupctl profile set <name> --project <project>",
      "Or set BACKUPCTL_PROJECT (and BACKUPCTL_ACCESS_TOKEN) in the environment"]
  | .missingInstance profile =>
    ["Pass the instance id: backupctl <command> <instance-id>",
      "Or store one: backupctl profile set " ++ profile ++
        " --project <project> --default-instance <instance-id>"]
  | .connection text =>
    if text.any isUnauthorized then
      ["Check the access token: backupctl profile show <profile>",
        "Refresh it and export BACKUPCTL_ACCESS_TOKEN"]
    else
      ["Check network connectivity",
        "Verify the endpoint: backupctl profile show <profile>"]
  | .notFound _ =>
    ["Verify the instance, database and backup ids",
      "List backups: backupctl list-backups <instance-id>"]
  | .preconditionFailed _ => ["The resource is not in a state that allows this change yet"]
  | .timeout _ =>
    ["The operation may still be running: backupctl list-backup-operations <instance-id>",
      "Raise the timeout in the profile's [polling] table"]
  | .invalidInput _ => ["Check the command syntax: backupctl <command> --help"]
  | _ => []

/-- The lines for people: the error, a remark on failed operations, and a tip per suggestion. -/
def diagnostic (e : CommandError) : String :=
  "error: " ++ e.message.getD e.label ++ "\n" ++
    (match e with
      | .operationFailed _ => "  The service reported the operation as failed.\n"
      | _ => "") ++
    String.join (e.suggestions.map fun tip => "\n  tip: " ++ tip ++ "\n")

end CommandError
end BackupAdmin
