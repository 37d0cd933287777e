import BackupAdmin.Time.Duration

/-! Errors of the configuration and of the admin service, by cause, with their wording. -/
namespace BackupAdmin

inductive ConfigError where
  /-- The file at a path exists but could not be read. -/
  | load (path source : String)
  | save (path source : String)
  /-- The text is no configuration. -/
  | parse
  | serialize
  | profileNotFound (name : String)
  | noProfiles (suggestion : String)
  /-- A stored reference could not be turned into a value. -/
  | credential (text : String)
  /-- The platform names no directory for configuration. -/
  | configDir
deriving DecidableEq

namespace ConfigError

/-- The wording; a fault in a text is worded by its reader and has none here. -/
def message : ConfigError → Option String
  | .load path source => some ("Cannot read backupctl config at " ++ path ++ ": " ++ source)
  | .save path source => some ("Cannot write backupctl config to " ++ path ++ ": " ++ source)
  | .parse => none
  | .serialize => none
  | .profileNotFound name => some ("Profile '" ++ name ++ "' not found")
  | .noProfiles suggestion => some ("No profiles configured. " ++ suggestion)
  | .credential text => some ("Cannot resolve access token: " ++ text)
  | .configDir => some "Cannot determine the platform config directory"

/-- The wording of the error and, behind it, of the fault that caused it. -/
def causes (e : ConfigError) : List (Option String) :=
  match e with
  | .load _ source | .save _ source => [e.message, some source]
  | e => [e.message]

end ConfigError

inductive AdminError where
  /-- The service was not reached or refused the caller; the network words its own faults. -/
  | transport (text : Option String)
  | invalidArgument (text : String)
  | preconditionFailed (text : String)
  | notFound (text : String)
  | timeout (waited : Duration)
  | operationFailed (code : Int32) (text : String)
  | operationCancelled (operation : String)
  | api (status : Nat) (text : String)
  /-- The answer made no sense; a reader of JSON words its own faults. -/
  | decode (text : Option String)
  | config (cause : ConfigError)
deriving DecidableEq

namespace AdminError

def message : AdminError → Option String
  | .transport text => text.map ("Transport error: " ++ ·)
  | .invalidArgument text => some ("Invalid argument: " ++ text)
  | .preconditionFailed text => some ("Precondition failed: " ++ text)
  | .notFound text => some ("Not found: " ++ text)
  | .timeout waited => some ("Operation timed out after " ++ waited.text)
  | .operationFailed code text =>
    some ("Operation failed (code " ++ toString code.toInt ++ "): " ++ text)
  | .operationCancelled operation => some ("Operation " ++ operation ++ " was cancelled")
  | .api status text => some ("API error (HTTP " ++ toString status ++ "): " ++ text)
  | .decode text => text.map ("Failed to decode response: " ++ ·)
  | .config cause => cause.message.map ("Configuration error: " ++ ·)

def isNotFound : AdminError → Bool
  | .notFound _ => true
  | _ => false

def isTransport : AdminError → Bool
  | .transport _ => true
  | _ => false

def isInvalidArgument : AdminError → Bool
  | .invalidArgument _ => true
  | _ => false

def isPreconditionFailed : AdminError → Bool
  | .preconditionFailed _ => true
  | _ => false

def isTimeout : AdminError → Bool
  | .timeout _ => true
  | _ => false

/-- The same call may succeed later. -/
def isRetryable : AdminError → Bool
  | .transport _ | .timeout _ => true
  | .api status _ => 500 ≤ status || status = 429
  | _ => false

/-- The error of an answer that is no success: by the status it names, else by its HTTP status. -/
def ofStatus (http : Nat) (status : Option String) (text : String) : AdminError :=
  match status with
  | some "INVALID_ARGUMENT" | some "OUT_OF_RANGE" => .invalidArgument text
  | some "FAILED_PRECONDITION" => .preconditionFailed text
  | some "NOT_FOUND" => .notFound text
  | some "UNAUTHENTICATED" | some "PERMISSION_DENIED" => .transport (some text)
  | _ =>
    match http with
    | 400 => .invalidArgument text
    | 401 | 403 => .transport (some text)
    | 404 => .notFound text
    | 409 | 412 => .preconditionFailed text
    | _ => .api http text

example : ofStatus 500 (some "NOT_FOUND") "x" = .notFound "x" := by decide
example : ofStatus 404 (some "ABORTED") "x" = .notFound "x" := by decide

end AdminError
end BackupAdmin
