import BackupAdmin.Program
import BackupAdmin.Text.Blank

/-! Environment variables and the references to them in a text. -/
namespace BackupAdmin

structure Environment where
  vars : List (String × String) := []

namespace Environment

def get? (e : Environment) (name : String) : Option String := e.vars.lookup name

def projectVar : String := "BACKUPCTL_PROJECT"
def endpointVar : String := "BACKUPCTL_ENDPOINT"
def tokenVar : String := "BACKUPCTL_ACCESS_TOKEN"
def profileVar : String := "BACKUPCTL_PROFILE"
def configFileVar : String := "BACKUPCTL_CONFIG_FILE"

def inside (path name : String) : String :=
  if path.toList.getLast? = some '/' then path ++ name else path ++ "/" ++ name

/-- The directory for configuration: the one that is named, if its path starts at the root, or
the usual one at home. -/
def configDir? (e : Environment) : Option String :=
  match (e.get? "XDG_CONFIG_HOME").filter (·.startsWith "/"), e.get? "HOME" with
  | some dir, _ => some dir
  | none, some home => if home = "" then none else some (inside home ".config")
  | none, none => none

/-- The place of the configuration's file when none is named. -/
def configPath? (e : Environment) : Option String :=
  e.configDir?.map fun dir => inside (inside dir Program.name) "config.toml"

end Environment
end BackupAdmin
