import BackupAdmin.Catalog
import BackupAdmin.Config.Expansion
import BackupAdmin.Config.Profile
import BackupAdmin.Toml.Printer
import BackupAdmin.Toml.Reader

/-! The configuration: profiles by name, one of which may be the default, and its text. -/
namespace BackupAdmin

structure Config where
  defaultProfile : Option String := none
  profiles : Catalog Profile := .empty
deriving DecidableEq

instance : Inhabited Config := ⟨{}⟩

namespace Config
open Json

def toJson (c : Config) : Json :=
  .object (optionalMember "default_profile" .string c.defaultProfile ++
    [("profiles", .object (c.profiles.entries.map fun (k, p) => (k, .object p.members)))])

/-- The profiles of an object's members; every value has to be a profile. -/
def profiles? : Json → Option (Catalog Profile)
  | .object ms => (ms.mapM fun m => (Profile.decode? m.2).map (m.1, ·)).map Catalog.ofList
  | _ => none

def decode? (v : Json) : Option Config := do
  let fs ← fields? ["default_profile", "profiles"] v
  let defaultProfile ← fs.optional "default_profile" asString?
  let profiles ← fs.orElse "profiles" .empty profiles?
  some { defaultProfile, profiles }

def text (c : Config) : String := Toml.text c.toJson

/-- The configuration that a text spells, after references to variables are replaced. -/
def ofText (e : Environment) (s : String) : Except ConfigError Config :=
  match (Toml.read (e.expand s)).bind decode? with
  | some c => .ok c
  | none => .error .parse

def setProfile (c : Config) (name : String) (p : Profile) : Config :=
  { c with profiles := c.profiles.insert name p }

/-- Takes a profile away; then it is not the default any more. -/
def removeProfile (c : Config) (name : String) : Config :=
  { defaultProfile := c.defaultProfile.filter (· ≠ name)
    profiles := c.profiles.erase name }

def profile (c : Config) (name : String) : Except ConfigError Profile :=
  match c.profiles.get? name with
  | some p => .ok p
  | none => .error (.profileNotFound name)

/-- Advice for a configuration without profiles. -/
def creationAdvice : String :=
  "Use 'backupctl profile set <name> --project <project>' to create a profile."

/-- The name of the profile to use: the one asked for, the default, or the first by name. -/
def resolveProfile (c : Config) (asked : Option String) : Except ConfigError String :=
  match asked, c.defaultProfile, c.profiles.entries with
  | some name, _, _ => .ok name
  | none, some name, _ => .ok name
  | none, none, (name, _) :: _ => .ok name
  | none, none, [] => .error (.noProfiles creationAdvice)

end Config
end BackupAdmin
