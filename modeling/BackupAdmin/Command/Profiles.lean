import BackupAdmin.Command.Line
import BackupAdmin.Command.Machine

/-! The commands that show and change the profiles of a configuration. Tokens are never shown. -/
namespace BackupAdmin
open Json

/-- What is known of a token that a profile stores. -/
inductive TokenState where
  | missing | keyring | stored
deriving DecidableEq

def Profile.tokenState (p : Profile) : TokenState :=
  match p.accessToken with
  | none => .missing
  | some t => if Credential.isReference t then .keyring else .stored

def TokenState.text : TokenState → String
  | .missing => "not set"
  | .keyring => "keyring"
  | .stored => "configured"

namespace Config

def isDefault (c : Config) (name : String) : Bool := c.defaultProfile = some name

def profileValue (c : Config) (name : String) (p : Profile) : Json :=
  record [("name", .string name), ("project", .string p.project), ("endpoint", .string p.endpoint),
    ("default_instance", ofOption .string p.defaultInstance),
    ("access_token_configured", .bool (p.tokenState ≠ .missing)),
    ("is_default", .bool (c.isDefault name)), ("polling", p.polling.encode)]

/-- All profiles as a value; a table has them alone. -/
def listValue (c : Config) (place : Option String) (f : OutputFormat) : Json :=
  let profiles : Json := .array (c.profiles.entries.map fun e => c.profileValue e.1 e.2)
  if f = .table then profiles
  else record [("config_path", ofOption .string place), ("profiles", profiles),
    ("count", .ofNat c.profiles.entries.length)]

def entryLines (c : Config) (name : String) (p : Profile) : List String :=
  [if c.isDefault name then name ++ " (default)" else name,
    "    Project: " ++ p.project, "    Endpoint: " ++ p.endpoint] ++
    p.defaultInstance.toList.map ("    Instance: " ++ ·)

def listLines (c : Config) (place : Option String) : List String :=
  (match place with
    | some path => ["Configuration file: " ++ path, ""]
    | none => []) ++
  if c.profiles.isEmpty then ["No profiles configured.", creationAdvice]
  else c.profiles.entries.flatMap fun e => c.entryLines e.1 e.2

def showLines (c : Config) (name : String) (p : Profile) : List String :=
  ["Profile: " ++ name, "Project: " ++ p.project, "Endpoint: " ++ p.endpoint,
    "Default instance: " ++ p.defaultInstance.getD "not set",
    "Access token: " ++ p.tokenState.text,
    "Polling: every " ++ toString p.polling.pollInterval ++ "s, backup timeout " ++
      toString p.polling.backupTimeout ++ "s, restore timeout " ++
      toString p.polling.restoreTimeout ++ "s"] ++
    if c.isDefault name then ["Default: yes"] else []

end Config

/-- The profile with these settings, in place of an old one whose other settings stay. -/
def ProfileSettings.apply (s : ProfileSettings) (old : Option Profile) : Profile :=
  let p : Profile := old.getD { project := s.project }
  { p with
    project := s.project
    endpoint := s.endpoint
    accessToken := s.accessToken <|> p.accessToken
    defaultInstance := s.defaultInstance <|> p.defaultInstance
    polling := { p.polling with pollInterval := s.pollInterval.getD p.polling.pollInterval } }

namespace Config

/-- The configuration with a profile set; the first profile becomes the default. -/
def withSettings (c : Config) (name : String) (s : ProfileSettings) : Config :=
  let d := c.setProfile name (s.apply (c.profiles.get? name))
  if c.profiles.isEmpty then { d with defaultProfile := some name } else d

end Config

namespace ProfileCommand

def linesText (ls : List String) : String := String.join (ls.map (· ++ "\n"))

/-- A value in the format for programs, or lines for people. -/
def written (choice : OutputChoice) (value : OutputFormat → Json) (ls : List String) : String :=
  match choice.format? none with
  | some f => f.text (value f) ++ "\n"
  | none => linesText ls

variable {σ : Type}

/-- Saves a configuration at its place and goes on to say so. -/
def saved (m : Machine σ) (place : Option String) (c : Config) (said : String) (ls : List String) :
    StateM σ Outcome := do
  let r ← match place with
    | some file => m.disk.save file c
    | none => pure (.error .configDir)
  return match r with
    | .ok () => { output := said ++ linesText ls }
    | .error e =>
      { output := said
        ending := .failed (.ofContexts (some "Failed to save configuration" :: e.causes)) }

def isYes (answer : String) : Bool :=
  let word := (Text.trim answer.toList).map Char.toLower
  word = ['y'] || word = ['y', 'e', 's']

/-- Removes a profile that is there, if the person who is asked agrees. -/
def removal (m : Machine σ) (place : Option String) (c : Config) (name : String)
    (confirmed : Bool) : StateM σ Outcome := do
  let warning :=
    if c.isDefault name then "Warning: '" ++ name ++ "' is the default profile.\n" else ""
  let question := "Are you sure you want to remove profile '" ++ name ++ "'? (y/N): "
  let done :=
    (if c.isDefault name then ["Default profile cleared."] else []) ++
      ["Profile '" ++ name ++ "' removed successfully."]
  if confirmed then saved m place (c.removeProfile name) warning done
  else if isYes (← m.ask (warning ++ question)) then
    saved m place (c.removeProfile name) "" done
  else return { output := "Profile removal cancelled.\n" }

/-- Carries out a command on the configuration that was loaded from a place. -/
def run (m : Machine σ) (place : Option String) (c : Config) (choice : OutputChoice) :
    ProfileCommand → StateM σ Outcome
  | .list => return { output := written choice (c.listValue place) (c.listLines place) }
  | .path => return match place with
    | some file =>
      { output := written choice (fun _ => record [("config_path", .string file)]) [file] }
    | none => { ending := .failed (.configuration (some "Failed to determine config directory")) }
  | .show name => return match c.profile name with
    | .ok p => { output := written choice (fun _ => c.profileValue name p) (c.showLines name p) }
    | .error e => { ending := .failed (.ofConfig e) }
  | .set name s =>
    saved m place (c.withSettings name s) ""
      (("Profile '" ++ name ++ "' saved successfully.") ::
        if c.profiles.isEmpty then ["Set as default profile."] else [])
  | .remove name confirmed => match c.profile name with
    | .ok _ => removal m place c name confirmed
    | .error e => return { ending := .failed (.ofConfig e) }
  | .makeDefault name => match c.profile name with
    | .ok _ => saved m place { c with defaultProfile := some name } ""
        ["Default profile set to '" ++ name ++ "'."]
    | .error e => return { ending := .failed (.ofConfig e) }

end ProfileCommand
end BackupAdmin
