import BackupAdmin.Admin.Remote
import BackupAdmin.Command.Error
import BackupAdmin.Config.Basic

/-! What a command connects with: the settings of a profile, in which the environment may replace
some, unless the configuration was named on the command line. -/
namespace BackupAdmin

/-- Settings to connect with. No profile is named when only the environment was used. -/
structure Connection where
  profile : Option String
  project : String
  endpoint : String
  token : Option String
  defaultInstance : Option String
  polling : Polling
deriving DecidableEq

namespace Connection

def ofEnvironment (e : Environment) (project : String) : Connection where
  profile := none
  project := project
  endpoint := (e.get? Environment.endpointVar).getD defaultEndpoint
  token := e.get? Environment.tokenVar
  defaultInstance := none
  polling := {}

/-- The settings of a profile, some of which the environment may replace. -/
def ofProfile (e : Environment) (name : String) (p : Profile) : Except ConfigError Connection := do
  let project ← p.resolveProject e
  let endpoint ← p.resolveEndpoint e
  let token ← p.resolveToken e
  return { profile := some name, project, endpoint, token
           defaultInstance := p.defaultInstance, polling := p.polling }

def ofStored (name : String) (p : Profile) : Except ConfigError Connection := do
  let token ← p.accessToken.mapM Credential.reveal
  return { profile := some name, project := p.project, endpoint := p.endpoint, token
           defaultInstance := p.defaultInstance, polling := p.polling }

/-- The settings for the profile asked for. A configuration that was named explicitly has the
last word; otherwise the environment counts, and alone it does when there is no profile. -/
def resolve (c : Config) (e : Environment) (explicit : Bool) (asked : Option String) :
    Except ConfigError Connection :=
  match c.resolveProfile asked with
  | .ok name => do
    let p ← c.profile name
    if explicit then ofStored name p else ofProfile e name p
  | .error fault => match fault, e.get? Environment.projectVar with
    | .noProfiles _, some project =>
      if explicit then .error fault else .ok (ofEnvironment e project)
    | _, _ => .error fault

/-- The name of the settings' source in messages. -/
def source (c : Connection) : String := c.profile.getD "<environment>"

/-- The instance asked for or the default one. -/
def instance? (c : Connection) (asked : Option String) : Except CommandError Instance :=
  match asked <|> c.defaultInstance with
  | some id => .ok ⟨c.project, id⟩
  | none => .error (.missingInstance c.source)

def remote (c : Connection) : Remote := .ofText c.endpoint c.token

end Connection
end BackupAdmin
