import BackupAdmin.Config.Credential
import BackupAdmin.Config.Polling

/-! A profile: how to reach one project, and how long its commands wait. -/
namespace BackupAdmin

def defaultEndpoint : String := "https://spanner.googleapis.com"

structure Profile where
  project : String
  endpoint : String := defaultEndpoint
  accessToken : Option String := none
  defaultInstance : Option String := none
  polling : Polling := {}
deriving DecidableEq

namespace Profile
open Json

def members (p : Profile) : List (String × Json) :=
  ("project", .string p.project) :: ("endpoint", .string p.endpoint) ::
    optionalMember "access_token" .string p.accessToken ++
    optionalMember "default_instance" .string p.defaultInstance ++
    if p.polling.isDefault then []
    else [("polling", .object (p.polling.settings.map fun (k, n) => (k, .ofNat n)))]

def decode? (v : Json) : Option Profile := do
  let fs ← fields? ["project", "endpoint", "access_token", "default_instance", "polling"] v
  let project ← fs.required "project" asString?
  let endpoint ← fs.orElse "endpoint" defaultEndpoint asString?
  let accessToken ← fs.optional "access_token" asString?
  let defaultInstance ← fs.optional "default_instance" asString?
  let polling ← fs.orElse "polling" {} Polling.decode?
  some { project, endpoint, accessToken, defaultInstance, polling }

def resolveProject (p : Profile) (e : Environment) : Except ConfigError String :=
  Credential.resolve e p.project Environment.projectVar

def resolveEndpoint (p : Profile) (e : Environment) : Except ConfigError String :=
  Credential.resolve e p.endpoint Environment.endpointVar

def tokenError (e : ConfigError) : ConfigError :=
  .credential ("Failed to resolve access token: " ++ e.message.getD "")

/-- The token of the environment if there is one, else the stored one if there is one. -/
def resolveToken (p : Profile) (e : Environment) : Except ConfigError (Option String) :=
  match p.accessToken with
  | none => .ok (e.get? Environment.tokenVar)
  | some t => match Credential.resolve e t Environment.tokenVar with
    | .ok v => .ok (some v)
    | .error x => .error (tokenError x)

end Profile
end BackupAdmin
