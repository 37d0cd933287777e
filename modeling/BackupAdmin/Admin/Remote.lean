import BackupAdmin.Admin.Service
import BackupAdmin.Json.Printer
import BackupAdmin.Json.Reader
import BackupAdmin.Program
import BackupAdmin.Web.Exchange

/-! The admin service behind HTTP: the request that each call is sent as, and how the responses
are read. -/
namespace BackupAdmin

structure Remote where
  base : String
  token : Option String := none
deriving DecidableEq

namespace Remote
open Json Text

/-- The service at an address, which is used without the slashes at its end. -/
def ofText (base : String) (token : Option String) : Remote :=
  ⟨String.ofList (dropEndWhile (· = '/') base.toList), token⟩

/-- A character between quotes in a description. -/
def describedChar (c : Char) : List Char :=
  if c = '"' then ['\\', '"']
  else if c = '\\' then ['\\', '\\']
  else if c = '\n' then ['\\', 'n']
  else if c = '\r' then ['\\', 'r']
  else if c = '\t' then ['\\', 't']
  else if c.toNat = 0 then ['\\', '0']
  else if c.toNat < 0x20 || (0x7F ≤ c.toNat && c.toNat < 0xA0) then
    "\\u\x7b".toList ++ Nat.toDigits 16 c.toNat ++ ['\x7d']
  else [c]

/-- A description that tells whether there is a token, but not the token. -/
def describe (r : Remote) : String :=
  "RestAdminClient \x7b base_url: \"" ++ String.ofList (r.base.toList.flatMap describedChar) ++
    "\", access_token: " ++ (if r.token.isSome then "Some(\"***\")" else "None") ++ " \x7d"

/-- The value of every request's header `User-Agent`. -/
def userAgent : String := Program.name ++ "/" ++ Program.version

/-- What a call is sent as; a query is there as soon as it may have pairs. -/
structure Form where
  method : Web.Method := .get
  resource : String
  pairs : Option (List (String × String)) := none
  body : Option Json := none

def pagePairs (p : PageRequest) : List (String × String) :=
  (p.filter.map ("filter", ·)).toList ++
    (p.pageSize.map fun n => ("pageSize", toString n)).toList ++
    (p.token.map ("pageToken", ·)).toList

def encryptionPairs (e : EncryptionConfig) : List (String × String) :=
  ("encryptionConfig.encryptionType", e.type.text) ::
    (e.kmsKeyName.map ("encryptionConfig.kmsKeyName", ·)).toList

def submitForm (i : Instance) (r : Request) : Form :=
  match r with
  | .createBackup id _ _ _ encryption =>
    { method := .post, resource := i.name ++ "/backups", body := some r.body
      pairs := some (("backupId", id) :: (encryption.map encryptionPairs).getD []) }
  | .copyBackup .. =>
    { method := .post, resource := i.name ++ "/backups:copy", body := some r.body }
  | .restoreDatabase .. =>
    { method := .post, resource := i.name ++ "/databases:restore", body := some r.body }
  | .createDatabase .. =>
    { method := .post, resource := i.name ++ "/databases", body := some r.body }

def form : Call → Form
  | .submit i r => submitForm i r
  | .getOperation name => { resource := name }
  | .cancelOperation name =>
    { method := .post, resource := name ++ ":cancel", body := some (.object []) }
  | .listBackups i p => { resource := i.name ++ "/backups", pairs := some (pagePairs p) }
  | .listOperations .backup i p =>
    { resource := i.name ++ "/backupOperations", pairs := some (pagePairs p) }
  | .listOperations .database i p =>
    { resource := i.name ++ "/databaseOperations", pairs := some (pagePairs p) }
  | .getBackup name | .getDatabase name => { resource := name }
  | .updateExpireTime name t =>
    { method := .patch, resource := name, pairs := some [("updateMask", "expireTime")]
      body := some (.object [("expireTime", ofInstant t)]) }
  | .deleteBackup name | .dropDatabase name => { method := .delete, resource := name }

def url (r : Remote) (resource : String) : Except AdminError Web.Url :=
  match Web.Url.parse (r.base ++ "/v1/" ++ resource) with
  | .ok u => .ok u
  | .error f => .error (.invalidArgument ("invalid endpoint URL: " ++ f.message))

/-- A text that a header can carry. -/
def isHeaderText (s : String) : Bool :=
  s.toList.all fun c => c = '\t' || (32 ≤ c.toNat && c.toNat ≠ 127)

/-- The value of the header `Authorization`; blanks at its end are no part of it. -/
def authorization (token : String) : String :=
  String.ofList (dropEndWhile (fun c => c = ' ' || c = '\t') ("Bearer " ++ token).toList)

def request (r : Remote) (c : Call) : Except AdminError Web.Request := do
  let f := form c
  let u ← r.url f.resource
  let u := match f.pairs with
    | some ps => u.withPairs ps
    | none => u
  if u.scheme ≠ "http" && u.scheme ≠ "https" then .error (.transport none)
  if !r.token.all isHeaderText then .error (.transport none)
  return { method := f.method, url := u, authorization := r.token.map authorization, body := f.body }

/-- The status and the message that the body of a failure names. -/
def envelope? (v : Json) : Option (Option String × String) := do
  let fs ← fields? ["error"] v
  let e ← fs.required "error" (fields? ["message", "status"])
  let message ← e.orElse "message" "" asString?
  let status ← e.optional "status" asString?
  some (status, message)

/-- The error that a response without success stands for. -/
def failure (r : Web.Response) : AdminError :=
  match (Json.read r.text).bind envelope? with
  | some (status, message) => .ofStatus r.status status message
  | none => .ofStatus r.status none r.text

def decoded {α : Type} (f : Json → Option α) (r : Web.Response) : Except AdminError α :=
  match (Json.read r.text).bind f with
  | some a => .ok a
  | none => .error (.decode none)

def page? {α : Type} (key : String) (f : Json → Option α) (v : Json) : Option (Page α) := do
  let fs ← fields? [key, "nextPageToken"] v
  let items ← fs.orElse key [] (asListOf? f)
  let next ← fs.optional "nextPageToken" asString?
  some (.ofAnswer items next)

def answer (r : Web.Response) : (c : Call) → Except AdminError c.Answer
  | .submit .. | .getOperation _ => decoded Operation.decode? r
  | .listBackups .. => decoded (page? "backups" Backup.decode?) r
  | .listOperations .. => decoded (page? "operations" Operation.decode?) r
  | .getBackup _ | .updateExpireTime .. => decoded Backup.decode? r
  | .getDatabase _ => decoded Database.decode? r
  | .cancelOperation _ | .deleteBackup _ | .dropDatabase _ => .ok ()

def service {σ : Type} (r : Remote) (send : Web.Transport σ) : Service σ where
  answer c s := match r.request c with
    | .error e => ⟨.error e, s, 0⟩
    | .ok q =>
      let (d, s) := send q s
      let result := match d.response with
        | none => .error (.transport none)
        | some a => if a.isSuccess then answer a c else .error (failure a)
      ⟨result, s, d.took⟩

theorem describe_token (base s t : String) :
    describe ⟨base, some s⟩ = describe ⟨base, some t⟩ := rfl

end Remote
end BackupAdmin
