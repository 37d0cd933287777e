import BackupAdmin.Json.Basic
import BackupAdmin.Time.Duration
import BackupAdmin.Web.Url

/-! Requests over HTTP and their responses, and what carries the one and brings the other. -/
namespace BackupAdmin.Web

inductive Method where
  | get
  | post
  | patch
  | delete
deriving DecidableEq

def Method.text : Method → String
  | .get => "GET"
  | .post => "POST"
  | .patch => "PATCH"
  | .delete => "DELETE"

/-- A request; a body is JSON. -/
structure Request where
  method : Method
  url : Url
  authorization : Option String := none
  body : Option Json := none
deriving DecidableEq

def Request.contentType (r : Request) : Option String := r.body.map fun _ => "application/json"

structure Response where
  status : Nat := 200
  body : String := ""
deriving DecidableEq

def Response.isSuccess (r : Response) : Bool := 200 ≤ r.status && r.status < 300

/-- The text of the body; two statuses have none, and a mark of the byte order is dropped. -/
def Response.text (r : Response) : String :=
  if r.status = 204 || r.status = 304 then ""
  else match r.body.toList with
    | '\uFEFF' :: cs => String.ofList cs
    | _ => r.body

/-- What became of a request: the response, if there was one, and the time until then. -/
structure Delivery where
  response : Option Response
  took : Duration := 0
deriving DecidableEq

abbrev Transport (σ : Type) := Request → σ → Delivery × σ

end BackupAdmin.Web
