import BackupAdmin.Operation.Metadata

/-! A snapshot of a long-running operation and its JSON form. -/
namespace BackupAdmin

structure OperationError where
  code : Int32 := 0
  message : String := ""
deriving DecidableEq

namespace OperationError
open Json

def cancelledCode : Int32 := 1

def isCancelled (e : OperationError) : Bool := e.code = cancelledCode

theorem isCancelled_iff {e : OperationError} : e.isCancelled = true ↔ e.code = 1 :=
  decide_eq_true_iff

def text (e : OperationError) : String := "code " ++ toString e.code.toInt ++ ": " ++ e.message

def encode (e : OperationError) : Json :=
  record [("code", .ofInt e.code.toInt), ("message", .string e.message)]

def decode? (v : Json) : Option OperationError := do
  let fs ← fields? ["code", "message"] v
  let code ← fs.orElse "code" 0 asInt32?
  let message ← fs.orElse "message" "" asString?
  some { code, message }

end OperationError

/-- An operation at the moment it was read. -/
structure Operation where
  name : String
  metadata : Option Metadata := none
  done : Bool := false
  error : Option OperationError := none
  response : Option Json := none
deriving DecidableEq

namespace Operation
open Json

def percent (o : Operation) : Option Int32 := o.metadata.bind (·.percent)

def encode (o : Operation) : Json :=
  record (("name", .string o.name) :: optionalMember "metadata" Metadata.encode o.metadata ++
    ("done", .bool o.done) :: optionalMember "error" OperationError.encode o.error ++
    optionalMember "response" id o.response)

def decode? (v : Json) : Option Operation := do
  let fs ← fields? ["name", "metadata", "done", "error", "response"] v
  let name ← fs.required "name" asString?
  let metadata ← fs.optional "metadata" Metadata.decode?
  let done ← fs.orElse "done" false asBool?
  let error ← fs.optional "error" OperationError.decode?
  let response ← fs.optional "response" canonical?
  some { name, metadata, done, error, response }

end Operation
end BackupAdmin
