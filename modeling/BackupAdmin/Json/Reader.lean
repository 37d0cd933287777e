import BackupAdmin.Json.Token

/-! Reading JSON text: a machine that takes one token at a time over a stack of open containers. -/
namespace BackupAdmin.Json

/-- A container whose end has not been read; its items stand in reverse. A key is `none` when
it names no text, and then the whole object denotes nothing. -/
inductive Open where
  | array (items : List Json)
  | object (members : List (Option String × Json))
  | member (members : List (Option String × Json)) (key : Option String)

inductive Expect where
  | value
  | firstItem
  | firstKey
  | key
  | colon
  | separator
deriving DecidableEq

/-- The state of the machine: what comes next, the open containers, and the value when done. -/
structure Reader where
  expect : Expect
  stack : List Open
  done : Option Json

def Reader.start : Reader := ⟨.value, [], none⟩

/-- Containers nested this deep denote no value. -/
def depthLimit : Nat := 128

/-- Hands a complete value to the innermost open container. -/
def Reader.put (v : Json) (stack : List Open) : Option Reader :=
  match stack with
  | [] => some ⟨.separator, [], some v⟩
  | .array items :: rest => some ⟨.separator, .array (v :: items) :: rest, none⟩
  | .member ms k :: rest => some ⟨.separator, .object ((k, v) :: ms) :: rest, none⟩
  | .object _ :: _ => none

/-- The value of a closed container of `n` enclosing ones. -/
def closed (n : Nat) (v : Json) : Json := if depthLimit ≤ n + 1 then .unreadable else v

/-- The value of an object with these members, given in reverse. -/
def ofMembers (ms : List (Option String × Json)) : Json :=
  if ms.all (·.1.isSome) then .object (ms.reverse.map fun (k, v) => (k.getD "", v)) else .unreadable

def Reader.close (brace : Bool) (stack : List Open) : Option Reader :=
  match stack with
  | .array items :: rest =>
    if brace then none else Reader.put (closed rest.length (.array items.reverse)) rest
  | .object ms :: rest => if brace then Reader.put (closed rest.length (ofMembers ms)) rest else none
  | _ => none

def Reader.value (stack : List Open) : Token → Option Reader
  | .null => Reader.put .null stack
  | .bool b => Reader.put (.bool b) stack
  | .string (some s) => Reader.put (.string s) stack
  | .string none => Reader.put .unreadable stack
  | .number (some n) => Reader.put (.number n) stack
  | .number none => Reader.put .unreadable stack
  | .openBracket => some ⟨.firstItem, .array [] :: stack, none⟩
  | .openBrace => some ⟨.firstKey, .object [] :: stack, none⟩
  | _ => none

def Reader.key (stack : List Open) : Token → Option Reader
  | .string k => match stack with
    | .object ms :: rest => some ⟨.colon, .member ms k :: rest, none⟩
    | _ => none
  | _ => none

/-- One step of the machine; `none` refuses the token. -/
def Reader.step (r : Reader) (t : Token) : Option Reader :=
  match r.expect, t with
  | .value, t => Reader.value r.stack t
  | .firstItem, .closeBracket => Reader.close false r.stack
  | .firstItem, t => Reader.value r.stack t
  | .firstKey, .closeBrace => Reader.close true r.stack
  | .firstKey, t => Reader.key r.stack t
  | .key, t => Reader.key r.stack t
  | .colon, .colon => some ⟨.value, r.stack, none⟩
  | .separator, .closeBracket => Reader.close false r.stack
  | .separator, .closeBrace => Reader.close true r.stack
  | .separator, .comma => match r.stack with
    | .array _ :: _ => some ⟨.value, r.stack, none⟩
    | .object _ :: _ => some ⟨.key, r.stack, none⟩
    | _ => none
  | _, _ => none

def Reader.run (r : Reader) : List Token → Option Reader
  | [] => some r
  | t :: ts => match r.step t with
    | some r => r.run ts
    | none => none

def read (s : String) : Option Json := do
  let ts ← tokens s.toList
  let r ← Reader.start.run ts
  r.done

/-- The sorted value of a JSON text all of whose parts denote values. -/
def readValue (s : String) : Option Json := (read s).bind canonical?

example : read "[1, \x7b\"a\": null\x7d]" = some (.array [.ofInt 1, .object [("a", .null)]]) := by cbv
example : read "[1,]" = none := by cbv

end BackupAdmin.Json
