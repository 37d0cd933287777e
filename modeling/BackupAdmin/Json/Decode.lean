import BackupAdmin.Json.Basic
import BackupAdmin.Text.Digits

/-! Reading typed values out of JSON: records by field name or by position, optional fields and
defaults, numbers within their range. A value that does not fit is `none`. -/
namespace BackupAdmin.Json

/-- A record's fields as found: the value of each field that is present. -/
abbrev Fields := List (String × Json)

/-- The fields of a record given as an object or as an array in the order of `names`. A field
that is named twice, or an item too many, spoils the record; unknown members are skipped. -/
def fields? (names : List String) : Json → Option Fields
  | .object ms =>
    let known := ms.filter fun m => names.contains m.1
    if (known.map (·.1)).Nodup then some known else none
  | .array items => if items.length ≤ names.length then some (names.zip items) else none
  | _ => none

namespace Fields

def required {α : Type} (fs : Fields) (name : String) (f : Json → Option α) : Option α :=
  (fs.lookup name).bind f

/-- A field with a default for its absence. -/
def orElse {α : Type} (fs : Fields) (name : String) (default : α) (f : Json → Option α) : Option α :=
  match fs.lookup name with
  | none => some default
  | some v => f v

/-- A field that may be absent or null. -/
def optional {α : Type} (fs : Fields) (name : String) (f : Json → Option α) : Option (Option α) :=
  match fs.lookup name with
  | none | some .null => some none
  | some v => (f v).map some

end Fields

def asString? : Json → Option String
  | .string s => some s
  | _ => none

def asBool? : Json → Option Bool
  | .bool b => some b
  | _ => none

def asInt? : Json → Option Int
  | .number (.int n) => some n
  | _ => none

def asInt32? (v : Json) : Option Int32 := (asInt? v).bind Text.int32?

def asNat64? (v : Json) : Option Nat :=
  (asInt? v).bind fun n => if 0 ≤ n ∧ n < UInt64.size then some n.toNat else none

def asListOf? {α : Type} (f : Json → Option α) : Json → Option (List α)
  | .array items => items.mapM f
  | _ => none

/-- A member for a text that is left out when empty. -/
def textMember (k s : String) : List (String × Json) := if s = "" then [] else [(k, .string s)]

/-- A member that is left out when there is no value. -/
def optionalMember {α : Type} (k : String) (f : α → Json) : Option α → List (String × Json)
  | none => []
  | some a => [(k, f a)]

/-- A member for a list that is left out when empty. -/
def listMember {α : Type} (k : String) (f : α → Json) (xs : List α) : List (String × Json) :=
  if xs.isEmpty then [] else [(k, .array (xs.map f))]

end BackupAdmin.Json
