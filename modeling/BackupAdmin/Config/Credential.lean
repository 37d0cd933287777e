import BackupAdmin.Admin.Error
import BackupAdmin.Config.Environment

/-! Stored values that may be references to entries of a keyring. -/
namespace BackupAdmin.Credential
open Text

/-- What a reference starts with. -/
def referenceMark : String := "keyring:"

/-- The entry that a stored value refers to. -/
def keyOf? (stored : String) : Option String :=
  (after? referenceMark.toList stored.toList).map String.ofList

def isReference (stored : String) : Bool := (keyOf? stored).isSome

def unreadable (entry : String) : ConfigError :=
  .credential ("Credential '" ++ entry ++
    "' is stored in the keyring but the secure-storage feature is not enabled")

/-- The value that is stored, unless it is a reference. -/
def reveal (stored : String) : Except ConfigError String :=
  match keyOf? stored with
  | some e => .error (unreadable e)
  | none => .ok stored

/-- The value of a variable if that is set, else the stored value. -/
def resolve (e : Environment) (stored var : String) : Except ConfigError String :=
  match e.get? var with
  | some v => .ok v
  | none => reveal stored

/-- What is stored for a value. -/
def store (value : String) : String := value

theorem resolve_of_get?_eq_some {e : Environment} {stored var v : String}
    (h : e.get? var = some v) : resolve e stored var = .ok v := by simp [resolve, h]

theorem resolve_of_get?_eq_none {e : Environment} {stored var : String}
    (h : e.get? var = none) : resolve e stored var = reveal stored := by simp [resolve, h]

example : keyOf? "keyring:prod" = some "prod" ∧ keyOf? "Keyring:x" = none := by decide +kernel

end BackupAdmin.Credential
