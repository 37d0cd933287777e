import BackupAdmin.Text.Blank

/-! Names of instances and of the backups and databases in them, and the ids that may be used. -/
namespace BackupAdmin

structure Instance where
  project : String
  id : String
deriving DecidableEq

namespace Instance

def name (i : Instance) : String := "projects/" ++ i.project ++ "/instances/" ++ i.id

def backupName (i : Instance) (id : String) : String := i.name ++ "/backups/" ++ id

def databaseName (i : Instance) (id : String) : String := i.name ++ "/databases/" ++ id

/-- The resource lies in the instance: its name goes on after the instance's with a slash. -/
def owns (i : Instance) (resource : String) : Bool :=
  (i.name.toList ++ ['/']).isPrefixOf resource.toList

end Instance

def shortName (resource : String) : String := String.ofList (Text.lastPiece '/' resource.toList)

/-- Why an id may not be used. -/
inductive IdFault where
  | length
  | pattern
deriving DecidableEq

namespace IdFault

def message (kind id : String) : IdFault → String
  | .length => kind ++ " id '" ++ id ++ "' must be between 2 and 60 characters"
  | .pattern => kind ++ " id '" ++ id ++ "' must match [a-z][a-z0-9_-]*[a-z0-9]"

end IdFault

def isSmall (c : Char) : Bool := 'a' ≤ c && c ≤ 'z'

def isSmallOrDigit (c : Char) : Bool := isSmall c || ('0' ≤ c && c ≤ '9')

/-- What keeps a text from being an id; the length is looked at first. -/
def idFault? (id : String) : Option IdFault :=
  let cs := id.toList
  if cs.length < 2 || 60 < cs.length then some .length
  else if cs.head?.any isSmall && cs.getLast?.any isSmallOrDigit &&
      cs.all (fun c => isSmallOrDigit c || c == '_' || c == '-') then none
  else some .pattern

/-- The characters of an id that may be used. -/
theorem chars_of_idFault? {id : String} (usable : idFault? id = none) :
    ∀ c ∈ id.toList, (isSmallOrDigit c || c == '_' || c == '-') = true := by
  unfold idFault? at usable
  dsimp only at usable
  split at usable
  · contradiction
  · split at usable
    · next plain =>
      rw [Bool.and_eq_true] at plain
      exact List.all_eq_true.1 plain.2
    · contradiction

example : idFault? "b1" = none ∧ idFault? "b" = some .length ∧ idFault? "1b" = some .pattern := by
  decide

end BackupAdmin
