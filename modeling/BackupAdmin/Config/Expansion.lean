import BackupAdmin.Config.Environment
import BackupAdmin.Text.Letter

/-! References to environment variables in a text: `$NAME`, `${NAME}` and `${NAME:-default}`. A
variable that is not set and has no default leaves its reference as it is. -/
namespace BackupAdmin.Environment
open Text

/-- Characters of a name that stands without braces. -/
def isNameChar (c : Char) : Bool := isLetterOrNumeral c || c = '_'

/-- The inside of braces as a name and a default; a default needs a name in front. -/
def nameAndDefault (cs : List Char) : List Char × Option (List Char) :=
  match splitFirst? [':', '-'] cs with
  | some ([], _) | none => (cs, none)
  | some (name, default) => (name, some default)

/-- What a reference stands for: the variable's value, the default, or the reference itself. -/
def resolve (e : Environment) (name : List Char) (default : Option (List Char))
    (reference : List Char) : List Char :=
  match e.get? (String.ofList name), default with
  | some v, _ => v.toList
  | none, some d => d
  | none, none => reference

/-- The text with its references replaced; `skip` characters belong to the last reference. Two
dollars in a row are one, and a dollar before anything else stands for itself. -/
def expandFrom (e : Environment) : Nat → List Char → List Char
  | _, [] => []
  | skip + 1, _ :: cs => expandFrom e skip cs
  | 0, c :: cs =>
    if c ≠ '$' then c :: expandFrom e 0 cs
    else match cs with
      | [] => ['$']
      | d :: rest =>
        if d = '{' then
          match splitFirst? ['}'] rest with
          | some (inside, _) =>
            let (name, default) := nameAndDefault inside
            resolve e name default ('$' :: '{' :: inside ++ ['}']) ++
              expandFrom e (inside.length + 2) cs
          | none => '$' :: '{' :: expandFrom e 1 cs
        else if isNameChar d then
          let name := cs.takeWhile isNameChar
          resolve e name none ('$' :: name) ++ expandFrom e name.length cs
        else '$' :: expandFrom e (if d = '$' then 1 else 0) cs

def expand (e : Environment) (s : String) : String := String.ofList (expandFrom e 0 s.toList)

example : expand ⟨[("A", "x")]⟩ "$A ${A} ${B:-y} ${B}" = "x x y ${B}" := by decide +kernel

end BackupAdmin.Environment
