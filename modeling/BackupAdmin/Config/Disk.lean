import BackupAdmin.Config.Basic

/-! Where configurations are kept: files that can be read and written. -/
namespace BackupAdmin

inductive FileFault where
  | present
  | notDirectory
  | isDirectory
  | missing
  | denied
  | notText
  | other (text : String)
deriving DecidableEq

def FileFault.text : FileFault → String
  | .present => "File exists (os error 17)"
  | .notDirectory => "Not a directory (os error 20)"
  | .isDirectory => "Is a directory (os error 21)"
  | .missing => "No such file or directory (os error 2)"
  | .denied => "Permission denied (os error 13)"
  | .notText => "stream did not contain valid UTF-8"
  | .other text => text

/-- Files over states of type `σ`. Reading gives `none` where nothing is. -/
structure Disk (σ : Type) where
  read : String → StateM σ (Option (Except FileFault String))
  makeDirs : String → StateM σ (Except FileFault Unit)
  write : String → String → StateM σ (Except FileFault Unit)

namespace Disk
open Text

/-- The path of the directory around a path; empty for a path of one part. -/
def parent (path : String) : String :=
  let cs := dropEndWhile (· = '/') path.toList
  let dir := cs.take (cs.length - (lastPiece '/' cs).length)
  let short := dropEndWhile (· = '/') dir
  String.ofList (if short.isEmpty then dir.take 1 else short)

variable {σ : Type}

/-- The configuration in a file; without the file it is empty. -/
def load (d : Disk σ) (e : Environment) (path : String) : StateM σ (Except ConfigError Config) := do
  match ← d.read path with
  | none => return .ok {}
  | some (.error f) => return .error (.load path f.text)
  | some (.ok s) => return Config.ofText e s

/-- Writes a configuration to a file, whose directory is made if need be. -/
def save (d : Disk σ) (path : String) (c : Config) : StateM σ (Except ConfigError Unit) := do
  match ← d.makeDirs (parent path) with
  | .error f => return .error (.save (parent path) f.text)
  | .ok () => match ← d.write path c.text with
    | .error f => return .error (.save path f.text)
    | .ok () => return .ok ()

example : parent "a/b.toml" = "a" ∧ parent "/b" = "/" ∧ parent "b" = "" := by decide +kernel

end Disk
end BackupAdmin
