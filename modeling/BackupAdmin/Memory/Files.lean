import BackupAdmin.Config.Disk

/-! Files in memory: a directory tree as the list of what is at each path. -/
namespace BackupAdmin.Memory
open Text

/-- A directory, or a file with its text unless that is not UTF-8. -/
inductive Entry where
  | directory
  | file (text : Option String)
deriving DecidableEq

/-- What is at each path, given by its parts. The root is a directory. -/
abbrev Files := List (List String × Entry)

namespace Files

def parts (path : String) : List String :=
  ((pieces '/' path.toList).filter fun p => !p.isEmpty && p ≠ ['.']).map String.ofList

/-- What is at a path, if all the directories on the way are there. -/
def at? (fs : Files) (path : List String) : Except FileFault Entry :=
  let way := (List.range path.length).map path.take
  if way.any fun p => match fs.lookup p with
      | some (.file _) => true
      | _ => false then .error .notDirectory
  else if path.isEmpty then .ok .directory
  else match fs.lookup path with
    | some e => .ok e
    | none => .error .missing

def put (fs : Files) (path : List String) (e : Entry) : Files :=
  (path, e) :: fs.filter (·.1 ≠ path)

/-- Makes the directories of a path that are not there, given those already made. -/
def makeFrom (fs : Files) (made : List String) : List String → Except FileFault Files
  | [] => .ok fs
  | p :: ps => match fs.at? (made ++ [p]) with
    | .ok .directory => makeFrom fs (made ++ [p]) ps
    | .ok (.file _) => .error (if ps.isEmpty then .present else .notDirectory)
    | .error .missing => makeFrom (fs.put (made ++ [p]) .directory) (made ++ [p]) ps
    | .error f => .error f

def makeDirs (fs : Files) (path : List String) : Except FileFault Files := makeFrom fs [] path

def write (fs : Files) (path : List String) (text : Option String) : Except FileFault Files :=
  match fs.at? path with
  | .ok .directory => .error .isDirectory
  | .error .notDirectory => .error .notDirectory
  | _ => match fs.at? path.dropLast with
    | .ok .directory => .ok (fs.put path (.file text))
    | .ok (.file _) => .error .notDirectory
    | .error f => .error f

def read (fs : Files) (path : List String) : Option (Except FileFault String) :=
  match fs.at? path with
  | .ok .directory => some (.error .isDirectory)
  | .ok (.file none) => some (.error .notText)
  | .ok (.file (some s)) => some (.ok s)
  | .error _ => none

/-- A change of the files, or why there is none. -/
def changed (r : Except FileFault Files) (fs : Files) : Except FileFault Unit × Files :=
  match r with
  | .ok fs => (.ok (), fs)
  | .error f => (.error f, fs)

/-- The disk whose states are files in memory. Nothing is at the empty path. -/
def disk : Disk Files where
  read path fs := (if path = "" then none else fs.read (parts path), fs)
  makeDirs path fs := changed (fs.makeDirs (parts path)) fs
  write path text fs :=
    changed (if path = "" then .error .missing else fs.write (parts path) (some text)) fs

end Files
end BackupAdmin.Memory
