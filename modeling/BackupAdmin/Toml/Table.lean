import BackupAdmin.Json.Basic

/-! Tables as they grow line by line. What a table came from decides what may be added to it: a
table named by its own header is not opened again, and dotted keys extend only what dotted keys
have made. -/
namespace BackupAdmin.Toml

/-- A part of a document: a finished value; a table that is still open, implied by a longer name
or made by a dotted key; or a list of tables, of which the last one is open. -/
inductive Node where
  | leaf (v : Json)
  | table (implied dotted : Bool) (members : List (String × Node))
  | tables (items : List (List (String × Node)))

abbrev Members := List (String × Node)

mutual
def Node.toJson : Node → Json
  | .leaf v => v
  | .table _ _ ms => .object (membersJson ms)
  | .tables ts => .array (tablesJson ts)
def membersJson : List (String × Node) → List (String × Json)
  | [] => []
  | (k, n) :: ms => (k, n.toJson) :: membersJson ms
def tablesJson : List (List (String × Node)) → List Json
  | [] => []
  | t :: ts => .object (membersJson t) :: tablesJson ts
end

/-- Puts a member in place of the one of the same name, or at the end. -/
def setMember (k : String) (n : Node) (ms : Members) : Members :=
  if ms.any (·.1 = k) then ms.map fun m => if m.1 = k then (k, n) else m else ms ++ [(k, n)]

def changeLast (f : Members → Option Members) (ts : List Members) : Option (List Members) := do
  let t ← ts.getLast?
  let t ← f t
  some (ts.dropLast ++ [t])

/-- Adds a value under a dotted key to a table that a dotted key has or has not made. -/
def addDotted (key : String) (v : Json) : List String → Bool → Members → Option Members
  | [], dotted, ms => if ms.any (·.1 = key) || !dotted then none else some (ms ++ [(key, .leaf v)])
  | p :: path, _, ms => match ms.lookup p with
    | none => (addDotted key v path true []).map fun t => setMember p (.table true true t) ms
    | some (.table implied dotted t) =>
      if implied then (addDotted key v path dotted t).map fun t =>
        setMember p (.table implied dotted t) ms
      else none
    | some (.tables ts) =>
      (changeLast (addDotted key v path false) ts).map fun ts => setMember p (.tables ts) ms
    | some (.leaf _) => none

def addValue (path : List String) (v : Json) (ms : Members) : Option Members :=
  match path.getLast? with
  | none => none
  | some key =>
    if path.length = 1 then if ms.any (·.1 = key) then none else some (ms ++ [(key, .leaf v)])
    else addDotted key v path.dropLast false ms

/-- Opens the table, or the next of the tables, that a header names. -/
def openTable (many : Bool) : List String → Members → Option Members
  | [], _ => none
  | [k], ms => match ms.lookup k with
    | none => some (ms ++ [(k, if many then .tables [[]] else .table false false [])])
    | some (.table true false t) =>
      if many then none else some (setMember k (.table false false t) ms)
    | some (.tables ts) => if many then some (setMember k (.tables (ts ++ [[]])) ms) else none
    | _ => none
  | k :: path, ms => match ms.lookup k with
    | none => (openTable many path []).map fun t => ms ++ [(k, .table true false t)]
    | some (.table i d t) => (openTable many path t).map fun t => setMember k (.table i d t) ms
    | some (.tables ts) =>
      (changeLast (openTable many path) ts).map fun ts => setMember k (.tables ts) ms
    | some (.leaf _) => none

/-- Changes the table that the last header has opened. -/
def changeAt (f : Members → Option Members) : List String → Members → Option Members
  | [], ms => f ms
  | k :: path, ms => match ms.lookup k with
    | some (.table i d t) => (changeAt f path t).map fun t => setMember k (.table i d t) ms
    | some (.tables ts) => (changeLast (changeAt f path) ts).map fun ts => setMember k (.tables ts) ms
    | _ => none

end BackupAdmin.Toml
