import BackupAdmin.Admin.Error
import BackupAdmin.Operation.Basic

/-! Which items a filter admits: terms joined by AND, each of them a field, a relation and a value. -/
namespace BackupAdmin.Memory
open Text

inductive Field where
  | text (s : String)
  | size (n : Int64)
  | time (t : Option Instant)

def backupField (b : Backup) (key : String) : Option Field :=
  match key with
  | "name" => some (.text b.name)
  | "database" => some (.text b.database)
  | "state" => some (.text b.state.text)
  | "size_bytes" => some (.size b.sizeBytes)
  | "create_time" => some (.time b.createTime)
  | "expire_time" => some (.time b.expireTime)
  | "version_time" => some (.time b.versionTime)
  | _ => none

/-- The type that an operation's work is written with. -/
def typeText : Metadata → String
  | .createBackup .. => Metadata.createBackupType
  | .copyBackup .. => Metadata.copyBackupType
  | .restoreDatabase .. => Metadata.restoreDatabaseType
  | .optimizeRestored .. => Metadata.optimizeRestoredType
  | .createDatabase _ => Metadata.createDatabaseType
  | .unknown => "Unknown"

def operationField (o : Operation) (key : String) : Option Field :=
  match key with
  | "name" => some (.text o.name)
  | "done" => some (.text (if o.done then "true" else "false"))
  | "metadata.@type" => some (.text ((o.metadata.map typeText).getD ""))
  | "metadata.name" => some (.text ((o.metadata.bind (·.resourceName)).getD ""))
  | "metadata.database" => some (.text (match o.metadata with
    | some (.createBackup _ database _ _) => database
    | _ => ""))
  | "metadata.source_backup" => some (.text (match o.metadata with
    | some (.copyBackup _ source _ _) => source
    | _ => ""))
  | _ => none

inductive Relation where
  | ge | le | ne | gt | lt | eq
  | has
deriving DecidableEq

/-- The spellings, in the order in which they are looked for. -/
def comparisons : List (String × Relation) :=
  [(">=", .ge), ("<=", .le), ("!=", .ne), (">", .gt), ("<", .lt), ("=", .eq)]

/-- A term's key, relation and value: the first spelling that occurs, at its first place, or
else the first colon. -/
def splitTerm (term : List Char) : Option (List Char × Relation × List Char) :=
  match comparisons.findSome? fun (op, r) =>
      (splitFirst? op.toList term).map fun (key, value) => (key, r, value) with
  | some parts => some parts
  | none => (splitFirst? [':'] term).map fun (key, value) => (key, .has, value)

def compareInstants (a b : Instant) : Ordering :=
  if a.before b then .lt else if b.before a then .gt else .eq

/-- A relation holds for a comparison; on numbers and times `:` means equality. -/
def Relation.holds : Relation → Ordering → Bool
  | .ge, o => o ≠ .lt
  | .le, o => o ≠ .gt
  | .ne, o => o ≠ .eq
  | .gt, o => o = .gt
  | .lt, o => o = .lt
  | .eq, o | .has, o => o = .eq

/-- A relation between texts; order relations have no meaning there. -/
def Relation.holdsText (r : Relation) (text : String) (value : List Char) : Option Bool :=
  match r with
  | .has => some (contains value text.toList)
  | .eq => some (text.toList == value)
  | .ne => some (text.toList != value)
  | _ => none

def sizeValue? (value : List Char) : Option Int64 := (intOf? value).bind int64?

/-- Whether a term admits an item with these fields; `none` when the term has no meaning. -/
def termAdmits? (field : String → Option Field) (term : List Char) : Option Bool := do
  let (key, r, value) ← splitTerm term
  let value := trimWhile (· = '"') (trim value)
  match ← field (String.ofList (trim key)) with
  | .text s => r.holdsText s value
  | .size n => return r.holds (compare n.toInt (← sizeValue? value).toInt)
  | .time none => some false
  | .time (some t) =>
    return r.holds (compareInstants t (← Instant.ofLenientText? (String.ofList value)))

/-- The terms of a filter without blanks and brackets around them. -/
def terms (filter : List Char) : List (List Char) :=
  (piecesFrom " AND ".toList 0 filter).map fun t =>
    trim (dropEndWhile (· = ')') ((trim t).dropWhile (· = '(')))

def unsupported (term : List Char) : AdminError :=
  .invalidArgument ("unsupported filter term '" ++ String.ofList term ++ "'")

/-- All terms admit an item; the first that does not decides, be it by having no meaning. -/
def termsAdmit (field : String → Option Field) : List (List Char) → Except AdminError Bool
  | [] => .ok true
  | t :: ts => match termAdmits? field t with
    | none => .error (unsupported t)
    | some false => .ok false
    | some true => termsAdmit field ts

/-- Whether a filter admits an item; without a filter, or with a blank one, it is admitted. -/
def admits (field : String → Option Field) (filter : Option String) : Except AdminError Bool :=
  let cs := trim (filter.getD "").toList
  if cs.isEmpty then .ok true else termsAdmit field (terms cs)

end BackupAdmin.Memory
