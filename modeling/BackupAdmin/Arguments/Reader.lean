import BackupAdmin.Arguments.Grammar
import BackupAdmin.Config.Environment

/-! Reading a command line word by word. A value that stands alone is settled only when the next
parameter is met or the words end, and an inner command is read to its end before the parameters
in front of it are. -/
namespace BackupAdmin.Arguments
open Text

/-- Why a command line is not carried out; two of them are wishes, not mistakes. -/
inductive Fault where
  | help
  | version
  | commandWanted
  | commandMissing
  | commandUnknown
  | unknown (word : String)
  | valueMissing (shown : String)
  | valueUnwanted (shown : String)
  | notOneOf (shown : String)
  | malformed (shown : String)
  | repeated (shown : String)
  | missing (shown : List String)
deriving DecidableEq

/-- What was given of a parameter: its text, or how often it was there. -/
inductive Given where
  | text (s : String)
  | times (n : Nat)
deriving DecidableEq

/-- How far a command has been read: what is settled, the parameter that waits for its value or
for being settled, the positional ones to come, and whether options have ended. -/
structure Progress where
  given : List (String × Given) := []
  pending : Option (Parameter × Option String) := none
  positionals : List Parameter
  closed : Bool := false

namespace Progress

def start (g : Grammar) : Progress := { positionals := g.positionals }

def has (s : Progress) (p : Parameter) : Bool := (s.given.lookup p.key).isSome

def put (s : Progress) (p : Parameter) (v : Given) : Progress :=
  { s with given := (p.key, v) :: s.given.filter (·.1 ≠ p.key) }

/-- Settles a parameter with its text, if it has one. -/
def store (s : Progress) (p : Parameter) (text : Option String) : Except Fault Progress :=
  match p.role, text with
  | .help, _ => .error .help
  | .version, _ => .error .version
  | .count, _ => .ok (s.put p (.times (match s.given.lookup p.key with
    | some (.times n) => n + 1
    | _ => 1)))
  | .flag, _ => if s.has p then .error (.repeated p.shown) else .ok (s.put p (.times 1))
  | .value _, none => .error (.valueMissing p.shown)
  | .value d, some t =>
    if s.has p then .error (.repeated p.shown)
    else if d.contains t then .ok (s.put p (.text t))
    else match d with
      | .word _ => .error (.notOneOf p.shown)
      | _ => .error (.malformed p.shown)

def settled (s : Progress) : Except Fault Progress :=
  match s.pending with
  | none => .ok s
  | some (p, text) => store { s with pending := none } p text

/-- An option, perhaps with a value attached; without one the next word may be its value. -/
def option (s : Progress) (p : Parameter) (attached : Option String) : Except Fault Progress := do
  let s ← s.settled
  if p.takesValue && attached.isNone then return { s with pending := some (p, none) }
  else s.store p attached

def longOption (s : Progress) (g : Grammar) (cs : List Char) : Except Fault Progress :=
  let name := String.ofList (cs.takeWhile (· ≠ '='))
  let attached := match cs.dropWhile (· ≠ '=') with
    | [] => none
    | _ :: v => some (String.ofList v)
  match g.long? name with
  | none => .error (.unknown ("--" ++ name))
  | some p =>
    if !p.takesValue && attached.isSome then .error (.valueUnwanted p.shown)
    else s.option p attached

/-- Short options in a row; the rest of the word behind one that takes a value is its value. -/
def shortOptions (s : Progress) (g : Grammar) : List Char → Except Fault Progress
  | [] => .ok s
  | c :: cs => match g.short? c with
    | none => .error (.unknown (String.ofList ['-', c]))
    | some p =>
      if p.takesValue then
        s.option p (match cs with
          | [] => none
          | '=' :: v => some (String.ofList v)
          | v => some (String.ofList v))
      else match s.option p none with
        | .ok s => shortOptions s g cs
        | .error f => .error f

/-- The fault of a word for which there is no place. -/
def misplaced (s : Progress) (g : Grammar) (word : String) : Fault :=
  if g.inner.isEmpty || (s.closed && (word = "help" || (g.child? word).isSome)) then .unknown word
  else .commandUnknown

def positional (s : Progress) (g : Grammar) (word : String) : Except Fault Progress :=
  match s.positionals with
  | [] => .error (s.misplaced g word)
  | p :: ps => do
    let s ← s.settled
    return { s with pending := some (p, some word), positionals := ps }

/-- An option waits for its value, which the next word may be. -/
def isWaiting (s : Progress) : Bool :=
  match s.pending with
  | some (_, none) => true
  | _ => false

/-- A word that is no option: the value of the one that waits, or a positional argument. -/
def plainWord (s : Progress) (g : Grammar) (word : String) : Except Fault Progress :=
  match s.pending with
  | some (p, none) => .ok { s with pending := some (p, some word) }
  | _ => s.positional g word

/-- Any word that does not start an inner command. -/
def word (s : Progress) (g : Grammar) (word : String) : Except Fault Progress :=
  if s.closed then s.positional g word
  else match word.toList with
    | ['-', '-'] => .ok { s with closed := true }
    | '-' :: '-' :: cs => s.longOption g cs
    | '-' :: c :: cs => s.shortOptions g (c :: cs)
    | _ => s.plainWord g word

/-- The parameters that the command line or the environment gives. -/
def supplied (s : Progress) (e : Environment) (g : Grammar) : List Parameter :=
  (g.options ++ g.positionals).filter fun p => s.has p || (p.envVar.bind e.get?).isSome

/-- What was given, once the words have ended: a command that has inner ones needs one of them,
and what is required has to be there. -/
def finish (s : Progress) (e : Environment) (g : Grammar) (hasInner : Bool) :
    Except Fault (List (String × Given)) := do
  let s ← s.settled
  let supplied := s.supplied e g
  if !g.inner.isEmpty && !hasInner then
    throw (if supplied.isEmpty then .commandWanted else .commandMissing)
  match g.required.filter (!supplied.contains ·) with
  | [] => return s.given
  | ps => throw (.missing (ps.map (·.shown)))

end Progress

/-- Help on an inner command, by the words that lead to it. -/
def helpOn (g : Grammar) : List String → Fault
  | [] => .help
  | w :: ws => match g.child? w with
    | some c => helpOn c ws
    | none => if w = "help" && !g.inner.isEmpty && ws.isEmpty then .help else .commandUnknown

/-- A command by its name, and what was given of its parameters. -/
abbrev Level := String × List (String × Given)

/-- The commands that the words name, from the outermost on. -/
def readFrom (e : Environment) (g : Grammar) (s : Progress) :
    List String → Except Fault (List Level)
  | [] => do return [(g.name, ← s.finish e g false)]
  | w :: ws =>
    if s.closed || s.isWaiting then do readFrom e g (← s.word g w) ws
    else match g.child? w with
      | some c => do
        let inner ← readFrom e c (.start c) ws
        return (g.name, ← s.finish e g true) :: inner
      | none =>
        if w = "help" && !g.inner.isEmpty then .error (helpOn g ws)
        else do readFrom e g (← s.word g w) ws

/-- What was read: the commands with what was given to each, and the environment. -/
structure Reading where
  levels : List Level
  environment : Environment

def read (e : Environment) (g : Grammar) (words : List String) : Except Fault Reading := do
  return ⟨← readFrom e g (.start g) words, e⟩

namespace Reading

def path (r : Reading) : List String := (r.levels.map (·.1)).drop 1

/-- What the innermost command that has it gives of a parameter. -/
def given? (r : Reading) (p : Parameter) : Option Given :=
  r.levels.reverse.findSome? fun l => l.2.lookup p.key

/-- The text of a parameter, from the words or the environment. -/
def text? (r : Reading) (p : Parameter) : Option String :=
  match r.given? p with
  | some (.text s) => some s
  | _ => p.envVar.bind r.environment.get?

def times (r : Reading) (p : Parameter) : Nat :=
  match r.given? p with
  | some (.times n) => n
  | _ => 0

end Reading
end BackupAdmin.Arguments
