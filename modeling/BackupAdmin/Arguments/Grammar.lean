import BackupAdmin.Text.Digits
import BackupAdmin.Time.Rfc3339

/-! The grammar of command lines: options, positional arguments and commands inside commands. -/
namespace BackupAdmin.Arguments

inductive Domain where
  | any
  | word (words : List String)
  | instant
  | positive
deriving DecidableEq

/-- The positive number of at most 64 bits that a text spells. -/
def positive? (s : String) : Option Nat :=
  let ds := match s.toList with
    | '+' :: ds => ds
    | ds => ds
  (Text.natOf? 10 ds).filter fun n => 0 < n && n < UInt64.size

def Domain.contains (d : Domain) (s : String) : Bool :=
  match d with
  | .any => true
  | .word words => words.contains s
  | .instant => (Instant.ofText? s).isSome
  | .positive => (positive? s).isSome

/-- What giving a parameter does: it sets a value, is noted or counted, or asks for a text. -/
inductive Role where
  | value (domain : Domain)
  | flag
  | count
  | help
  | version
deriving DecidableEq

/-- A parameter; without a long name it is positional. A variable of the environment may give the
value that the command line does not. -/
structure Parameter where
  key : String
  role : Role := .value .any
  long : Option String := none
  short : Option Char := none
  envVar : Option String := none
  required : Bool := false
deriving DecidableEq

namespace Parameter

def takesValue (p : Parameter) : Bool :=
  match p.role with
  | .value _ => true
  | _ => false

def shown (p : Parameter) : String :=
  match p.long with
  | some name => "--" ++ name
  | none => "<" ++ p.key.toUpper ++ ">"

end Parameter

/-- A command with its parameters, and the commands inside it, one of which has to follow. -/
inductive Grammar where
  | command (name : String) (aliases : List String) (options positionals : List Parameter)
      (inner : List Grammar)

namespace Grammar

def name : Grammar → String
  | command n .. => n

def aliases : Grammar → List String
  | command _ as .. => as

def options : Grammar → List Parameter
  | command _ _ os .. => os

def positionals : Grammar → List Parameter
  | command _ _ _ ps _ => ps

def inner : Grammar → List Grammar
  | command _ _ _ _ gs => gs

def child? (g : Grammar) (word : String) : Option Grammar :=
  g.inner.find? fun c => c.name = word || c.aliases.contains word

def long? (g : Grammar) (name : String) : Option Parameter :=
  g.options.find? (·.long = some name)

def short? (g : Grammar) (c : Char) : Option Parameter := g.options.find? (·.short = some c)

/-- Parameters that have to be given, the options first. -/
def required (g : Grammar) : List Parameter := (g.options ++ g.positionals).filter (·.required)

end Grammar

example : positive? "+5" = some 5 ∧ positive? "0" = none ∧ positive? "-1" = none := by decide +kernel

end BackupAdmin.Arguments
