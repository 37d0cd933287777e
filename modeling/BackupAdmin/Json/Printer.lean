import BackupAdmin.Json.Number

/-! The text of a JSON value, on one line or indented by two blanks. -/
namespace BackupAdmin.Json
open Text

/-- A character inside quotes: only quotes, backslashes and controls are escaped. -/
def quotedChar (c : Char) : List Char :=
  if c = '"' then ['\\', '"']
  else if c = '\\' then ['\\', '\\']
  else if c = '\n' then ['\\', 'n']
  else if c = '\r' then ['\\', 'r']
  else if c = '\t' then ['\\', 't']
  else if c = '\x08' then ['\\', 'b']
  else if c = '\x0c' then ['\\', 'f']
  else if c.toNat < 0x20 then
    ['\\', 'u', '0', '0', Nat.digitChar (c.toNat / 16), Nat.digitChar (c.toNat % 16)]
  else [c]

def quoted (s : String) : List Char := '"' :: (s.toList.flatMap quotedChar ++ ['"'])

def leafText : Json → List Char
  | .bool true => "true".toList
  | .bool false => "false".toList
  | .number n => n.text.toList
  | .string s => quoted s
  | .array _ => ['[', ']']
  | .object _ => ['{', '}']
  | _ => "null".toList

mutual
/-- The text of a value on one line without blanks. -/
def compactChars : Json → List Char
  | .array items => '[' :: (compactItems items ++ [']'])
  | .object ms => '{' :: (compactMembers ms ++ ['}'])
  | v => leafText v
def compactItems : List Json → List Char
  | [] => []
  | v :: vs => compactChars v ++ (if vs.isEmpty then [] else ',' :: compactItems vs)
def compactMembers : List (String × Json) → List Char
  | [] => []
  | (k, v) :: ms =>
    quoted k ++ ':' :: compactChars v ++ (if ms.isEmpty then [] else ',' :: compactMembers ms)
end

def compact (v : Json) : String := String.ofList (compactChars v)

def newline (depth : Nat) : List Char := '\n' :: List.replicate (2 * depth) ' '

mutual
/-- The indented text of a value that stands at a level of indentation. -/
def prettyChars (depth : Nat) : Json → List Char
  | .array (v :: vs) => '[' :: (prettyItems (depth + 1) (v :: vs) ++ newline depth ++ [']'])
  | .object (m :: ms) => '{' :: (prettyMembers (depth + 1) (m :: ms) ++ newline depth ++ ['}'])
  | v => leafText v
def prettyItems (depth : Nat) : List Json → List Char
  | [] => []
  | v :: vs =>
    newline depth ++ prettyChars depth v ++
      (if vs.isEmpty then [] else ',' :: prettyItems depth vs)
def prettyMembers (depth : Nat) : List (String × Json) → List Char
  | [] => []
  | (k, v) :: ms =>
    newline depth ++ quoted k ++ ':' :: ' ' :: prettyChars depth v ++
      (if ms.isEmpty then [] else ',' :: prettyMembers depth ms)
end

def pretty (v : Json) : String := String.ofList (prettyChars 0 v)

example : compactChars (.array [.null, .object [("a", .bool true)]]) =
    "[null,\x7b\"a\":true\x7d]".toList := by decide
example : prettyChars 0 (.array []) = ['[', ']'] := by decide

end BackupAdmin.Json
