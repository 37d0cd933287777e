import BackupAdmin.Json.Number
import BackupAdmin.Yaml.Scalar

/-! A JSON value as a YAML document in block style. -/
namespace BackupAdmin.Yaml

/-- Ends the line, unless the text has ended it. -/
def endLine (cs : List Char) : List Char :=
  if cs.getLast?.any isBreak then cs else cs ++ ['\n']

def leaf (n : Nat) : Json → List Char
  | .bool true => "true".toList
  | .bool false => "false".toList
  | .number x => x.text.toList
  | .string s => scalar n s
  | .array _ => ['[', ']']
  | .object _ => ['{', '}']
  | _ => "null".toList

/-- Keys longer than this, in bytes, stand on lines of their own. -/
def keyLimit : Nat := 128

/-- A key is written on the line of its value. -/
def isSimpleKey (k : String) : Bool := !k.toList.any isBreak && k.utf8ByteSize ≤ keyLimit

mutual
/-- The lines of a value at column `n`; the first one is already indented. -/
def lines (n : Nat) : Json → List Char
  | .array (v :: vs) => itemLines n (v :: vs)
  | .object (m :: ms) => memberLines n (m :: ms)
  | v => endLine (leaf n v)

def itemLines (n : Nat) : List Json → List Char
  | [] => []
  | v :: vs =>
    '-' :: ' ' :: lines (n + 2) v ++
      if vs.isEmpty then [] else indentation n ++ itemLines n vs

def memberLines (n : Nat) : List (String × Json) → List Char
  | [] => []
  | (k, v) :: ms =>
    (if isSimpleKey k then scalar (n + 2) k ++ ':' :: valueLines n v
      else '?' :: ' ' :: endLine (scalar (n + 2) k) ++ indentation n ++ ':' :: ' ' ::
        lines (n + 2) v) ++
      if ms.isEmpty then [] else indentation n ++ memberLines n ms

/-- The value of a key on the same line: collections start a new line, items at the key's column. -/
def valueLines (n : Nat) : Json → List Char
  | .array (v :: vs) => '\n' :: indentation n ++ itemLines n (v :: vs)
  | .object (m :: ms) => '\n' :: indentation (n + 2) ++ memberLines (n + 2) (m :: ms)
  | v => ' ' :: endLine (leaf (n + 2) v)
end

def text (v : Json) : String :=
  String.ofList (match v with
    | .array (_ :: _) | .object (_ :: _) => lines 0 v
    | v => lines 2 v)

example : text (.array [.array [.null], .string "a"]) = "- - null\n- a\n" := by decide +kernel

end BackupAdmin.Yaml
