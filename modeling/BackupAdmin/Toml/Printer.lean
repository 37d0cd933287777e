import BackupAdmin.Json.Printer

/-! Writing TOML: objects are tables, and every text has the plainest of the four kinds of quotes
that can hold it. -/
namespace BackupAdmin.Toml
open Text

/-- Characters that only an escape can write; a tab and a line end are none. -/
def needsEscape (c : Char) : Bool :=
  (c.toNat < 0x20 && c ≠ '\t' && c ≠ '\n') || c.toNat = 0x7F

/-- The length of the longest run of `c` in a text; `n` of it stand right before the text. -/
def longestRun (c : Char) : Nat → List Char → Nat
  | n, [] => n
  | n, d :: cs => if d = c then longestRun c (n + 1) cs else max n (longestRun c 0 cs)

/-- An escape for a character; `keepsLines` says that a line end stands for itself. -/
def escapedChar (keepsLines : Bool) (c : Char) : List Char :=
  if c = '\x08' then ['\\', 'b']
  else if c = '\t' then ['\\', 't']
  else if c = '\n' then if keepsLines then ['\n'] else ['\\', 'n']
  else if c = '\x0c' then ['\\', 'f']
  else if c = '\r' then ['\\', 'r']
  else if c = '\\' then ['\\', '\\']
  else if needsEscape c then '\\' :: 'u' :: paddedHex 4 c.toNat
  else [c]

/-- A text with escapes; of quotes in a row, those beyond `allowed` are escaped. -/
def escapedText (keepsLines : Bool) (allowed : Nat) : Nat → List Char → List Char
  | _, [] => []
  | run, c :: cs =>
    if c = '"' then
      if run < allowed then '"' :: escapedText keepsLines allowed (run + 1) cs
      else '\\' :: '"' :: escapedText keepsLines allowed 0 cs
    else escapedChar keepsLines c ++ escapedText keepsLines allowed 0 cs

def onLine (quote : Char) (cs : List Char) : List Char := quote :: (cs ++ [quote])

def onLines (quote : Char) (cs : List Char) : List Char :=
  quote :: quote :: quote :: '\n' :: (cs ++ [quote, quote, quote])

def quotedText (s : String) : List Char :=
  let cs := s.toList
  let escape := cs.any needsEscape
  let lines := cs.contains '\n'
  let backslash := cs.contains '\\'
  let doubles := longestRun '"' 0 cs
  let singles := longestRun '\'' 0 cs
  if !escape && !backslash && doubles = 0 && !lines then onLine '"' (escapedText false 0 0 cs)
  else if !escape && singles = 0 && !lines then onLine '\'' cs
  else if !escape && !backslash && doubles ≤ 2 then onLines '"' (escapedText true 2 0 cs)
  else if !escape && singles ≤ 2 then onLines '\'' cs
  else if lines then onLines '"' (escapedText true 2 0 cs)
  else onLine '"' (escapedText false 0 0 cs)

/-- A part of a key, in quotes only where it has to be. -/
def keyText (s : String) : List Char :=
  let cs := s.toList
  let escape := cs.any fun c => needsEscape c || c = '\n'
  if !cs.isEmpty && cs.all fun c => c.isAlphanum || c = '_' || c = '-' then cs
  else if !escape && !cs.contains '\\' && !cs.contains '"' then onLine '"' (escapedText false 0 0 cs)
  else if !escape && !cs.contains '\'' then onLine '\'' cs
  else onLine '"' (escapedText false 0 0 cs)

def pathText (path : List String) : List Char := [ '.' ].intercalate (path.map keyText)

def leafText : Json → List Char
  | .string s => quotedText s
  | v => v.compactChars

def isTable : Json → Bool
  | .object _ => true
  | _ => false

/-- The lines for the members that are no tables. -/
def ownLines : List (String × Json) → List Char
  | [] => []
  | (k, v) :: ms =>
    (if isTable v then [] else keyText k ++ " = ".toList ++ leafText v ++ ['\n']) ++ ownLines ms

mutual
/-- The sections of a table: its own lines under its header, then the tables in it. A table that
holds only tables has no section of its own. -/
def sections (path : List String) : Json → List (List Char)
  | .object ms =>
    let own := ownLines ms
    let header := if path.isEmpty then [] else '[' :: pathText path ++ "]\n".toList
    (if own.isEmpty && (path.isEmpty || !ms.isEmpty) then [] else [header ++ own]) ++
      innerSections path ms
  | _ => []
def innerSections (path : List String) : List (String × Json) → List (List Char)
  | [] => []
  | (k, v) :: ms => sections (path ++ [k]) v ++ innerSections path ms
end

def text (v : Json) : String := String.ofList (['\n'].intercalate (sections [] v))

example : text (.object [("a", .object [("b", .ofInt 1)])]) = "[a]\nb = 1\n" := by decide +kernel
example : quotedText "it's" = "\"it's\"".toList ∧ quotedText "a\"b" = "'a\"b'".toList := by
  decide +kernel

end BackupAdmin.Toml
