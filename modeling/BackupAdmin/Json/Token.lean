import BackupAdmin.Json.Number

/-! Tokens of JSON text. A string token may be unreadable: well-formed escapes that name a lone
surrogate. Main statement: a string token is shorter than its input, so scanning ends. -/
namespace BackupAdmin.Json
open Text

/-- A token; strings and numbers carry their value, if they have one. -/
inductive Token where
  | openBrace | closeBrace | openBracket | closeBracket | comma | colon
  | null | bool (b : Bool)
  | string (s : Option String)
  | number (n : Option JsonNumber)

def isGap (c : Char) : Bool := c == ' ' || c == '\t' || c == '\n' || c == '\r'

/-- The number of a four-digit hexadecimal escape. -/
def unit? (a b c d : Char) : Option Nat := do
  let a ← hexValue? a
  let b ← hexValue? b
  let c ← hexValue? c
  let d ← hexValue? d
  some (((a * 16 + b) * 16 + c) * 16 + d)

def escaped? : Char → Option Char
  | '"' => some '"'
  | '\\' => some '\\'
  | '/' => some '/'
  | 'b' => some '\x08'
  | 'f' => some '\x0c'
  | 'n' => some '\n'
  | 'r' => some '\r'
  | 't' => some '\t'
  | _ => none

/-- One element of a string's text: a character, or a unit written as an escape. -/
inductive Piece where
  | char (c : Char)
  | unit (n : Nat)

/-- The pieces up to the closing quote and what follows it. -/
def stringPieces : List Char → Option (List Piece × List Char)
  | [] => none
  | '"' :: r => some ([], r)
  | '\\' :: 'u' :: a :: b :: c :: d :: r => do
    let n ← unit? a b c d
    let (ps, rest) ← stringPieces r
    some (.unit n :: ps, rest)
  | '\\' :: e :: r => do
    let c ← escaped? e
    let (ps, rest) ← stringPieces r
    some (.char c :: ps, rest)
  | c :: r =>
    if c.toNat < 0x20 then none
    else do
      let (ps, rest) ← stringPieces r
      some (.char c :: ps, rest)

/-- The characters that pieces denote; a pair of surrogates is one, a lone surrogate none. -/
def joinPieces : List Piece → Option (List Char)
  | [] => some []
  | .char c :: ps => (joinPieces ps).map (c :: ·)
  | .unit n :: .unit m :: ps =>
    if 0xD800 ≤ n && n < 0xDC00 then
      if 0xDC00 ≤ m && m < 0xE000 then
        (joinPieces ps).map (Char.ofNat (0x10000 + (n - 0xD800) * 0x400 + (m - 0xDC00)) :: ·)
      else none
    else if 0xDC00 ≤ n && n < 0xE000 then none
    else (joinPieces (.unit m :: ps)).map (Char.ofNat n :: ·)
  | .unit n :: ps =>
    if 0xD800 ≤ n && n < 0xE000 then none else (joinPieces ps).map (Char.ofNat n :: ·)

theorem stringPieces_length {s : List Char} {ps : List Piece} {rest : List Char}
    (h : stringPieces s = some (ps, rest)) : rest.length < s.length := by
  fun_induction stringPieces s generalizing ps rest <;>
    simp_all [Option.bind_eq_some_iff] <;> grind

def isNumberChar (c : Char) : Bool :=
  isDigit c || c == '-' || c == '+' || c == '.' || c == 'e' || c == 'E'

def word? (cs : List Char) : Option Token :=
  if cs = "null".toList then some .null
  else if cs = "true".toList then some (.bool true)
  else if cs = "false".toList then some (.bool false)
  else none

/-- The tokens of a text; `none` when some part of it is none. -/
def tokens : List Char → Option (List Token)
  | [] => some []
  | c :: cs =>
    if isGap c then tokens cs
    else if c = '{' then (tokens cs).map (.openBrace :: ·)
    else if c = '}' then (tokens cs).map (.closeBrace :: ·)
    else if c = '[' then (tokens cs).map (.openBracket :: ·)
    else if c = ']' then (tokens cs).map (.closeBracket :: ·)
    else if c = ',' then (tokens cs).map (.comma :: ·)
    else if c = ':' then (tokens cs).map (.colon :: ·)
    else if c = '"' then
      match h : stringPieces cs with
      | none => none
      | some (ps, rest) =>
        have := stringPieces_length h
        (tokens rest).map (.string ((joinPieces ps).map String.ofList) :: ·)
    else if isDigit c || c = '-' then
      have := (List.dropWhile_sublist (l := cs) isNumberChar).length_le
      match JsonNumber.literal? (c :: cs.takeWhile isNumberChar) with
      | none => none
      | some l => (tokens (cs.dropWhile isNumberChar)).map (.number l.value :: ·)
    else if c.isAlpha then
      have := (List.dropWhile_sublist (l := cs) Char.isAlpha).length_le
      match word? (c :: cs.takeWhile Char.isAlpha) with
      | none => none
      | some t => (tokens (cs.dropWhile Char.isAlpha)).map (t :: ·)
    else none
termination_by cs => cs.length
decreasing_by all_goals simp only [List.length_cons]; omega

end BackupAdmin.Json
