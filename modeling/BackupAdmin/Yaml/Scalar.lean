import BackupAdmin.Yaml.Resolution

/-! Texts as scalars of a YAML document: without quotes where the text allows it, on several lines
where it has some, else in quotes. -/
namespace BackupAdmin.Yaml
open Text

def isBreak (c : Char) : Bool :=
  c = '\n' || c = '\r' || c.toNat = 0x85 || c.toNat = 0x2028 || c.toNat = 0x2029

/-- A blank, the end of a line, or the end of the text. -/
def isGapOrEnd : Option Char → Bool
  | none => true
  | some c => c = ' ' || c = '\t' || c.toNat = 0 || isBreak c

/-- Characters that stand for themselves. -/
def isPrintable (c : Char) : Bool :=
  let n := c.toNat
  n = 0x0A || (0x20 ≤ n && n ≤ 0x7E) || (0xA0 ≤ n && n ≤ 0xD7FF) ||
    (0xE000 ≤ n && n ≤ 0xFFFD && n ≠ 0xFEFF) || 0x10000 ≤ n

/-- The first character means something to YAML. -/
def hasLeadingSign : List Char → Bool
  | [] => false
  | c :: rest =>
    "#,[]\x7b\x7d&*!|>'\"%@`".toList.contains c ||
      ((c = '?' || c = ':' || c = '-') && isGapOrEnd rest.head?)

/-- A colon before a gap, or a number sign behind one, past the first character. -/
def hasInnerSign (behindGap : Bool) : List Char → Bool
  | [] => false
  | c :: rest =>
    (c = ':' && isGapOrEnd rest.head?) || (c = '#' && behindGap) ||
      hasInnerSign (isGapOrEnd (some c)) rest

/-- The text looks like a mark between documents, or some character means something to YAML. -/
def hasSign (cs : List Char) : Bool :=
  "---".toList.isPrefixOf cs || "...".toList.isPrefixOf cs || hasLeadingSign cs ||
    match cs with
    | [] => false
    | c :: rest => hasInnerSign (isGapOrEnd (some c)) rest

/-- Some character that satisfies `p` stands right before one that satisfies `q`. -/
def hasPair (p q : Char → Bool) : List Char → Bool
  | c :: d :: rest => (p c && q d) || hasPair p q (d :: rest)
  | _ => false

/-- Some character cannot stand for itself, or a blank ends a line other than the last. -/
def needsEscapes (cs : List Char) : Bool :=
  cs.any (!isPrintable ·) || hasPair (· = ' ') isBreak cs

def allowsPlain (cs : List Char) : Bool :=
  let outer := fun c : Option Char => c.any fun c => c = ' ' || isBreak c
  !(hasSign cs || cs.any isBreak || needsEscapes cs || outer cs.head? || outer cs.getLast?)

def allowsSingle (cs : List Char) : Bool := !(needsEscapes cs || hasPair isBreak (· = ' ') cs)

def allowsBlock (cs : List Char) : Bool := !(needsEscapes cs || cs.getLast? = some ' ')

inductive Style where
  | plain | single | double | block
deriving DecidableEq

def styleOf (s : String) : Style :=
  let cs := s.toList
  if cs.contains '\n' then (if allowsBlock cs then .block else .double)
  else if !isAmbiguous s && allowsPlain cs then .plain
  else if allowsSingle cs then .single
  else .double

def indentation (n : Nat) : List Char := List.replicate n ' '

/-- Line ends are copied, and what starts a line is indented; `fresh` at the start of a line. -/
def indented (n : Nat) (fresh : Bool) : List Char → List Char
  | [] => []
  | c :: cs =>
    if isBreak c then c :: indented n true cs
    else (if fresh then indentation n else []) ++ c :: indented n false cs

def escapeLetter? (c : Char) : Option Char :=
  match c.toNat with
  | 0x00 => some '0'
  | 0x07 => some 'a'
  | 0x08 => some 'b'
  | 0x09 => some 't'
  | 0x0A => some 'n'
  | 0x0B => some 'v'
  | 0x0C => some 'f'
  | 0x0D => some 'r'
  | 0x1B => some 'e'
  | 0x22 => some '"'
  | 0x5C => some '\\'
  | 0x85 => some 'N'
  | 0x2028 => some 'L'
  | 0x2029 => some 'P'
  | _ => none

def escapedChar (c : Char) : List Char :=
  match escapeLetter? c with
  | some l => ['\\', l]
  | none =>
    let n := c.toNat
    if isPrintable c then [c]
    else if n ≤ 0xFF then '\\' :: 'x' :: paddedHex 2 n
    else if n ≤ 0xFFFF then '\\' :: 'u' :: paddedHex 4 n
    else '\\' :: 'U' :: paddedHex 8 n

/-- The sign behind the mark of a block: how many line ends are kept at its end. -/
def chomping (cs : List Char) : List Char :=
  match cs.reverse with
  | [] => ['-']
  | [c] => if isBreak c then ['+'] else ['-']
  | c :: d :: _ => if !isBreak c then ['-'] else if isBreak d then ['+'] else []

/-- A text as a scalar, the lines of which are indented by `n`. -/
def scalar (n : Nat) (s : String) : List Char :=
  let cs := s.toList
  match styleOf s with
  | .plain => cs
  | .single =>
    let close := if cs.getLast?.any isBreak then indentation n else []
    '\'' :: indented n false (replaceChar '\'' ['\'', '\''] cs) ++ close ++ ['\'']
  | .double => '"' :: cs.flatMap escapedChar ++ ['"']
  | .block =>
    let hint := if cs.head?.any fun c => c = ' ' || isBreak c then ['2'] else []
    '|' :: hint ++ chomping cs ++ '\n' :: indented n true cs

example : scalar 2 "a\nb\n" = "|\n  a\n  b\n".toList := by decide +kernel
example : scalar 2 "a: b" = "'a: b'".toList ∧ scalar 2 "a:b" = "a:b".toList := by decide +kernel

end BackupAdmin.Yaml
