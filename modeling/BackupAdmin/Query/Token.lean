import BackupAdmin.Json.Reader
import BackupAdmin.Query.Basic

/-! Tokens of a query. Main statement: what follows a quoted part is shorter than the text. -/
namespace BackupAdmin.Query
open Text

inductive Token where
  | name (s : String)
  | quotedName (s : String)
  | number (n : Int)
  | literal (v : Json)
  | dot | star | flatten | filter | openBracket | closeBracket | openBrace | closeBrace
  | openParen | closeParen | comma | colon | current | reference
  | pipe | either | both | negation
  | comparison (how : Comparison)
deriving DecidableEq

/-- The inside of a quoted part and what follows it. A backslash takes the next character along. -/
def quotedPart? (mark : Char) : List Char → Option (List Char × List Char)
  | [] => none
  | c :: rest =>
    if c = mark then some ([], rest)
    else if c = '\\' then match rest with
      | [] => none
      | d :: rest => (quotedPart? mark rest).map fun (inside, r) => (c :: d :: inside, r)
    else (quotedPart? mark rest).map fun (inside, r) => (c :: inside, r)

theorem quotedPart?_length {mark : Char} {cs inside rest : List Char}
    (h : quotedPart? mark cs = some (inside, rest)) : rest.length < cs.length := by
  fun_induction quotedPart? mark cs generalizing inside rest <;> simp_all <;> grind

/-- A character whose escape is dropped. -/
def unescape (mark : Char) : List Char → List Char
  | [] => []
  | [c] => [c]
  | c :: d :: rest =>
    if c = '\\' ∧ d = mark then mark :: unescape mark rest else c :: unescape mark (d :: rest)

/-- The token of the inside of a quoted part. -/
def ofQuoted? (mark : Char) (inside : List Char) : Option Token :=
  if mark = '\'' then some (.literal (.string (String.ofList (unescape mark inside))))
  else if mark = '`' then (Json.readValue (String.ofList (unescape mark inside))).map .literal
  else match Json.readValue (String.ofList ('"' :: inside ++ ['"'])) with
    | some (.string s) => some (.quotedName s)
    | _ => none

def isMark (c : Char) : Bool := c = '"' || c = '\'' || c = '`'

def isNameStart (c : Char) : Bool := c.isAlpha || c = '_'

def isNameChar (c : Char) : Bool := c.isAlphanum || c = '_'

def number? (negative : Bool) (ds : List Char) : Option Token :=
  let n := decimal ds
  if UInt32.size / 2 ≤ n then none else some (.number (if negative then -(n : Int) else n))

def pair? : Char → Char → Option Token
  | '[', ']' => some .flatten
  | '[', '?' => some .filter
  | '|', '|' => some .either
  | '&', '&' => some .both
  | '=', '=' => some (.comparison .equal)
  | '!', '=' => some (.comparison .unequal)
  | '<', '=' => some (.comparison .atMost)
  | '>', '=' => some (.comparison .atLeast)
  | _, _ => none

def single? : Char → Option Token
  | '.' => some .dot
  | '*' => some .star
  | '[' => some .openBracket
  | ']' => some .closeBracket
  | '{' => some .openBrace
  | '}' => some .closeBrace
  | '(' => some .openParen
  | ')' => some .closeParen
  | ',' => some .comma
  | ':' => some .colon
  | '@' => some .current
  | '&' => some .reference
  | '|' => some .pipe
  | '!' => some .negation
  | '<' => some (.comparison .less)
  | '>' => some (.comparison .greater)
  | _ => none

/-- The tokens of a text; `none` when some part of it is none. -/
def tokens : List Char → Option (List Token)
  | [] => some []
  | c :: cs =>
    if Json.isGap c then tokens cs
    else if isNameStart c then
      have := (List.dropWhile_sublist (l := cs) isNameChar).length_le
      (tokens (cs.dropWhile isNameChar)).map
        (.name (String.ofList (c :: cs.takeWhile isNameChar)) :: ·)
    else if isDigit c then
      have := (List.dropWhile_sublist (l := cs) isDigit).length_le
      match number? false (c :: cs.takeWhile isDigit) with
      | none => none
      | some t => (tokens (cs.dropWhile isDigit)).map (t :: ·)
    else if c = '-' then
      have := (List.dropWhile_sublist (l := cs) isDigit).length_le
      let ds := cs.takeWhile isDigit
      match if ds.isEmpty || ds.head? = some '0' then none else number? true ds with
      | none => none
      | some t => (tokens (cs.dropWhile isDigit)).map (t :: ·)
    else if isMark c then
      match h : quotedPart? c cs with
      | none => none
      | some (inside, rest) =>
        have := quotedPart?_length h
        match ofQuoted? c inside with
        | none => none
        | some t => (tokens rest).map (t :: ·)
    else match cs.head?.bind (pair? c) with
      | some t =>
        have : cs.tail.length ≤ cs.length := by simp
        (tokens cs.tail).map (t :: ·)
      | none => match single? c with
        | some t => (tokens cs).map (t :: ·)
        | none => none
termination_by cs => cs.length
decreasing_by all_goals simp only [List.length_cons]; omega

example : tokens "a[-1]".toList = some [.name "a", .openBracket, .number (-1), .closeBracket] := by
  cbv

end BackupAdmin.Query
