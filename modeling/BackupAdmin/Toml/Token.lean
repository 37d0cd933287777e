import BackupAdmin.Text.Digits

/-! Tokens of TOML text: signs, blanks, line ends, quoted texts, and runs of all other characters.
Main statement: what follows a quoted text is shorter than the text, so scanning ends. -/
namespace BackupAdmin.Toml
open Text

/-- A token. A quoted text of several lines can be a value, but not a key. -/
inductive Token where
  | gap (blanks : List Char)
  | newline
  | dot | comma | equals
  | openBracket | closeBracket | openBrace | closeBrace
  | quoted (cs : List Char) (lines : Bool)
  | bare (cs : List Char)
deriving DecidableEq

def isGap (c : Char) : Bool := c = ' ' || c = '\t'

/-- Controls, which stand nowhere but in escapes; a tab is none. -/
def isControl (c : Char) : Bool := (c.toNat < 0x20 && c ≠ '\t') || c.toNat = 0x7F

def charOfHex? (ds : List Char) : Option Char :=
  (natOf? 16 ds).bind fun n => if n.isValidChar then some (Char.ofNat n) else none

def escaped? : Char → Option Char
  | '"' => some '"'
  | '\\' => some '\\'
  | 'b' => some '\x08'
  | 't' => some '\t'
  | 'n' => some '\n'
  | 'f' => some '\x0c'
  | 'r' => some '\r'
  | 'e' => some '\x1b'
  | _ => none

/-- The character of the escape that follows a backslash, and the number of characters it takes. -/
def escape? : List Char → Option (Char × Nat)
  | [] => none
  | e :: r =>
    let n := if e = 'x' then 2 else if e = 'u' then 4 else if e = 'U' then 8 else 0
    if n = 0 then (escaped? e).map (·, 1)
    else if (r.take n).length = n then (charOfHex? (r.take n)).map (·, n + 1)
    else none

/-- The text up to the closing quote, and what follows it; `skip` characters belong to an escape. -/
def lineText (escapes : Bool) (quote : Char) : Nat → List Char → Option (List Char × List Char)
  | _, [] => none
  | skip + 1, _ :: r => lineText escapes quote skip r
  | 0, c :: r =>
    if c = quote then some ([], r)
    else if isControl c then none
    else if escapes && c = '\\' then
      match escape? r with
      | none => none
      | some (d, n) => (lineText escapes quote n r).map fun (cs, rest) => (d :: cs, rest)
    else (lineText escapes quote 0 r).map fun (cs, rest) => (c :: cs, rest)

/-- What is being read within a text of several lines: characters of it, the rest of an escape,
or the blanks and line ends behind a backslash at the end of a line. -/
inductive Within where
  | text
  | skipping (n : Nat)
  | trimming
deriving DecidableEq

/-- The text up to three closing quotes, two more of which may belong to it. -/
def linesText (escapes : Bool) (quote : Char) : Within → List Char → Option (List Char × List Char)
  | _, [] => none
  | .skipping (n + 1), _ :: r => linesText escapes quote (.skipping n) r
  | w, c :: r =>
    if w = .trimming && (isGap c || c = '\n') then linesText escapes quote .trimming r
    else if c = '\r' then
      if r.head? = some '\n' then linesText escapes quote w r else none
    else if c = quote then
      let n := ((c :: r).takeWhile (· = quote)).length
      if 3 ≤ n then some (List.replicate (min n 5 - 3) quote, r.drop (min n 5 - 1))
      else (linesText escapes quote .text r).map fun (cs, rest) => (c :: cs, rest)
    else if isControl c && c ≠ '\n' then none
    else if escapes && c = '\\' then
      if ((r.dropWhile isGap).dropWhile (· = '\r')).head? = some '\n' then
        linesText escapes quote .trimming r
      else match escape? r with
        | none => none
        | some (d, n) => (linesText escapes quote (.skipping n) r).map fun (cs, rest) => (d :: cs, rest)
    else (linesText escapes quote .text r).map fun (cs, rest) => (c :: cs, rest)

theorem lineText_length {b : Bool} {q : Char} {n : Nat} {s cs rest : List Char}
    (h : lineText b q n s = some (cs, rest)) : rest.length < s.length := by
  fun_induction lineText b q n s generalizing cs rest <;>
    simp_all [Option.map_eq_some_iff] <;> grind

theorem linesText_length {b : Bool} {q : Char} {w : Within} {s cs rest : List Char}
    (h : linesText b q w s = some (cs, rest)) : rest.length < s.length := by
  fun_induction linesText b q w s generalizing cs rest <;> grind [Option.map_eq_some_iff]

/-- A line end right behind the opening quotes is no part of the text. -/
def withoutFirstLine : List Char → List Char
  | '\n' :: r => r
  | '\r' :: '\n' :: r => r
  | cs => cs

theorem withoutFirstLine_length (s : List Char) : (withoutFirstLine s).length ≤ s.length := by
  fun_cases withoutFirstLine s <;> grind

/-- The quoted text behind an opening quote: its token and what follows. -/
def quoted? (quote : Char) (cs : List Char) : Option (Token × List Char) :=
  let escapes := quote = '"'
  if [quote, quote].isPrefixOf cs then
    (linesText escapes quote .text (withoutFirstLine (cs.drop 2))).map
      fun (t, rest) => (.quoted t true, rest)
  else (lineText escapes quote 0 cs).map fun (t, rest) => (.quoted t false, rest)

theorem quoted?_length {q : Char} {s rest : List Char} {t : Token}
    (h : quoted? q s = some (t, rest)) : rest.length < s.length := by
  unfold quoted? at h
  dsimp only at h
  split at h
  · obtain ⟨⟨u, r⟩, hu, he⟩ := Option.map_eq_some_iff.1 h
    have := linesText_length hu
    have := withoutFirstLine_length (s.drop 2)
    simp_all; omega
  · obtain ⟨⟨u, r⟩, hu, he⟩ := Option.map_eq_some_iff.1 h
    have := lineText_length hu
    simp_all

def sign? (c : Char) : Option Token :=
  if c = '.' then some .dot
  else if c = ',' then some .comma
  else if c = '=' then some .equals
  else if c = '[' then some .openBracket
  else if c = ']' then some .closeBracket
  else if c = '{' then some .openBrace
  else if c = '}' then some .closeBrace
  else none

/-- Characters of a run without signs, blanks, quotes or comments in it. -/
def isBare (c : Char) : Bool :=
  !isGap c && !isControl c && (sign? c).isNone && c ≠ '"' && c ≠ '\'' && c ≠ '#'

/-- The tokens of a text; comments are none. `none` when some part of the text is no token. -/
def tokens : List Char → Option (List Token)
  | [] => some []
  | c :: cs =>
    if c = '\n' then (tokens cs).map (.newline :: ·)
    else if c = '\r' then if cs.head? = some '\n' then tokens cs else none
    else if isGap c then
      have := (List.dropWhile_sublist (l := cs) isGap).length_le
      (tokens (cs.dropWhile isGap)).map (.gap (c :: cs.takeWhile isGap) :: ·)
    else if c = '#' then
      have := (List.dropWhile_sublist (l := cs) (!isControl ·)).length_le
      tokens (cs.dropWhile (!isControl ·))
    else if c = '"' || c = '\'' then
      match h : quoted? c cs with
      | none => none
      | some (t, rest) =>
        have := quoted?_length h
        (tokens rest).map (t :: ·)
    else match sign? c with
      | some t => (tokens cs).map (t :: ·)
      | none =>
        if isBare c then
          have := (List.dropWhile_sublist (l := cs) isBare).length_le
          (tokens (cs.dropWhile isBare)).map (.bare (c :: cs.takeWhile isBare) :: ·)
        else none
termination_by cs => cs.length
decreasing_by all_goals simp only [List.length_cons]; omega

example : tokens "a.'b' = 1 # x".toList = some [.bare ['a'], .dot, .quoted ['b'] false, .gap [' '],
    .equals, .gap [' '], .bare ['1'], .gap [' ']] := by cbv

end BackupAdmin.Toml
