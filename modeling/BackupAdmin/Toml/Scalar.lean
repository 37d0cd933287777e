import BackupAdmin.Json.Number
import BackupAdmin.Time.Calendar

/-! The values of TOML that stand without quotes: truth values, numbers, dates and times. -/
namespace BackupAdmin.Toml
open Text

/-- The digits without the underscores between them; elsewhere an underscore is none. -/
def ungrouped? (isDigit : Char → Bool) : List Char → Option (List Char)
  | a :: '_' :: b :: r =>
    if isDigit a && isDigit b then (ungrouped? isDigit (b :: r)).map (a :: ·) else none
  | c :: r => if c = '_' then none else (ungrouped? isDigit r).map (c :: ·)
  | [] => some []

/-- Every underscore of the text stands between two digits. -/
def ungroupedDecimal? (cs : List Char) : Option (List Char) :=
  if cs.head? = some '_' then none else ungrouped? Text.isDigit cs

/-- A whole number. One beyond 64 bits is no value of ours, one beyond 128 bits is an error. -/
def wholeNumber? (n : Int) : Option Json :=
  let size : Int := UInt64.size
  if -(size / 2) ≤ n ∧ n < size then some (.ofInt n)
  else if -(size * size / 2) ≤ n ∧ n < size * size then some .unreadable
  else none

/-- A number in another base, without a sign. -/
def based? (base : Nat) (ds : List Char) : Option Json := do
  if ds.head? = some '_' then none
  let ds ← ungrouped? (fun c => (hexValue? c).any (· < base)) ds
  let n ← natOf? base ds
  wholeNumber? n

def signed : List Char → Bool × List Char
  | '-' :: r => (true, r)
  | '+' :: r => (false, r)
  | cs => (false, cs)

/-- A number in base ten, or a word for one. -/
def decimal? (cs : List Char) : Option Json := do
  let (negative, ds) := signed cs
  if ds = "inf".toList then
    return .number (.float (if negative then 0xFFF0000000000000 else 0x7FF0000000000000))
  if ds = "nan".toList then return .number (.float 0x7FF8000000000000)
  let ds ← ungroupedDecimal? ds
  if !ds.isEmpty && ds.all Text.isDigit then
    if ds.head? = some '0' && 1 < ds.length then none
    else wholeNumber? (if negative then -(Text.decimal ds : Int) else Text.decimal ds)
  else
    if ds.head? = some '-' then none
    let l ← JsonNumber.literal? ds
    let n ← l.value
    some (.number n)

/-- A number of exactly so many digits up to a bound, and what follows it. -/
def field? (width low high : Nat) (cs : List Char) : Option (List Char) := do
  let ds := cs.take width
  if ds.length ≠ width || !ds.all Text.isDigit then none
  let n := Text.decimal ds
  if low ≤ n && n ≤ high then some (cs.drop width) else none

/-- The text after a character that has to be there. -/
def mark? (c : Char) : List Char → Option (List Char)
  | d :: r => if c = d then some r else none
  | [] => none

def afterDate? (cs : List Char) : Option (List Char) := do
  let r ← mark? '-' (← field? 4 0 9999 cs)
  let r ← mark? '-' (← field? 2 1 12 r)
  let year := Text.decimal (cs.take 4)
  let month := Text.decimal ((cs.drop 5).take 2)
  field? 2 1 (Date.monthLength year month) r

def afterTime? (cs : List Char) : Option (List Char) := do
  let r ← mark? ':' (← field? 2 0 23 cs)
  let r ← field? 2 0 59 r
  match r with
  | ':' :: r =>
    let r ← field? 2 0 60 r
    match r with
    | '.' :: f =>
      if (f.takeWhile Text.isDigit).isEmpty then none else some (f.dropWhile Text.isDigit)
    | r => some r
  | r => some r

/-- An offset from the universal time, or none. -/
def isOffset (cs : List Char) : Bool :=
  match cs with
  | [] => true
  | c :: r =>
    if c = 'Z' || c = 'z' then r.isEmpty
    else if c = '+' || c = '-' then
      ((field? 2 0 23 r).bind fun r => (mark? ':' r).bind (field? 2 0 59)) = some []
    else false

/-- A date, a time of day or both. -/
def isDateTime (cs : List Char) : Bool :=
  match afterDate? cs with
  | some [] => true
  | some (c :: r) =>
    (c = 'T' || c = 't' || c = ' ') && (afterTime? r).any isOffset
  | none => afterTime? cs = some []

/-- The value that a text without quotes spells; a date or a time is an object of its text. -/
def scalar? (cs : List Char) : Option Json :=
  if cs = "true".toList then some (.bool true)
  else if cs = "false".toList then some (.bool false)
  else match cs with
    | '0' :: 'x' :: ds => based? 16 ds
    | '0' :: 'o' :: ds => based? 8 ds
    | '0' :: 'b' :: ds => based? 2 ds
    | cs =>
      if isDateTime cs then some (.object [("datetime", .string (String.ofList cs))])
      else decimal? cs

example : scalar? "1_000".toList = some (.ofInt 1000) := by decide +kernel
example : scalar? "01".toList = none ∧ scalar? "1__0".toList = none := by decide +kernel
example : isDateTime "1979-05-27 07:32:00.5Z".toList = true := by decide +kernel

end BackupAdmin.Toml
