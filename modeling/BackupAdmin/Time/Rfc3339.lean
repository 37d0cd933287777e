import BackupAdmin.Time.Instant
import BackupAdmin.Text.Blank

/-! Times as text: the written forms, and two readers of RFC 3339, one of them lenient. -/
namespace BackupAdmin.Instant
open Text

/-- A year in four digits, or with a sign when it has more or is negative. -/
def yearText (y : Int) : List Char :=
  if 0 ≤ y ∧ y ≤ 9999 then padded 4 y.toNat
  else (if y < 0 then '-' else '+') :: padded 4 y.natAbs

def dateText (d : Date) : List Char :=
  yearText d.year ++ '-' :: padded 2 d.month ++ '-' :: padded 2 d.day

/-- Hours, minutes and seconds; a leap second is second sixty. -/
def clockText (t : Instant) : List Char :=
  let s := t.secondOfDay
  let sec := s % 60 + if t.nanos < second then 0 else 1
  padded 2 (s / 3600) ++ ':' :: padded 2 (s / 60 % 60) ++ ':' :: padded 2 sec

/-- The fraction of a second in 0, 3, 6 or 9 digits, as many as it takes. -/
def fractionText (t : Instant) : List Char :=
  let n := t.nanos % second
  if n = 0 then []
  else if n % 1000000 = 0 then '.' :: padded 3 (n / 1000000)
  else if n % 1000 = 0 then '.' :: padded 6 (n / 1000)
  else '.' :: padded 9 n

def dateTimeText (sep : Char) (t : Instant) : List Char :=
  dateText t.date ++ sep :: clockText t ++ fractionText t

/-- The form of data: `2024-05-01T10:00:00.500Z`. -/
def text (t : Instant) : String := String.ofList (dateTimeText 'T' t ++ ['Z'])

/-- The form of reports: `2024-05-01T10:00:00.500+00:00`. -/
def offsetText (t : Instant) : String := String.ofList (dateTimeText 'T' t ++ "+00:00".toList)

/-- The form of messages: `2024-05-01 10:00:00.500 UTC`. -/
def messageText (t : Instant) : String := String.ofList (dateTimeText ' ' t ++ " UTC".toList)

/-- The form of list filters, in whole seconds: `2024-05-01T10:00:00Z`. -/
def filterText (t : Instant) : String :=
  String.ofList (dateText t.date ++ 'T' :: clockText t ++ ['Z'])

/-- Between `low` and `high` decimal digits, as many as there are, and the rest. -/
def digitsBetween? (low high : Nat) (cs : List Char) : Option (Nat × List Char) :=
  let ds := (cs.take high).takeWhile isDigit
  if ds.length < low then none else some (decimal ds, cs.drop ds.length)

def char? (c : Char) : List Char → Option (List Char)
  | d :: cs => if d = c then some cs else none
  | [] => none

/-- Up to nine digits after a point as nanoseconds; digits after the ninth are skipped. -/
def fraction? : List Char → Option (Nat × List Char)
  | '.' :: cs => do
    let (n, rest) ← digitsBetween? 1 9 cs
    let used := cs.length - rest.length
    some (n * Nat.pow 10 (9 - used), rest.dropWhile isDigit)
  | cs => some (0, cs)

/-- An offset in seconds: `Z`, or a sign, two digits of hours and two of minutes, between
which `gap` reads the separator. -/
def offset? (gap : List Char → Option (List Char)) : List Char → Option (Int × List Char)
  | [] => none
  | c :: cs =>
    if c = 'Z' || c = 'z' then some (0, cs)
    else if c = '+' || c = '-' || c = '−' then do
      let (h, cs) ← digitsBetween? 2 2 cs
      let cs ← gap cs
      let (m, cs) ← digitsBetween? 2 2 cs
      if 59 < m then none
      else
        let s : Int := (h * 60 + m) * 60
        some (if c = '+' then s else -s, cs)
    else none

/-- The point in time of a date, a time of day and an offset, when they exist. -/
def ofParts? (d : Date) (h m s n : Nat) (offset : Int) : Option Instant :=
  if d.valid && h ≤ 23 && m ≤ 59 && s ≤ 60 && offset.natAbs < 86400 then
    let leap := s = 60
    let local_ : Int := d.toDays * 86400 + (h * 3600 + m * 60 + if leap then 59 else s : Nat)
    let t : Instant := ⟨local_ - offset, if leap then second + n else n⟩
    let year := t.date.year
    if Date.minYear ≤ year && year ≤ Date.maxYear then some t else none
  else none

/-- Reads the strict form: fixed widths, and nothing after the offset. -/
def ofText? (s : String) : Option Instant := do
  let (y, cs) ← digitsBetween? 4 4 s.toList
  let (mo, cs) ← digitsBetween? 2 2 (← char? '-' cs)
  let (d, cs) ← digitsBetween? 2 2 (← char? '-' cs)
  match cs with
  | sep :: cs =>
    if sep = 'T' || sep = 't' || sep = ' ' then do
      let (h, cs) ← digitsBetween? 2 2 cs
      let (m, cs) ← digitsBetween? 2 2 (← char? ':' cs)
      let (s, cs) ← digitsBetween? 2 2 (← char? ':' cs)
      let (n, cs) ← fraction? cs
      let (o, cs) ← offset? (char? ':') cs
      if cs.isEmpty then ofParts? ⟨y, mo, d⟩ h m s n o else none
    else none
  | [] => none

/-- A year with an optional sign; without one it has at most four digits. -/
def lenientYear? : List Char → Option (Int × List Char)
  | '-' :: cs => (digitsBetween? 1 cs.length cs).map fun (n, r) => (-(n : Int), r)
  | '+' :: cs => (digitsBetween? 1 cs.length cs).map fun (n, r) => ((n : Int), r)
  | cs => (digitsBetween? 1 4 cs).map fun (n, r) => ((n : Int), r)

/-- One or two digits after blanks. -/
def lenientField? (cs : List Char) : Option (Nat × List Char) := digitsBetween? 1 2 (trimStart cs)

/-- The text `UTC` in any case, or an offset with colons and blanks inside. -/
def lenientOffset? (cs : List Char) : Option (Int × List Char) :=
  if equalFold (cs.take 3) ['u', 't', 'c'] then some (0, cs.drop 3)
  else offset? (fun cs => some (cs.dropWhile fun c => c = ':' || isBlank c)) cs

/-- Reads the lenient form: blanks between the parts and at the end, short fields, `UTC`. -/
def ofLenientText? (s : String) : Option Instant := do
  let (y, cs) ← lenientYear? (trimStart s.toList)
  let (mo, cs) ← lenientField? (← char? '-' (trimStart cs))
  let (d, cs) ← lenientField? (← char? '-' (trimStart cs))
  match cs with
  | sep :: cs =>
    if sep = 'T' || sep = 't' || sep = ' ' then do
      let (h, cs) ← lenientField? cs
      let (m, cs) ← lenientField? (← char? ':' (trimStart cs))
      let (s, cs) ← lenientField? (← char? ':' (trimStart cs))
      let (n, cs) ← fraction? cs
      let (o, cs) ← lenientOffset? (trimStart cs)
      if (trimStart cs).isEmpty then ofParts? ⟨y, mo, d⟩ h m s n o else none
    else none
  | [] => none

example : (ofText? "2024-05-01T12:00:00+02:00").map text = some "2024-05-01T10:00:00Z" := by decide +kernel
example : ofText? "2023-02-29T00:00:00Z" = none := by decide +kernel
example : (ofLenientText? "2024-5-1 1: 2:3.25 utc").map text = some "2024-05-01T01:02:03.250Z" := by
  decide +kernel

end BackupAdmin.Instant
