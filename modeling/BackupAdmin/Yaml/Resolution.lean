import BackupAdmin.Text.Blank
import BackupAdmin.Text.Digits

/-! Plain texts that YAML reads as something other than a text: nulls, truth values and numbers. -/
namespace BackupAdmin.Yaml
open Text

def isNullWord (s : String) : Bool := s = "" || s = "null" || s = "Null" || s = "NULL" || s = "~"

def isTruthWord (s : String) : Bool :=
  s = "true" || s = "True" || s = "TRUE" || s = "false" || s = "False" || s = "FALSE"

/-- Digits in a base that spell a number of at most `max`. -/
def spellsNat (base max : Nat) (ds : List Char) : Bool := (natOf? base ds).any (· ≤ max)

/-- What follows the mark of a base, and the base. -/
def based? : List Char → Option (Nat × List Char)
  | '0' :: 'x' :: ds => some (16, ds)
  | '0' :: 'o' :: ds => some (8, ds)
  | '0' :: 'b' :: ds => some (2, ds)
  | _ => none

/-- Decimal digits with a zero in front, which is not how a number is written. -/
def isPaddedDigits (cs : List Char) : Bool :=
  let ds := match cs with
    | '-' :: ds | '+' :: ds => ds
    | ds => ds
  1 < ds.length && ds.head? = some '0' && ds.all isDigit

/-- A whole number: signed digits of at most 128 bits, decimal or behind the mark of a base. -/
def isWhole (cs : List Char) : Bool :=
  let size := UInt64.size * UInt64.size
  match cs with
  | '-' :: ds => match based? ds with
    | some (b, ds) => spellsNat b (size / 2) ds
    | none => !isPaddedDigits cs && spellsNat 10 (size / 2) ds
  | _ =>
    let ds := match cs with
      | '+' :: ds => ds
      | ds => ds
    match based? ds with
    | some (b, ds) => spellsNat b (size - 1) ds
    | none => !isPaddedDigits cs && spellsNat 10 (size - 1) ds

/-- The exponent that ends a number, zero if there is none. -/
def exponentOf? : List Char → Option Int
  | [] => some 0
  | e :: cs => if e = 'e' || e = 'E' then intOf? cs else none

/-- The least whole number that rounds to infinity in binary64. -/
def infinite : Nat := (1 <<< 1024) - (1 <<< 970)

/-- `n * 10 ^ e` rounds to a finite number of binary64. -/
def isFinite (n : Nat) (e : Int) : Bool :=
  if n = 0 then true
  else
    let size := (Nat.toDigits 10 n).length + e
    if 310 < size then false
    else if size < 308 then true
    else if 0 ≤ e then n * Nat.pow 10 e.toNat < infinite
    else n < infinite * Nat.pow 10 (-e).toNat

/-- Decimal digits with an optional point and exponent that spell a finite number. -/
def isDecimal (cs : List Char) : Bool :=
  let whole := cs.takeWhile isDigit
  let rest := cs.dropWhile isDigit
  let (fraction, rest) := match rest with
    | '.' :: r => (r.takeWhile isDigit, r.dropWhile isDigit)
    | r => ([], r)
  !(whole.isEmpty && fraction.isEmpty) &&
    (exponentOf? rest).any fun e => isFinite (decimal (whole ++ fraction)) (e - fraction.length)

def isInfinityWord (cs : List Char) : Bool :=
  cs = ".inf".toList || cs = ".Inf".toList || cs = ".INF".toList

/-- A number that may have a fraction, infinity, or no number at all. -/
def isFraction (cs : List Char) : Bool :=
  let unsigned := match cs with
    | '+' :: r | '-' :: r => r
    | r => r
  isInfinityWord unsigned || cs = ".nan".toList || cs = ".NaN".toList || cs = ".NAN".toList ||
    isDecimal unsigned

/-- Read without quotes, the text would not be a text, or looks as if it were none. -/
def isAmbiguous (s : String) : Bool :=
  let cs := s.toList
  isNullWord s || isTruthWord s || isWhole cs || isPaddedDigits cs || isFraction cs

example : isAmbiguous "0x1F" ∧ isAmbiguous "1." ∧ isAmbiguous "007" ∧ ¬ isAmbiguous "12:30" := by
  decide +kernel

end BackupAdmin.Yaml
