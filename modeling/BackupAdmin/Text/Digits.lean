/-! Decimal and hexadecimal digits, and the natural numbers they spell. -/
namespace BackupAdmin.Text

def digitValue? (c : Char) : Option Nat :=
  if '0' ≤ c && c ≤ '9' then some (c.toNat - 48) else none

def hexValue? (c : Char) : Option Nat :=
  if '0' ≤ c && c ≤ '9' then some (c.toNat - 48)
  else if 'a' ≤ c && c ≤ 'f' then some (c.toNat - 87)
  else if 'A' ≤ c && c ≤ 'F' then some (c.toNat - 55)
  else none

def isDigit (c : Char) : Bool := '0' ≤ c && c ≤ '9'

/-- The digits of `n` in base `b`, from the most significant one. -/
def digits (b n : Nat) : List Nat := ((Nat.toDigits b n).map fun c => (hexValue? c).getD 0)

/-- The character of a digit below sixteen, with small letters above nine. -/
def digitChar (d : Nat) : Char := Nat.digitChar d

/-- The number that digits of base `b` spell; `none` for no digit at all or a digit too large. -/
def natOf? (b : Nat) (cs : List Char) : Option Nat :=
  if cs.isEmpty then none
  else cs.foldl (fun acc c => do
    let n ← acc
    let d ← hexValue? c
    if d < b then some (n * b + d) else none) (some 0)

/-- The number that decimal digits spell, characters other than digits counting as zero. -/
def decimal (cs : List Char) : Nat := cs.foldl (fun n c => n * 10 + (c.toNat - 48)) 0

/-- `n` in decimal, with zeros in front up to `width` digits. -/
def padded (width n : Nat) : List Char :=
  let ds := Nat.toDigits 10 n
  List.replicate (width - ds.length) '0' ++ ds

/-- `n` in hexadecimal capitals, with zeros in front up to `width` digits. -/
def paddedHex (width n : Nat) : List Char :=
  let ds := (Nat.toDigits 16 n).map Char.toUpper
  List.replicate (width - ds.length) '0' ++ ds

/-- An integer with an optional sign in front of decimal digits. -/
def intOf? : List Char → Option Int
  | '-' :: ds => (natOf? 10 ds).map fun n => -(n : Int)
  | '+' :: ds => (natOf? 10 ds).map Int.ofNat
  | ds => (natOf? 10 ds).map Int.ofNat

/-- A number as a word of 32 bits with a sign, if it is one. -/
def int32? (n : Int) : Option Int32 :=
  if Int32.minValue.toInt ≤ n ∧ n ≤ Int32.maxValue.toInt then some (.ofInt n) else none

/-- A number as a word of 64 bits with a sign, if it is one. -/
def int64? (n : Int) : Option Int64 :=
  if Int64.minValue.toInt ≤ n ∧ n ≤ Int64.maxValue.toInt then some (.ofInt n) else none

example : natOf? 16 ['f', 'F'] = some 255 := by decide
example : intOf? "-12".toList = some (-12) := by decide
example : intOf? "+".toList = none := by decide

end BackupAdmin.Text
