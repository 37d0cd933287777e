import BackupAdmin.Json.Basic
import BackupAdmin.Text.Digits
import BackupAdmin.Decimal.Shortest

/-! Number literals of JSON: their grammar, the number they denote, and the text of a number. -/
namespace BackupAdmin.JsonNumber
open Text

/-- The parts of a literal: sign, whole digits, digits after the point, and a signed exponent. -/
structure Literal where
  negative : Bool
  whole : List Char
  fraction : Option (List Char)
  exponent : Option (Bool × List Char)

/-- An exponent mark with an optional sign and at least one digit, or nothing at all. -/
def exponent? : List Char → Option (Option (Bool × List Char))
  | [] => some none
  | e :: cs =>
    if e = 'e' || e = 'E' then
      let (neg, ds) := match cs with
        | '-' :: ds => (true, ds)
        | '+' :: ds => (false, ds)
        | ds => (false, ds)
      if !ds.isEmpty && ds.all isDigit then some (some (neg, ds)) else none
    else none

/-- Splits a literal into its parts; a leading zero stands alone and a point needs a digit. -/
def literal? (cs : List Char) : Option Literal :=
  let (neg, cs) := match cs with
    | '-' :: r => (true, r)
    | r => (false, r)
  let whole := cs.takeWhile isDigit
  let rest := cs.dropWhile isDigit
  if whole.isEmpty || (whole.head? = some '0' && 1 < whole.length) then none
  else match rest with
    | '.' :: r =>
      let fraction := r.takeWhile isDigit
      if fraction.isEmpty then none
      else (exponent? (r.dropWhile isDigit)).map fun e => ⟨neg, whole, some fraction, e⟩
    | r => (exponent? r).map fun e => ⟨neg, whole, none, e⟩

/-- Reads digits into `sig` while it fits a word: the significand and the digits left over. -/
def accumulate (sig : Nat) : List Char → Nat × List Char
  | [] => (sig, [])
  | c :: cs =>
    let next := sig * 10 + (c.toNat - 48)
    if UInt64.size ≤ next then (sig, c :: cs) else accumulate next cs

/-- Divides by `10 ^ 308` until the exponent that is left is in the table of powers. -/
def lowerTo : Nat → Float → Int → Float
  | 0, _, _ => 0
  | n + 1, f, e =>
    if -308 ≤ e then f / Float.ofScientific 1 false e.natAbs
    else if f == 0 then f
    else lowerTo n (f / Float.ofScientific 1 false 308) (e + 308)

/-- `sig * 10 ^ e` by one multiplication or division; `none` beyond the range. -/
def scale (sig : Nat) (e : Int) : Option Float :=
  let f := sig.toUInt64.toFloat
  if 0 ≤ e then
    if 308 < e then (if f == 0 then some f else none)
    else
      let g := f * Float.ofScientific 1 false e.natAbs
      if g.isInf then none else some g
  else some (lowerTo 8 f e)

/-- The value of an exponent, unless its digits exceed 31 bits. -/
def exponentValue (ds : List Char) : Option Nat :=
  let n := decimal ds
  if n < UInt32.size / 2 then some n else none

/-- Saturates at the ends of 32 bits. -/
def clamp (e : Int) : Int := max Int32.minValue.toInt (min Int32.maxValue.toInt e)

def Literal.value (l : Literal) : Option JsonNumber :=
  let signed := fun (f : Float) => JsonNumber.float (if l.negative then -f else f).toBits
  let (sig, excess) := accumulate 0 l.whole
  match l.fraction, l.exponent with
  | none, none =>
    if !excess.isEmpty then (scale sig excess.length).map signed
    else if !l.negative then some (.int sig)
    else if sig = 0 || UInt64.size / 2 < sig then some (signed sig.toUInt64.toFloat)
    else some (.int (-(sig : Int)))
  | fraction, exponent =>
    let ds := fraction.getD []
    let (sig, left) := accumulate sig ds
    let start : Int := (excess.length : Int) - ((ds.length : Int) - left.length)
    match exponent with
    | none => (scale sig start).map signed
    | some (neg, es) => match exponentValue es with
      | none => if sig ≠ 0 && !neg then none else some (signed 0)
      | some n => (scale sig (clamp (start + if neg then -(n : Int) else n))).map signed

/-- The text of a binary64 number: shortest digits, positional from `10 ^ -5` up to `10 ^ 16`. -/
def floatText (bits : UInt64) : String :=
  let v := Decimal.Binary.ofBits bits
  let sign := if v.negative then "-" else ""
  if v.m = 0 then sign ++ "0.0"
  else
    let (d, k) := v.shortest
    let ds := Nat.toDigits 10 d
    let point : Int := ds.length + k
    let body :=
      if 0 ≤ k && point ≤ 16 then ds ++ List.replicate k.toNat '0' ++ ['.', '0']
      else if 0 < point && point ≤ 16 then
        ds.take point.toNat ++ ['.'] ++ ds.drop point.toNat
      else if -5 < point && point ≤ 0 then
        ['0', '.'] ++ List.replicate (-point).toNat '0' ++ ds
      else
        let e := (toString (point - 1)).toList
        match ds with
        | [c] => [c, 'e'] ++ e
        | c :: cs => [c, '.'] ++ cs ++ ['e'] ++ e
        | [] => []
    sign ++ String.ofList body

def text : JsonNumber → String
  | .int n => toString n
  | .float bits => floatText bits

def toFloat : JsonNumber → Float
  | .int n => Float.ofInt n
  | .float bits => Float.ofBits bits

end BackupAdmin.JsonNumber
