/-! The fewest decimal digits that read back as a given binary64 number. -/
namespace BackupAdmin.Decimal

/-- A finite binary64 number `m * 2 ^ q`; `lowest` says that the gap below is half the gap above. -/
structure Binary where
  negative : Bool
  m : Nat
  q : Int
  lowest : Bool
deriving DecidableEq

/-- The parts of the number with these bits; the bits of an infinity or NaN have no use here. -/
def Binary.ofBits (bits : UInt64) : Binary :=
  let b := bits.toNat
  let e : Nat := (b >>> 52) % 2048
  let f : Nat := b % (1 <<< 52)
  { negative := decide (1 <<< 63 ≤ b)
    m := if e = 0 then f else f + (1 <<< 52)
    q := if e = 0 then -1074 else (e : Int) - 1075
    lowest := f = 0 && 1 < e }

/-- `a * 2 ^ q ≤ d * 10 ^ k`, decided in whole numbers. -/
def scaledLe (a : Nat) (q : Int) (d : Nat) (k : Int) : Bool :=
  (a <<< q.toNat) * Nat.pow 10 (-k).toNat ≤ (d * Nat.pow 10 k.toNat) <<< (-q).toNat

def scaledLt (a : Nat) (q : Int) (d : Nat) (k : Int) : Bool :=
  (a <<< q.toNat) * Nat.pow 10 (-k).toNat < (d * Nat.pow 10 k.toNat) <<< (-q).toNat

/-- The whole part of `a * 2 ^ q / 10 ^ k`. -/
def scaledFloor (a : Nat) (q : Int) (k : Int) : Nat :=
  (a <<< q.toNat) * Nat.pow 10 (-k).toNat / (Nat.pow 10 k.toNat <<< (-q).toNat)

/-- `d * 10 ^ k` lies among the reals that round to `v`; the ends do iff `v.m` is even. -/
def Binary.covers (v : Binary) (d : Nat) (k : Int) : Bool :=
  let low := if v.lowest then 4 * v.m - 1 else 4 * v.m - 2
  let high := 4 * v.m + 2
  if v.m % 2 = 0 then
    scaledLe low (v.q - 2) d k && !scaledLt high (v.q - 2) d k
  else
    scaledLt low (v.q - 2) d k && !scaledLe high (v.q - 2) d k

/-- The greatest `e` with `10 ^ e ≤ v`, for a number other than zero. -/
def Binary.magnitude (v : Binary) : Int :=
  match (List.range 660).find? fun (i : Nat) => scaledLt v.m v.q 1 ((i : Int) - 329) with
  | some i => (i : Int) - 330
  | none => 330

/-- Of the two points `d` and `d + 1` of a grid around `v`, the one to print if any reads back. -/
def Binary.onGrid (v : Binary) (k : Int) : Option Nat :=
  let d := scaledFloor v.m v.q k
  match v.covers d k, v.covers (d + 1) k with
  | true, false => some d
  | false, true => some (d + 1)
  | false, false => none
  | true, true =>
    -- twice the value against `2 * d + 1`: the nearer point, or the even one of a tie
    if scaledLt (2 * v.m) v.q (2 * d + 1) k then some d
    else if scaledLe (2 * v.m) v.q (2 * d + 1) k then some (if d % 2 = 0 then d else d + 1)
    else some (d + 1)

/-- Moves the zeros at the end of `d` into the exponent. -/
def dropZeros : Nat → Nat → Int → Nat × Int
  | 0, d, k => (d, k)
  | n + 1, d, k => if d % 10 = 0 && d ≠ 0 then dropZeros n (d / 10) (k + 1) else (d, k)

/-- Digits `d` and exponent `k` of the shortest `d * 10 ^ k` that reads back as `v`. -/
def Binary.shortest (v : Binary) : Nat × Int :=
  if v.m = 0 then (0, 0)
  else
    let e := v.magnitude
    let hit := (List.range 17).findSome? fun (n : Nat) =>
      (v.onGrid (e - n)).map fun d => dropZeros 17 d (e - n)
    hit.getD (scaledFloor v.m v.q (e - 16), e - 16)

example : (Binary.ofBits 0x3FB999999999999A).shortest = (1, -1) := by decide +kernel
example : (Binary.ofBits 1).shortest = (5, -324) := by decide +kernel

end BackupAdmin.Decimal
