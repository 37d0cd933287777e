import BackupAdmin.Text.Digits

/-! Spans of time in whole nanoseconds and their shortest text in one unit. -/
namespace BackupAdmin

/-- A span of time in nanoseconds. -/
abbrev Duration := Nat

namespace Duration

def ofSeconds (s : Nat) : Duration := s * 1000000000

def ofMillis (ms : Nat) : Duration := ms * 1000000

def ofDays (d : Nat) : Duration := ofSeconds (d * 86400)

def seconds (d : Duration) : Nat := d / 1000000000

def millis (d : Duration) : Nat := d / 1000000

/-- `whole` and a fraction of `places` digits, without the zeros at its end. -/
def decimalText (whole fraction places : Nat) : List Char :=
  let ds := ((Text.padded places fraction).reverse.dropWhile (· = '0')).reverse
  Nat.toDigits 10 whole ++ if ds.isEmpty then [] else '.' :: ds

/-- A span in the largest unit, up to seconds, that it fills once. -/
def text (d : Duration) : String :=
  if 1000000000 ≤ d then
    String.ofList (decimalText (d / 1000000000) (d % 1000000000) 9) ++ "s"
  else if 1000000 ≤ d then String.ofList (decimalText (d / 1000000) (d % 1000000) 6) ++ "ms"
  else if 1000 ≤ d then String.ofList (decimalText (d / 1000) (d % 1000) 3) ++ "µs"
  else toString d ++ "ns"

example : decimalText 1 500000000 9 = "1.5".toList := by decide

end Duration
end BackupAdmin
