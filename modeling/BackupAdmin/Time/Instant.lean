import BackupAdmin.Time.Calendar
import BackupAdmin.Time.Duration

/-! Points in time: seconds since 1970-01-01T00:00:00Z and nanoseconds within the second. From
`10 ^ 9` nanoseconds on, the point lies in a leap second that follows that second. -/
namespace BackupAdmin

structure Instant where
  seconds : Int
  nanos : Nat
deriving DecidableEq, Inhabited

namespace Instant

def second : Nat := 1000000000

/-- Earlier than, by seconds and then by nanoseconds. -/
def before (a b : Instant) : Bool :=
  a.seconds < b.seconds || (a.seconds = b.seconds && a.nanos < b.nanos)

def earlier (a b : Instant) : Instant := if b.before a then b else a

/-- The point a span later; a leap second ends with the first whole second that is added. -/
def plus (t : Instant) (d : Duration) : Instant :=
  if t.nanos < second then
    ⟨t.seconds + ((t.nanos + d) / second : Nat), (t.nanos + d) % second⟩
  else if d < second && t.nanos + d < 2 * second then ⟨t.seconds, t.nanos + d⟩
  else
    let n := t.nanos - second + d
    ⟨t.seconds + (n / second : Nat), n % second⟩

def plusDays (t : Instant) (n : Nat) : Instant := t.plus (Duration.ofDays n)

/-- The point `n` whole days earlier, for `n` above zero; it is never in a leap second. -/
def minusDays (t : Instant) (n : Nat) : Instant :=
  if t.nanos < second then ⟨t.seconds - 86400 * n, t.nanos⟩
  else ⟨t.seconds + 1 - 86400 * n, t.nanos - second⟩

/-- The same point without its fraction of a second. -/
def wholeSeconds (t : Instant) : Instant :=
  ⟨t.seconds, if t.nanos < second then 0 else second⟩

def date (t : Instant) : Date := Date.ofDays (Int.fdiv t.seconds 86400)

def secondOfDay (t : Instant) : Nat := (t.seconds - Int.fdiv t.seconds 86400 * 86400).toNat

example : (Instant.mk 0 500000000).plus (Duration.ofMillis 700) = ⟨1, 200000000⟩ := by decide

end Instant
end BackupAdmin
