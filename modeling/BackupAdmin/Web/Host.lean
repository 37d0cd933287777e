import BackupAdmin.Text.Blank
import BackupAdmin.Text.Digits
import BackupAdmin.Web.Percent

/-! The host of an address: a name, or a number of 32 or of 128 bits in one of its spellings. -/
namespace BackupAdmin.Web
open Text

inductive UrlFault where
  | relative
  | emptyHost
  | badDomain
  | badIpv4
  | badIpv6
  | badPort
deriving DecidableEq

def UrlFault.message : UrlFault → String
  | .relative => "relative URL without a base"
  | .emptyHost => "empty host"
  | .badDomain => "invalid international domain name"
  | .badIpv4 => "invalid IPv4 address"
  | .badIpv6 => "invalid IPv6 address"
  | .badPort => "invalid port number"

inductive Host where
  | domain (name : String)
  | ipv4 (n : Nat)
  | ipv6 (pieces : List Nat)
deriving DecidableEq

namespace Host

/-- One number of a dotted host: hexadecimal after `0x`, octal after `0`, else decimal. -/
def number? : List Char → Option Nat
  | [] => none
  | ['0'] => some 0
  | '0' :: x :: rest =>
    if x = 'x' || x = 'X' then if rest.isEmpty then some 0 else natOf? 16 rest
    else natOf? 8 (x :: rest)
  | cs => natOf? 10 cs

/-- The numbers of a dotted host; a dot at the end adds none. -/
def dotted (cs : List Char) : List (List Char) :=
  let ps := pieces '.' cs
  if ps.length > 1 && ps.getLast? = some [] then ps.dropLast else ps

/-- A host whose last part is a number has to be a number as a whole. -/
def isNumeric (cs : List Char) : Bool :=
  match (dotted cs).getLast? with
  | some last => (!last.isEmpty && last.all isDigit) || (number? last).isSome
  | none => false

/-- Four or fewer numbers; the last one fills the places that are left. -/
def ipv4? (cs : List Char) : Option Nat := do
  let ns ← (dotted cs).mapM number?
  let last ← ns.getLast?
  let front := ns.dropLast
  let room := Nat.pow 256 (4 - front.length)
  if front.length ≤ 3 && front.all (· < 256) && last < room then
    some (front.foldl (fun n d => 256 * n + d) 0 * room + last)
  else none

/-- A number from 0 to 255 without a zero in front. -/
def octet? (cs : List Char) : Option Nat :=
  if cs.length > 1 && cs.head? = some '0' then none
  else (natOf? 10 cs).filter (· < 256)

/-- The pieces between colons; the last may be four dotted numbers, which make two pieces. -/
def ipv6Pieces? : List (List Char) → Option (List Nat)
  | [] => some []
  | [p] =>
    if p.contains '.' then
      match (pieces '.' p).mapM octet? with
      | some [a, b, c, d] => some [256 * a + b, 256 * c + d]
      | _ => none
    else if p.length ≤ 4 then (natOf? 16 p).map ([·]) else none
  | p :: q :: rest => do
    let n ← if p.length ≤ 4 then natOf? 16 p else none
    let ns ← ipv6Pieces? (q :: rest)
    some (n :: ns)

/-- Eight pieces, or fewer with a pair of colons in place of the zeros between them. -/
def ipv6? (cs : List Char) : Option (List Nat) :=
  let side (s : List Char) := if s.isEmpty then some [] else ipv6Pieces? (pieces ':' s)
  match splitFirst? [':', ':'] cs with
  | none => (ipv6Pieces? (pieces ':' cs)).filter (·.length = 8)
  | some (a, b) => do
    if a.contains '.' then none
    let a ← side a
    let b ← side b
    if a.length + b.length ≤ 7 then
      some (a ++ List.replicate (8 - a.length - b.length) 0 ++ b)
    else none

def isForbidden (c : Char) : Bool :=
  c.toNat ≤ 32 || c.toNat = 127 || "%#/:<>?@[\\]^|".toList.contains c

def parse (cs : List Char) : Except UrlFault Host :=
  match cs with
  | [] => .error .emptyHost
  | '[' :: rest =>
    if rest.getLast? = some ']' then
      match ipv6? rest.dropLast with
      | some ps => .ok (.ipv6 ps)
      | none => .error .badIpv6
    else .error .badIpv6
  | _ => match decode? cs with
    | none => .error .badDomain
    | some name =>
      if name.any isForbidden then .error .badDomain
      else if isNumeric name then
        match ipv4? name with
        | some n => .ok (.ipv4 n)
        | none => .error .badIpv4
      else .ok (.domain (lower (String.ofList name)))

def loopback : Host := .ipv4 0x7F000001

example : ipv4? "0x7f.1".toList = some 0x7F000001 := by decide +kernel
example : ipv6? "::1".toList = some [0, 0, 0, 0, 0, 0, 0, 1] := by decide +kernel
example : ipv6? "1::2::3".toList = none := by decide +kernel

end Host
end BackupAdmin.Web
