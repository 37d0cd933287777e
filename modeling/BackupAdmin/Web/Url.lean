import BackupAdmin.Web.Host

/-! Addresses: scheme, host, port, the segments of the path and the query. Reading one drops its
fragment and takes away the dots that move within the path. -/
namespace BackupAdmin.Web
open Text

structure Url where
  scheme : String
  host : Option Host := none
  port : Option Nat := none
  segments : List (List Char) := []
  query : Option (List Char) := none
deriving DecidableEq

namespace Url

/-- Blanks and controls at the ends, and line breaks and tabs anywhere, are no part of it. -/
def cleaned (cs : List Char) : List Char :=
  (trimWhile (·.toNat ≤ 32) cs).filter fun c => c ≠ '\t' && c ≠ '\n' && c ≠ '\r'

/-- The scheme and what follows its colon. -/
def scheme? (cs : List Char) : Option (String × List Char) :=
  let isLater (c : Char) := c.isAlphanum || c = '+' || c = '-' || c = '.'
  match cs with
  | c :: _ =>
    if c.isAlpha then
      match cs.dropWhile isLater with
      | ':' :: rest => some (lower (String.ofList (cs.takeWhile isLater)), rest)
      | _ => none
    else none
  | [] => none

/-- The port that a common scheme has when none is given. -/
def defaultPort? (scheme : String) : Option Nat :=
  if scheme = "http" || scheme = "ws" then some 80
  else if scheme = "https" || scheme = "wss" then some 443
  else if scheme = "ftp" then some 21
  else none

/-- A common scheme: its addresses have a host, and `\` stands for `/`. -/
def isCommon (scheme : String) : Bool := (defaultPort? scheme).isSome

/-- The text up to the first character that satisfies `p`, and the rest. -/
def splitWhere (p : Char → Bool) (cs : List Char) : List Char × List Char :=
  (cs.takeWhile (!p ·), cs.dropWhile (!p ·))

/-- Characters that end the part with host and port. -/
def endsAuthority (common : Bool) (c : Char) : Bool :=
  c = '/' || c = '?' || c = '#' || (common && c = '\\')

/-- The length of the host at the start: it ends at a colon that no bracket encloses. -/
def hostLength (inside : Bool) : List Char → Nat
  | [] => 0
  | c :: cs =>
    if c = ':' && !inside then 0
    else hostLength (c = '[' || (inside && c ≠ ']')) cs + 1

/-- The port of the digits after a colon; a common scheme does not keep its own. -/
def port? (scheme : String) (ds : List Char) : Except UrlFault (Option Nat) :=
  if ds.isEmpty then .ok none
  else match natOf? 10 ds with
    | some n =>
      if 65535 < n then .error .badPort
      else .ok (if defaultPort? scheme = some n then none else some n)
    | none => .error .badPort

/-- The host and the port of the part before the path; what ends with `@` in it is no host. -/
def authority (scheme : String) (cs : List Char) : Except UrlFault (Option Host × Option Nat) := do
  let cs := lastPiece '@' cs
  let n := hostLength false cs
  let host := cs.take n
  let rest := cs.drop n
  let h ← if isCommon scheme then some <$> Host.parse host
    else if host.head? = some '[' then some <$> Host.parse host
    else if host.any (fun c => Host.isForbidden c && c ≠ '%') then .error .badDomain
    else if host.isEmpty then .ok none
    else .ok (some (.domain (String.ofList host)))
  if h.isNone && !rest.isEmpty then .error .emptyHost
  let p ← port? scheme (rest.drop 1)
  return (h, p)

/-- Characters that a path keeps. -/
def isPathChar (c : Char) : Bool :=
  0x20 < c.toNat && c.toNat < 0x7F && !" \"#<>?`\x7b\x7d".toList.contains c

/-- Characters that the query of a common scheme keeps. -/
def isQueryChar (c : Char) : Bool :=
  0x20 < c.toNat && c.toNat < 0x7F && !" \"#<>'".toList.contains c

/-- A segment that stands for where the path already is. -/
def isHere (s : List Char) : Bool := s = ['.'] || equalFold s "%2e".toList

/-- A segment that leads one level up. -/
def isUp (s : List Char) : Bool :=
  s = ['.', '.'] || equalFold s ".%2e".toList || equalFold s "%2e.".toList ||
    equalFold s "%2e%2e".toList

/-- The segments behind those already walked, given in reverse, without moves in them. -/
def walk (walked : List (List Char)) : List (List Char) → List (List Char)
  | [] => walked.reverse
  | s :: rest =>
    if isUp s then walk (if rest.isEmpty then [] :: walked.drop 1 else walked.drop 1) rest
    else if isHere s then walk (if rest.isEmpty then [] :: walked else walked) rest
    else walk (encodeBut isPathChar s :: walked) rest

def segmentsOf (common : Bool) (cs : List Char) : List (List Char) :=
  let cs := if common then cs.map fun c => if c = '\\' then '/' else c else cs
  match cs with
  | [] => if common then [[]] else []
  | '/' :: rest => walk [] (pieces '/' rest)
  | cs => walk [] (pieces '/' cs)

/-- The segments and the query of what follows the host. -/
def withRest (u : Url) (cs : List Char) : Url :=
  let (path, tail) := splitWhere (fun c => c = '?' || c = '#') cs
  { u with
    segments := segmentsOf (isCommon u.scheme) path
    query := match tail with
      | '?' :: q => some (encodeBut isQueryChar (q.takeWhile (· ≠ '#')))
      | _ => none }

def parse (s : String) : Except UrlFault Url :=
  match scheme? (cleaned s.toList) with
  | none => .error .relative
  | some (scheme, rest) =>
    let common := isCommon scheme
    let inside? : Option (List Char) :=
      if common then some (rest.dropWhile fun c => c = '/' || c = '\\')
      else after? ['/', '/'] rest
    match inside? with
    | none => .ok (withRest { scheme } rest)
    | some inside => do
      let (a, rest) := splitWhere (endsAuthority common) inside
      let (host, port) ← authority scheme a
      return withRest { scheme, host, port } rest

def path (u : Url) : List Char := u.segments.flatMap ('/' :: ·)

/-- The path and the query as they are sent. -/
def target (u : Url) : String :=
  String.ofList (u.path ++ match u.query with
    | some q => '?' :: q
    | none => [])

/-- The address with the pairs of a form at the end of its query, which it then has. -/
def withPairs (u : Url) (ps : List (String × String)) : Url :=
  let add (q : List Char) (p : String × String) :=
    if q.isEmpty then formPair p else q ++ '&' :: formPair p
  { u with query := some (ps.foldl add (u.query.getD [])) }

def connectPort (u : Url) : Option Nat := u.port <|> defaultPort? u.scheme

example : (parse "http://h:81/a/./b/../c d?x=1#f").toOption.map target =
    some "/a/c%20d?x=1" := by decide +kernel
example : (parse "://x").toOption = none := by decide +kernel

end Url
end BackupAdmin.Web
