import BackupAdmin.Json.Printer
import BackupAdmin.Text.Digits
import BackupAdmin.Web.Exchange

/-! Requests and responses as the bytes of one HTTP/1.1 exchange on a connection of its own. Main
statement: what follows a chunk is shorter than the body, so reading chunks ends. -/
namespace BackupAdmin.Web
open Text

def Host.text : Host → String
  | .domain name => name
  | .ipv4 n => joinWith "." ([24, 16, 8, 0].map fun k => toString ((n >>> k) % 256))
  | .ipv6 pieces => joinWith ":" (pieces.map fun p => String.ofList (Nat.toDigits 16 p))

/-- The host and the port as a request names them. -/
def Url.hostAndPort (u : Url) : String :=
  (match u.host with
    | some (.ipv6 pieces) => "[" ++ Host.text (.ipv6 pieces) ++ "]"
    | some h => h.text
    | none => "") ++
  match u.port with
    | some p => ":" ++ toString p
    | none => ""

def Request.wire (q : Request) (agent : String) : String :=
  let body := (q.body.map Json.compact).getD ""
  let headers :=
    [("Host", q.url.hostAndPort), ("User-Agent", agent), ("Accept", "*/*"), ("Connection", "close")] ++
      (q.authorization.toList.map fun a => ("Authorization", a)) ++
      (q.contentType.toList.map fun t => ("Content-Type", t)) ++
      if q.method = .get then [] else [("Content-Length", toString body.utf8ByteSize)]
  q.method.text ++ " " ++ q.url.target ++ " HTTP/1.1\r\n" ++
    String.join (headers.map fun h => h.1 ++ ": " ++ h.2 ++ "\r\n") ++ "\r\n" ++ body

/-- The line up to a line end, and what follows it. -/
def line? : List UInt8 → Option (List UInt8 × List UInt8)
  | [] => none
  | 13 :: 10 :: rest => some ([], rest)
  | b :: rest => (line? rest).map fun (l, r) => (b :: l, r)

theorem line?_length {bs l rest : List UInt8} (h : line? bs = some (l, rest)) :
    rest.length < bs.length := by
  fun_induction line? bs generalizing l rest <;> grind [Option.map_eq_some_iff]

/-- Bytes below 128 as the characters they are. -/
def asciiText (bs : List UInt8) : List Char := bs.map fun b => Char.ofNat b.toNat

/-- The header lines up to the empty one, and what follows that. -/
def headers? (bs : List UInt8) : Option (List (List Char) × List UInt8) :=
  match h : line? bs with
  | none => none
  | some ([], rest) => some ([], rest)
  | some (l, rest) =>
    have := line?_length h
    (headers? rest).map fun (ls, r) => (asciiText l :: ls, r)
termination_by bs.length

/-- The value of a header, whatever the case of its name. -/
def header? (name : String) (lines : List (List Char)) : Option (List Char) :=
  lines.findSome? fun l => match splitFirst? [':'] l with
    | some (key, value) => if equalFold key name.toList then some (trim value) else none
    | none => none

/-- The payload of chunks, up to the empty one; `none` when they break off. -/
def chunks? (bs : List UInt8) : Option (List UInt8) :=
  match h : line? bs with
  | none => none
  | some (l, rest) =>
    match natOf? 16 ((asciiText l).takeWhile fun c => c ≠ ';' && c ≠ ' ') with
    | none => none
    | some 0 => some []
    | some n =>
      if rest.length < n + 2 then none
      else
        have := line?_length h
        (chunks? (rest.drop (n + 2))).map (rest.take n ++ ·)
termination_by bs.length
decreasing_by simp only [List.length_drop]; omega

/-- The body that the headers announce: chunks, a number of bytes, or all that there is. -/
def body? (lines : List (List Char)) (bs : List UInt8) : Option (List UInt8) :=
  if (header? "transfer-encoding" lines).any fun v => equalFold v "chunked".toList then chunks? bs
  else match header? "content-length" lines with
    | none => some bs
    | some v => match natOf? 10 v with
      | some n => if bs.length < n then none else some (bs.take n)
      | none => none

def status? (first : List Char) : Option Nat :=
  match pieces ' ' first with
  | _ :: code :: _ => natOf? 10 code
  | _ => none

def Response.ofWire? (bs : List UInt8) : Option Response := do
  let (lines, rest) ← headers? bs
  let status ← lines.head?.bind status?
  let body ← if status = 204 || status = 304 then some [] else body? lines rest
  let body ← String.fromUTF8? ⟨body.toArray⟩
  some { status, body }

example : (chunks? ("3\r\nabc\r\n0\r\n\r\n".toList.map fun c => c.toNat.toUInt8)) =
    some [97, 98, 99] := by cbv

end BackupAdmin.Web
