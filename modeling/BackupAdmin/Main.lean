import BackupAdmin.Command.Replay
import BackupAdmin.Web.Wire
import Std.Internal.UV.DNS
import Std.Internal.UV.System
import Std.Internal.UV.TCP
import Std.Time.DateTime.Timestamp

/-! The program at a terminal: it answers the questions of a run until the run ends. -/
namespace BackupAdmin

def faultOf (e : IO.Error) : FileFault :=
  match e with
  | .noFileOrDirectory .. => .missing
  | .permissionDenied .. => .denied
  | .alreadyExists .. => .present
  | .inappropriateType _ 20 _ => .notDirectory
  | .inappropriateType _ 21 _ => .isDirectory
  | e => .other (toString e)

/-- A change of the files, or its fault. -/
def attempt (act : IO Unit) : IO Answer := do
  try
    act
    return .changed (.ok ())
  catch e => return .changed (.error (faultOf e))

def readFile (path : String) : IO Answer := do
  try
    let bytes ← IO.FS.readBinFile path
    return .read (some (match String.fromUTF8? bytes with
      | some s => .ok s
      | none => .error .notText))
  catch e => match faultOf e with
    | .missing | .notDirectory => return .read none
    | f => return .read (some (.error f))

/-- The value that a promise is kept with. -/
def kept {α : Type} (p : IO.Promise (Except IO.Error α)) : IO α := do
  match ← IO.wait p.result? with
  | some (.ok a) => return a
  | some (.error e) => throw e
  | none => throw (IO.userError "the connection was dropped")

def addressOf (host : String) (port : Nat) : IO Std.Net.SocketAddress := do
  let found : Array Std.Net.IPAddr ← kept (← Std.Internal.UV.DNS.getAddrInfo host (toString port) 0)
  match found.toList with
  | .v4 a :: _ => return .v4 ⟨a, port.toUInt16⟩
  | .v6 a :: _ => return .v6 ⟨a, port.toUInt16⟩
  | [] => throw (IO.userError "no address")

partial def receiveAll (socket : Std.Internal.UV.TCP.Socket) (got : ByteArray) : IO ByteArray := do
  match ← kept (← socket.recv? 65536) with
  | some bytes => receiveAll socket (got ++ bytes)
  | none => return got

def exchange (q : Web.Request) : IO (Option Web.Response) := do
  try
    let some port := q.url.connectPort | return none
    if q.url.scheme ≠ "http" then return none
    let some host := q.url.host | return none
    let socket ← Std.Internal.UV.TCP.Socket.new
    kept (← socket.connect (← addressOf host.text port))
    kept (← socket.send #[(q.wire Remote.userAgent).toUTF8])
    return Web.Response.ofWire? (← receiveAll socket .empty).toList
  catch _ => return none

def clock : IO Instant := do
  let n := (← Std.Time.Timestamp.now).toNanosecondsSinceUnixEpoch.val
  return ⟨n / 1000000000, (n % 1000000000).toNat⟩

def perform (q : Question) : IO Answer := do
  match q with
  | .read path => readFile path
  | .makeDirs path => attempt (if path = "" then pure () else IO.FS.createDirAll path)
  | .write path text => attempt (IO.FS.writeFile path text)
  | .send r =>
    let began ← IO.monoNanosNow
    let response ← exchange r
    return .delivered ⟨response, (← IO.monoNanosNow) - began⟩
  | .line shown =>
    let out ← IO.getStdout
    out.putStr shown
    out.flush
    return .line (← (← IO.getStdin).getLine)

/-- Sleeps as long as the run has asked for since the last time. -/
def nap (slept total : Duration) : IO Unit := IO.sleep (total - slept).millis.toUInt32

partial def proceed (now : Instant) (e : Environment) (words : List String)
    (answers : Array Answer) (slept : Duration) : IO Outcome := do
  let some (o, question) := Program.resume now e words answers.toList
    | throw (IO.userError "the run does not end")
  nap slept o.slept
  match question with
  | none => return o
  | some q => proceed now e words (answers.push (← perform q)) (max slept o.slept)

end BackupAdmin

open BackupAdmin in
def main (words : List String) : IO UInt32 := do
  let vars ← Std.Internal.UV.System.osEnviron
  let o ← proceed (← clock) ⟨vars.toList⟩ words #[] 0
  (← IO.getStdout).putStr o.output
  (← IO.getStderr).putStr o.diagnostics
  return o.status.toUInt32
