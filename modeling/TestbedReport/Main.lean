import TestbedReport.Program
import TestbedReport.Http.Message
import TestbedReport.Log
import TestbedReport.Files.Path
import Std.Async.TCP
import Std.Async.DNS
import Std.Async.Timer
import Std.Async.System

/-!
# The Command Line

The outer layer: a session meets the network and the disk. Nothing is decided
here. What is sent, stored, read and printed is what the session says.

## Main definitions

* `Outside.perform`: Carries out a session.
* `main`: The program.
-/

namespace TestbedReport

namespace Outside

open Std.Async

/-- The fault with a code of the operating system. Some operations give the code
    with its sign changed. -/
def faultOfCode (signed : UInt32) (details : String) : FileFault :=
  let code := if signed < 0x80000000 then signed else 0 - signed
  if code = 2 then .notFound
  else if code = 17 then .exists
  else if code = 20 then .notDirectory
  else if code = 21 then .isDirectory
  else if code = 36 then .nameTooLong
  else .other details

/-- The fault of an operation on the disk. -/
def faultOf : IO.Error → FileFault
  | .noFileOrDirectory _ code details => faultOfCode code details
  | .alreadyExists _ code details => faultOfCode code details
  | .inappropriateType _ code details => faultOfCode code details
  | .invalidArgument _ code details => faultOfCode code details
  | e => .other (toString e)

/-- An operation on the disk with its fault. -/
def guarded {α : Type} (operation : IO α) : IO (Except FileFault α) :=
  try
    return .ok (← operation)
  catch e =>
    return .error (faultOf e)

/-- Writes an output to its directory, which is made if it is not there. -/
def store (directory : String) (output : Output) : IO Unit := do
  IO.FS.createDirAll directory
  let mode : IO.FS.Mode := match output.mode with
    | .truncate => .write
    | .append => .append
  IO.FS.withFile (FilePath.join directory output.file) mode fun file =>
    file.write output.content.toUTF8

/-- Everything that comes over a connection until it is closed. -/
partial def receive (socket : TCP.Socket.Client) (received : ByteArray) : Async ByteArray := do
  match ← socket.recv? 65536 with
  | some bytes => receive socket (received ++ bytes)
  | none => return received

/-- The port that a URL leads to. -/
def portOf (authority : Authority) : UInt16 :=
  UInt16.ofNat (authority.port.getD 80)

/-- The address of a host at a port. -/
def socketAddress (port : UInt16) : Std.Net.IPAddr → Std.Net.SocketAddress
  | .v4 address => .v4 ⟨address, port⟩
  | .v6 address => .v6 ⟨address, port⟩

/-- Sends a request to its host and takes the answer. -/
def exchange (request : Request) : Async Answer := do
  match request.url.authority with
  | none => return .error .notSent
  | some authority =>
    let host := String.ofList (authority.host.write.filter fun c => c ≠ '[' && c ≠ ']')
    let addresses ← DNS.getAddrInfo host ""
    match addresses[0]? with
    | none => return .error .notSent
    | some address =>
      let socket ← TCP.Socket.Client.mk
      socket.connect (socketAddress (portOf authority) address)
      socket.send (ByteArray.mk (Http.writeRequest request).toArray)
      let bytes ← receive socket ByteArray.empty
      return Http.readReply bytes.toList

/-- The answer when the time is over. -/
def timeOut (seconds : UInt64) : Async Answer := do
  sleep (Std.Time.Millisecond.Offset.ofNat (seconds.toNat * 1000))
  return .error .timedOut

instance : Inhabited Answer :=
  ⟨.error .notSent⟩

/-- What comes back for a request. Only plain connections are made, so a server
    that wants another kind cannot be reached. -/
def received (request : Request) : IO Answer :=
  if request.url.scheme ≠ "http" then return .error .notSent
  else
    try
      match request.timeoutSeconds with
      | none => (exchange request).block
      | some seconds => (Async.race (exchange request) (timeOut seconds)).block
    catch _ =>
      return .error .notSent

/-- The answer to a request. A fault names the URL that was asked for. -/
def answer (request : Request) : IO Answer :=
  return (← received request).naming (some request.url)

/-- Carries out a session. -/
def perform {α : Type} (note : String → IO Unit) : Session α → IO α
  | .done value => return value
  | .send request next => do
    note request.summary
    perform note (next (← answer request))
  | .store directory output next => do
    perform note (next (← guarded (store directory output)))
  | .read path next => do
    perform note (next (← guarded ((·.toList) <$> IO.FS.readBinFile path)))

/-- Where messages of the log go. -/
def noteFor : Except UsageFault Arguments → String → IO Unit
  | .ok arguments => fun message =>
    if arguments.verbose then IO.eprintln (arguments.logFormat.line message) else return ()
  | .error _ => fun _ => return ()

end Outside

end TestbedReport

open TestbedReport in
/-- Runs the program with its command line, the environment and the clock. -/
def main (arguments : List String) : IO UInt32 := do
  let environ ← Std.Async.System.getEnv
  let environment : Environment := environ.get?
  let now ← Std.Time.Timestamp.now
  let note := Outside.noteFor (Arguments.read environment arguments)
  let session := Program.start environment now.toSecondsSinceUnixEpoch.val arguments
  let conclusion ← Outside.perform note session
  IO.print conclusion.output
  IO.eprint conclusion.notes
  return UInt32.ofNat conclusion.exitCode
