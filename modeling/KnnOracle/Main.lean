/-
The program.

What the library says is to be done is done here: arguments, environment
and files are read, requests go over the network, and what there is to
say is printed. Batches and searches are in flight side by side, as many
as their windows allow.

Two things are missing. Only plain HTTP is spoken, so a service behind
`https` counts as unreachable; and columnar files cannot be read or
written, because nothing here knows how they are stored.
-/
import Std.Internal.UV.DNS
import Std.Internal.UV.TCP
import Std.Internal.UV.Timer
import Std.Time.DateTime.Timestamp
import KnnOracle.CommandLine.Arguments
import KnnOracle.Http.Transfer

namespace KnnOracle.Program

open Std.Internal

-- ================================================================ files

/-- What a system says about a file. -/
def fileFault : IO.Error → Storage.FileFault
  | .noFileOrDirectory _ _ _ => .notFound
  | .inappropriateType _ code details =>
      if code = 20 then .notDirectory
      else if code = 21 then .isDirectory
      else .other (details ++ " (os error " ++ toString code.toNat ++ ")")
  | e => .other (toString e)

/-- Reads a file. -/
def readFile (path : String) :
    IO (Except Storage.FileFault Storage.Content) := do
  try
    let data ← IO.FS.readBinFile path
    pure (.ok (.bytes data.toList))
  catch e => pure (.error (fileFault e))

/-- Writes a file. -/
def writeFile (path : String) :
    Storage.Content → IO (Except Storage.FileFault Unit)
  | .table _ => pure (.error (.other "columnar files cannot be written"))
  | .bytes data => do
      try
        IO.FS.writeBinFile path ⟨data.toArray⟩
        pure (.ok ())
      catch e => pure (.error (fileFault e))

/-- The dataset that a command reads, if any. -/
def datasetOf : Command → Option String
  | .generate _ => none
  | .load s => s.dataset
  | .validate s => s.dataset
  | .run s => s.dataset

/-- A reader of the one file that a command reads. -/
def readerOf (c : Command) : IO Storage.Reader := do
  match datasetOf c with
  | none => pure fun _ => .error .notFound
  | some path =>
      let content ← readFile path
      pure fun _ => content

-- ============================================================ the network

/-- Waits for what a promise brings. -/
def await {α : Type} (promise : IO.Promise (Except IO.Error α)) : IO α := do
  match ← IO.wait promise.result? with
  | some (.ok a) => pure a
  | some (.error e) => throw e
  | none => throw (IO.userError "nothing came")

/-- Where a host listens under a number. -/
def addressOf (host : String) (number : Nat) : IO Std.Net.SocketAddress := do
  let at4 := fun ip => Std.Net.SocketAddress.v4 ⟨ip, UInt16.ofNat number⟩
  match Std.Net.IPv4Addr.ofString host with
  | some ip => pure (at4 ip)
  | none =>
      let found ← await (← UV.DNS.getAddrInfo host "" 0)
      match found.toList with
      | .v4 ip :: _ => pure (at4 ip)
      | .v6 ip :: _ => pure (.v6 ⟨ip, UInt16.ofNat number⟩)
      | [] => throw (IO.userError "no address")

/-- All that a socket brings until the other side closes it. -/
partial def receiveAll (socket : UV.TCP.Socket) (acc : ByteArray) :
  IO ByteArray := do
  match ← await (← socket.recv? 65536) with
  | none => pure acc
  | some bytes => receiveAll socket (acc ++ bytes)

/-- Sends bytes to an address and waits for all that comes back. -/
def converse (address : Std.Net.SocketAddress) (bytes : ByteArray) :
    IO ByteArray := do
  let socket ← UV.TCP.Socket.new
  await (← socket.connect address)
  await (← socket.send #[bytes])
  receiveAll socket ByteArray.empty

/-- What a task brings within a number of seconds. -/
def within {α : Type} (seconds : Nat) (task : Task (Except IO.Error α)) :
    IO (Option α) := do
  let timer ← UV.Timer.mk (UInt64.ofNat (1000 * seconds)) false
  let late := (← timer.next).result?.map fun _ => (none : Option α)
  let here := task.map fun result => result.toOption
  let first ← IO.waitAny [here, late]
  timer.stop
  pure first

/-- The connection to a service, with a bound on the seconds that a
response may take. -/
def transport (base : String) (seconds : Nat) : Http.Client.Transport IO :=
  fun request => do
  match Http.Url.parse base with
  | .error _ => pure none
  | .ok url =>
      if String.ofList url.scheme ≠ "http" then pure none
      else
        let bytes := request.bytes (String.ofList url.authority)
        let exchange : IO ByteArray := do
          let host := url.host.text.filter fun c => c != '[' && c != ']'
          converse (← addressOf (String.ofList host) (url.number?.getD 80))
            bytes
        let response ← within seconds (← IO.asTask exchange .dedicated)
        pure (response.bind fun data => Http.Response.ofBytes? data.toList 8)

-- ========================================================== side by side

/-- Jobs in flight by number, with what they will bring. -/
abbrev Flights (α : Type) : Type :=
  List (Nat × Task (Except IO.Error (Nat × α)))

/-- Starts a job. -/
def depart {α : Type} (flights : Flights α) (number : Nat) (job : IO α) :
    IO (Flights α) := do
  let numbered := do
    let result ← job
    pure (number, result)
  let task ← IO.asTask numbered .dedicated
  pure (flights ++ [(number, task)])

/-- Waits for the first of the jobs in flight. -/
def arrive {α : Type} (flights : Flights α) : IO ((Nat × α) × Flights α) := do
  match flights.map Prod.snd with
  | [] => throw (IO.userError "nothing is in flight")
  | task :: tasks =>
      let (number, result) ← IO.ofExcept (← IO.waitAny (task :: tasks))
      pure ((number, result), flights.filter fun flight => flight.1 != number)

/-- Carries an upload out. -/
partial def uploadFrom (ask : Responder IO)
  (flights : Flights (Except CallError Unit))
  (u : Uploading) : IO Tally := do
  match u.tally? with
  | some tally => pure tally
  | none =>
      match u.start? with
      | some ((number, batch), u) =>
          uploadFrom ask (← depart flights number (ask (.upsert batch))) u
      | none =>
          let ((number, reply), flights) ← arrive flights
          uploadFrom ask flights (u.receive number reply)

/-- Carries searches out. -/
partial def searchFrom (ask : Responder IO) (flights : Flights SearchReply)
  (s : Searching) :
    IO (List SearchReply) := do
  match s.result? with
  | some replies => pure replies
  | none =>
      match s.start? with
      | some ((number, request), s) =>
          searchFrom ask (← depart flights number (ask (.search request))) s
      | none =>
          let ((number, reply), flights) ← arrive flights
          searchFrom ask flights (s.receive number reply)

/-- The channel that keeps windows as full as they may be. -/
def channel (ask : Responder IO) : Channel IO :=
  { ask
    upload :=
      fun width batches => uploadFrom ask [] (.ofBatches width 0 batches)
    searchAll :=
      fun width searches => searchFrom ask [] (.ofSearches width 0 searches) }

-- ============================================================ the program

/-- Asks a service and notes in `span` how long its last transaction took:
since when it is open, and after the commit for how long it was. -/
def timed (ask : Responder IO) (span : IO.Ref Nat) : Responder IO :=
  fun call => do
  match call with
  | .createTransaction _ => span.set (← IO.monoNanosNow)
  | _ => pure ()
  let reply ← ask call
  match call with
  | .commit _ _ => span.set ((← IO.monoNanosNow) - (← span.get))
  | _ => pure ()
  pure reply

/-- Something that replies to the calls of a command. -/
def responderOf : Command → Responder IO
  | .generate _ => fun _ => pure (.error (.unreachable "there is no service"))
  | .load s => s.client.responder (transport s.client.base s.timeoutSeconds)
  | .validate s =>
      s.client.responder (transport s.client.base s.timeoutSeconds)
  | .run s => s.client.responder (transport s.client.base s.timeoutSeconds)

/-- The present moment in nanoseconds since the beginning of 1970. -/
def now : IO Nat := do
  pure (← Std.Time.Timestamp.now).toNanosecondsSinceUnixEpoch.toInt.toNat

/-- Writes the file that a command ends with, if there is one. -/
def writeOutput : Option Output → IO (Except Storage.FileFault Unit)
  | none => pure (.ok ())
  | some output => do writeFile output.path (output.content (← now))

/-- Carries an invocation out; answers with the code to end with. -/
def carryOut (i : CommandLine.Invocation) : IO UInt32 := do
  let span ← IO.mkRef 0
  let ask := timed (responderOf i.command) span
  let conversation := i.command.conversation (← readerOf i.command)
  let (ending, events) ← conversation.hold (channel ask)
  let (notices, result) := ending.settle (← writeOutput ending.output?)
  let elapsed := Text.spanText (← span.get)
  for notice in notices do
    IO.print (notice.text elapsed)
  let abrupt := match result with
    | .ok () => false
    | .error e => e.isAbrupt
  if i.metrics && !abrupt then
    for line in (Telemetry.ofEvents events).lines do
      IO.println line
    IO.println ""
  match result with
  | .ok () => pure 0
  | .error e =>
      if !abrupt then IO.eprintln e.explanation
      pure (UInt32.ofNat e.exitCode)

end KnnOracle.Program

open KnnOracle in
/-- Reads the command line and carries it out. -/
def main (args : List String) : IO UInt32 := do
  let environment : CommandLine.Environment :=
    ⟨← IO.getEnv "VECORACLE_HOST", ← IO.getEnv "VECORACLE_TOKEN"⟩
  match CommandLine.invocation? environment args with
  | .ok invocation => Program.carryOut invocation
  | .error e =>
      IO.eprintln e.message
      pure (UInt32.ofNat e.exitCode)
