import Switchboard.Cli.Help
import Switchboard.Cli.Launch
import Switchboard.Prompt
import Switchboard.Relay.Session
import Std.Async.Signal
import Std.Async.TCP

/-!
# The program

The outer layer of the relay: it listens, moves bytes between sockets and the relay, puts questions to
the operator, and keeps the files. What is to be done is decided elsewhere.

Connections, bytes, typed lines and the interrupt are awaited in the background; a single loop takes
up at short intervals what has come.
-/

namespace Switchboard

attribute [local instance (high)] instPowNat

namespace Program

open Std.Async

/-- A connected client: its number, its socket, and the bytes awaited from it, unless no more will
come. -/
structure Client where
  number : Nat
  socket : TCP.Socket.Client
  awaited : Option (AsyncTask (Option ByteArray))

/-- What the program is doing. -/
structure State where
  settings : Cli.Settings
  server : TCP.Socket.Server
  relay : Relay
  clients : List Client := []
  arrival : AsyncTask TCP.Socket.Client
  questions : List PromptRequest := []
  /-- The line awaited as the answer to the first question. -/
  typing : Option (AsyncTask String) := none
  saved : Decisions := []
  policy : Option PolicyFile := none
  policyBytes : Option ByteArray := none

/-! ## Files -/

def content? (path : String) : IO (Option ByteArray) := do
  try
    return some (← IO.FS.readBinFile path)
  catch _ => return none

def exists? (path : String) : IO Bool := do
  try
    let _ ← IO.FS.realPath path
    return true
  catch _ => return false

def gather (tree : FileTree) (path : String) : IO FileTree := do
  let directory := PolicyFile.directory { path := path }
  if !(← exists? directory) then return tree
  let tree := (tree.makeDirectory directory).1
  match ← content? path with
  | some bytes => return (tree.write path bytes).toOption.getD tree
  | none => return tree

def gatherAll (s : Cli.Settings) : IO FileTree :=
  ([s.policy, s.decisions, s.trustedClients].filterMap id).foldlM gather
    { here := ["here"], nodes := [(["here"], .directory)] }

def save (s : State) : IO State := do
  match s.settings.decisions with
  | none => return s
  | some path =>
    let now := s.relay.decisions
    let fresh := (now.filter fun d => d.2 && s.saved.lookup d.1 != some true).map Prod.fst
    if fresh.isEmpty then return s
    let file : DecisionFile := ⟨path, "0"⟩
    let before ← gatherAll s.settings
    let after := fresh.foldl (fun t origin => (file.grant t origin).1) before
    match after.readBytes path with
    | .error e => IO.eprintln e.message
    | .ok bytes =>
      IO.FS.createDirAll (PolicyFile.directory { path := path })
      IO.FS.writeBinFile file.temporary bytes
      IO.FS.rename file.temporary path
    return { s with saved := now }

def reload (s : State) : IO State := do
  match s.policy with
  | none => return s
  | some policy =>
    let bytes ← content? policy.path
    if bytes.isNone || bytes == s.policyBytes then return s
    let policy := policy.reload (← gatherAll s.settings)
    let relay := s.relay.receive (.list policy.list)
    return { s with policy := some policy, policyBytes := bytes, relay := relay }

/-! ## Clients -/

def await (socket : TCP.Socket.Client) : IO (Option (AsyncTask (Option ByteArray))) :=
  return some (← (socket.recv? 65536).toIO)

def peer? (socket : TCP.Socket.Client) : IO (Option IpAddress) := do
  let text := toString (← socket.getPeerName).ipAddr
  return (SocketAddress.v4? text.toList).orElse fun _ => SocketAddress.v6? text.toList

/-- Take in the connection that was made, if one was, and await the next one. -/
def welcome (s : State) : IO State := do
  if !(← IO.hasFinished s.arrival) then return s
  let socket ← IO.ofExcept s.arrival.get
  let s := { s with arrival := ← s.server.accept.toIO }
  match ← peer? socket with
  | none => return s
  | some address =>
    match s.relay.accept address 65536 with
    | (relay, none) =>
      socket.shutdown.block
      return { s with relay := relay }
    | (relay, some number) =>
      let client : Client := ⟨number, socket, ← await socket⟩
      return { s with relay := relay.settle, clients := s.clients ++ [client] }

def take (relay : Relay) (client : Client) : IO (Relay × Client) := do
  match client.awaited with
  | none => return (relay, client)
  | some awaited =>
    if !(← IO.hasFinished awaited) then return (relay, client)
    match awaited.get with
    | .ok (some bytes) =>
      return (relay.receive (.bytes client.number bytes), { client with awaited := ← await client.socket })
    | _ => return (relay.receive (.finish client.number), { client with awaited := none })

def takeAll (s : State) : IO State := do
  let (relay, clients) ← s.clients.foldlM (fun (acc : Relay × List Client) client => do
    let (relay, client) ← take acc.1 client
    return (relay, acc.2 ++ [client])) (s.relay, [])
  return { s with relay := relay, clients := clients }

/-- Send a client what is there for it, and let it go when nothing more will follow. -/
def deliver (s : State) (client : Client) : IO State := do
  let (relay, bytes, ended) := s.relay.collect client.number
  let s := { s with relay := relay }
  let gone : IO State := do
    try client.socket.shutdown.block catch _ => pure ()
    return { s with relay := s.relay.receive (.hangUp client.number)
                    clients := s.clients.filter fun c => c.number != client.number }
  try
    if !bytes.isEmpty then (client.socket.send bytes).block
    if ended then gone else return s
  catch _ => gone

/-! ## The operator -/

def put : List PromptRequest → IO (Option (AsyncTask String))
  | [] => return none
  | request :: _ => do
    IO.eprintln (Terminal.question request)
    let input ← IO.getStdin
    return some (← IO.asTask input.getLine .dedicated)

def tell (s : State) (notice : Relay.Notice) : IO State := do
  match notice with
  | .question request =>
    let questions := s.questions ++ [request]
    return { s with
      questions := questions
      typing := ← (if s.questions.isEmpty then put questions else pure s.typing) }
  | .retracted origin =>
    IO.eprint (({ input := [] } : Terminal).retract origin).output
    return s

def tellAll (s : State) : IO State := do
  let (relay, notices) := s.relay.notices
  let s := { s with relay := relay }
  if s.settings.answer?.isSome then return s else notices.foldlM tell s

/-- Take the line that the operator has typed, if there is one, as the answer to the first
question. -/
def heed (s : State) : IO State := do
  match s.questions, s.typing with
  | request :: rest, some typing =>
    if !(← IO.hasFinished typing) then return s
    let line := typing.get.toOption.getD ""
    let answer : Answer :=
      match (({ input := line.toUTF8.toList } : Terminal).ask request).2 with
      | .ok true => .yes
      | .ok false => .no
      | .error _ => .dismissed
    return { s with
      questions := rest
      relay := s.relay.receive (.answer request.origin answer)
      typing := ← put rest }
  | _, _ => return s

/-! ## The loop -/

/-- Go on until interrupted. `began` is when the program was started. -/
partial def run (began : Nat) (interrupt : AsyncTask Int) (s : State) : IO Unit := do
  if ← IO.hasFinished interrupt then
    let s := { s with relay := s.relay.shutdown.settle }
    let _ ← s.clients.foldlM deliver s
    return
  IO.sleep 10
  let s := { s with relay := s.relay.passTo ((← IO.monoMsNow) - began) }
  let s ← heed (← tellAll (← takeAll (← welcome s)))
  let s ← s.clients.foldlM deliver s
  run began interrupt (← reload (← save s))

def listenAddress (address : SocketAddress) : Std.Net.SocketAddress :=
  let port := address.port.toUInt16
  match address.ip with
  | .v4 bits =>
    let byte (i : Nat) : UInt8 := (bits / 256 ^ i).toUInt8
    .v4 ⟨.ofParts (byte 3) (byte 2) (byte 1) (byte 0), port⟩
  | .v6 pieces =>
    let piece (i : Nat) : UInt16 := (pieces.getD i 0).toUInt16
    .v6 ⟨.ofParts (piece 0) (piece 1) (piece 2) (piece 3) (piece 4) (piece 5) (piece 6) (piece 7), port⟩

def serve (settings : Cli.Settings) (relay : Relay) : IO Unit := do
  let some address := SocketAddress.parse? s!"{settings.host}:{settings.port}" | return
  let server ← TCP.Socket.Server.mk
  server.bind (listenAddress address)
  server.listen 1024
  let port := (← server.getSockName).port
  IO.println s!"RELAY_PORT={port}"
  (← IO.getStdout).flush
  let interrupt ← (← Signal.Waiter.mk .sigint false).wait
  run (← IO.monoMsNow) interrupt
    { settings := settings
      server := server
      relay := relay.receive .loaded
      arrival := ← server.accept.toIO
      saved := relay.decisions
      policy := settings.policy.map fun path => { path := path } }

end Program

end Switchboard

open Switchboard in
def main (arguments : List String) : IO UInt32 := do
  match Cli.Settings.ofArguments arguments with
  | .error .helpWanted =>
    IO.println Cli.help
    return 0
  | .error e =>
    IO.eprintln e.message
    IO.eprintln s!"\n{Cli.usage}\n\nFor more information, try '--help'."
    return 2
  | .ok settings =>
    match settings.start (← Program.gatherAll settings) with
    | .ended code line =>
      IO.eprintln line
      return code.toUInt32
    | .running relay =>
      try
        Program.serve settings relay
        return 0
      catch e =>
        IO.eprintln s!"Error: {e}"
        return 1
