import Switchboard.Relay.Address
import Switchboard.World.Run

/-!
# The relay

The relay keeps one server in its own process, reached over a pair of channels, and serves any number
of clients from it, each on a stream of its own and each known by the address it comes from. At most
`Relay.maxClients` clients are connected at a time; a connection that comes when the table is full, or
when the server is gone, is dropped at once.

A client leaves the table when its channel is closed, for whatever reason.
-/

namespace Switchboard

/-- Where the relay listens, and how it watches its server. -/
structure RelayConfig where
  host : String
  port : Nat
  liveness : LivenessConfig
deriving DecidableEq, Repr, Inhabited

/-- Why the relay did not start. -/
inductive RelayError where
  | config (fault : Fault)
  | badAddress
  | notLocal
deriving DecidableEq, Repr, Inhabited

def RelayError.message : RelayError → String
  | .config fault => fault.message
  | .badAddress => "invalid socket address syntax"
  | .notLocal => "Cannot assign requested address (os error 99)"

structure Relay where
  world : World
  /-- The application's end of the pair of channels that leads to the server. -/
  server : Nat
  readiness : ReadinessSource
  desk : Nat
  accepting : Bool := true

namespace Relay

def maxClients : Nat := 64

def millis (s : Span) : Nat := s.nanos / 1000000

def serverCommands (liveness : LivenessConfig) (desk : Desk) : List Command :=
  [.pair "application" "server" "server",
   .tracker "tracker" "application",
   .pinger "pinger" "application" (millis liveness.interval) (millis liveness.timeout) false [],
   .responder "responder" "server" false [],
   .backend "backend",
   .registry "registry" "server" "backend",
   .announce "server",
   .stack "desk" (.ok desk)]

def serverWorld (liveness : LivenessConfig) (desk : Desk) : World :=
  World.settle World.fuel
    ((serverCommands liveness desk).foldl (fun w c => (w.obey c).1) { script := Script.echo })

def opening (liveness : LivenessConfig) (desk : Desk) : Relay :=
  { world := serverWorld liveness desk, server := 0, readiness := .tracker 0, desk := 0 }

def start (config : RelayConfig) (desk : Desk) : Except RelayError Relay :=
  match config.liveness.validate with
  | .error e => .error (.config e)
  | .ok () =>
    match SocketAddress.parse? s!"{config.host}:{config.port}" with
    | none => .error .badAddress
    | some address =>
      if !address.ip.canListen then .error .notLocal
      else .ok (opening config.liveness desk)

def count (r : Relay) : Nat := r.world.clients.length

def admits (r : Relay) : Bool :=
  r.accepting && r.world.isOpen r.server && r.count < maxClients

def originOf (peer : IpAddress) : String := "tcp://" ++ peer.render

/-- What is to be done at once while clients come and go: an action, the entry of a client handler into the
table, or letting go of a client handler. -/
inductive Chore where
  | act (action : Action)
  | enter (handler : Nat)
  | release (handler : Nat)
deriving Inhabited

def carryOut (chore : Chore) (w : World) : World × List Chore :=
  match chore with
  | .act action =>
    let (w, more) := w.perform action
    (w, more.map .act)
  | .enter k =>
    match w.clientHandlers.get? k with
    | none => (w, [])
    | some cell =>
      -- The channel may be closed by now: the hook then runs at once.
      ({ w with clients := Assoc.set cell.serverHandler k w.clients },
        [.act (.guardChannel cell.channel (.clientTable cell.serverHandler))])
  | .release k => (w.releaseClientHandler k, [])

def work : Nat → List Chore → World → World
  | 0, _, w => w
  | _, [], w => w
  | n + 1, chore :: rest, w =>
    if w.aborted.isSome then w
    else
      let (w, more) := carryOut chore w
      work n (more ++ rest) w

/-- A client's stream and handler are made, and the far end of the stream. -/
def greet (peer : IpAddress) (capacity : Nat) (r : Relay) : World × List Chore × Nat :=
  let (w, a, b) := r.world.newPipes capacity
  let (w, c) := w.newStream ("client " ++ peer.render) .disposeChannel a b
  let raw := w.raws.size
  let cell : RawEnd := { label := peer.render, incoming := b, outgoing := a, reads := true }
  let w := { w with raws := w.raws.push cell }
  let w := (w.spawn (.rawRead raw)).spawn (.rawWrite raw)
  let (w, actions, k) :=
    w.newClientHandler c r.server r.readiness (some (originOf peer)) (.desk r.desk)
  (w, actions.map .act ++ [.enter k], raw)

/-- A client connects: the relay, and the far end of the client's stream if it was taken. -/
def accept (peer : IpAddress) (capacity : Nat) (r : Relay) : Relay × Option Nat :=
  if !r.admits then (r, none)
  else
    let (w, chores, raw) := r.greet peer capacity
    ({ r with world := (work World.fuel chores w).reap }, some raw)

def settle (r : Relay) : Relay := { r with world := World.settle World.fuel r.world }

/-- The table is emptied before the handlers in it are closed. -/
def dismiss (r : Relay) : World × List Chore :=
  ({ r.world with clients := [] },
    (r.world.clients.flatMap fun e => [.act (.closeClientHandler e.2), .release e.2]) ++
      [.act (.closeChannel r.server)])

def shutdown (r : Relay) : Relay :=
  if !r.accepting then r
  else
    let (w, chores) := r.dismiss
    { r with world := (work World.fuel chores w).reap, accepting := false }

def allow (origins : List String) (r : Relay) : Relay :=
  { r with world := r.world.setList (.desk r.desk) (.ofIdentifiers origins) }

end Relay

end Switchboard
