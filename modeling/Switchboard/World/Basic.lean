import Switchboard.Backend
import Switchboard.Channel.Core
import Switchboard.Channel.Pipe
import Switchboard.Deferred
import Switchboard.Liveness.Pinger
import Switchboard.Readiness
import Switchboard.Requester
import Switchboard.World.Command

/-!
# The world

A world holds channels, the components that live on them, and the tasks that wait for something to
happen. Everything is kept in tables and referred to by number; names given by commands lead to
numbers.

Nothing in a world runs by itself. Work to be done at once is a list of `Action`s, the next one first;
work to be done later is a `Task` in a queue. Both are defined here; carrying them out is the matter
of later modules.

An object that its owner has given up stays in its table with `live` off. What refers to it from
outside (a handler on a channel, a hook) then does nothing.
-/

namespace Switchboard

abbrev Outcome := Except Fault Json

/-- What handles the messages of a service. -/
inductive Handler where
  | observer (channel name : String) (script : List Command)
  | responses (requester : Nat)
  | requests (receiver : Nat)
  | pongs (pinger : Nat)
  | pings (responder : Nat)
  /-- The server's announcement that it is ready. -/
  | readiness (tracker : Nat)
  | arrivals (registry : Nat)
  | departures (registry : Nat)
deriving Inhabited

/-- What happens when something is closed. -/
inductive Hook where
  | observer (owner name : String) (script : List Command)
  | requester (requester : Nat)
  | pinger (pinger : Nat)
  | tracker (tracker : Nat)
  | serverHandler (handler : Nat)
  | clientHandler (handler : Nat)
  | registry (registry : Nat)
  | clientTable (id : Nat)
deriving Inhabited

/-- What carries the messages of a channel. -/
inductive Transport where
  /-- Messages are reported; sending fails with the fault, if one is set. -/
  | recorder (fault : Option Fault)
  | paired (pair : Nat) (second : Bool)
  | stream (stream : Nat)
deriving Inhabited

structure Channel where
  /-- The name under which events are reported. -/
  label : String
  core : ChannelCore Handler Hook := {}
  transport : Transport
deriving Inhabited

/-- Two linked channels with the messages on their way to each. -/
structure Pair where
  first : Nat
  second : Nat
  toFirst : List (String × Json) := []
  toSecond : List (String × Json) := []
  cancelled : Bool := false
deriving Inhabited

namespace Pair

def enqueue (p : Pair) (fromSecond : Bool) (message : String × Json) : Pair :=
  if fromSecond then { p with toFirst := p.toFirst ++ [message] }
  else { p with toSecond := p.toSecond ++ [message] }

def next? (p : Pair) (second : Bool) : Option ((String × Json) × Pair) :=
  if p.cancelled then none
  else if second then
    match p.toSecond with
    | m :: rest => some (m, { p with toSecond := rest })
    | [] => none
  else
    match p.toFirst with
    | m :: rest => some (m, { p with toFirst := rest })
    | [] => none

def channel (p : Pair) (second : Bool) : Nat := if second then p.second else p.first

end Pair

/-- A channel over two pipes. -/
structure Stream where
  channel : Nat
  policy : Policy
  incoming : Nat
  outgoing : Nat
  /-- Bytes read that are not yet a whole frame. -/
  fragment : ByteArray := .empty
  outbox : List ByteArray := []
  /-- Whether the writer has taken up the first frame; it then writes all of it. -/
  begun : Bool := false
  /-- How much of the first frame has been written. -/
  written : Nat := 0
  cancelled : Bool := false
  /-- Nobody holds the channel any more. -/
  orphaned : Bool := false
  readerDone : Bool := false
  writerDone : Bool := false
deriving Inhabited

/-- The far side of a stream channel, as bare bytes. -/
structure RawEnd where
  label : String
  incoming : Nat
  outgoing : Nat
  reads : Bool
  toWrite : ByteArray := .empty
  shutdown : Bool := false
  dropped : Bool := false
  received : ByteArray := .empty
  ended : Bool := false
  reported : Bool := false
deriving Inhabited

/-- A requester on a channel. Tickets are numbers of promises. -/
structure RequesterCell where
  core : Requester Nat
  channel : Nat
  policy : Policy
  hook : Option Nat := none
  live : Bool := true
deriving Inhabited

/-- Who answers the requests that a receiver takes in. -/
inductive Service.Provider where
  /-- The payload itself says how the job ends. -/
  | scripted (label : String)
  | client (handler : Nat)
  | backend (backend handler : Nat)
deriving Inhabited

structure ReceiverCell where
  name : String
  channel : Nat
  policy : Policy
  provider : Service.Provider
  live : Bool := true
deriving Inhabited

/-- How far the loop of a pinger has come. -/
inductive PingLoop where
  /-- It lets the others go first. -/
  | fresh
  /-- The first ping is due. -/
  | starting
  | running
  | stopped
deriving DecidableEq, Repr, Inhabited

structure PingerCell where
  label : String
  core : Pinger := {}
  channel : Nat
  watch : Watch
  loop : PingLoop := .fresh
  onEstablished : Option (List Command)
  hook : Option Nat := none
  live : Bool := true
deriving Inhabited

structure ResponderCell where
  label : String
  channel : Nat
  /-- The identifier that its pongs bear. -/
  channelId : Nat
  listener : Option (List Command)
  disposed : Bool := false
  live : Bool := true
deriving Inhabited

structure TrackerCell where
  channel : Nat
  state : Readiness := .pending
  live : Bool := true
deriving Inhabited

inductive ReadinessSource where
  | always
  | tracker (tracker : Nat)
deriving DecidableEq, Repr, Inhabited

/-- A job before a gate. -/
inductive Job where
  | scripted (gate key : String) (job : Script) (script : List Command)
  | forward (serverHandler : Nat) (call : Call)
  | post (serverHandler : Nat) (call : Call)
deriving Inhabited

/-- What to do when a gate fails. -/
inductive Rejection where
  | scripted (label : String) (script : List Command)
  | serverHandler (handler : Nat)
deriving Inhabited

structure GateCell where
  core : Deferred Job Nat := {}
  onRejected : Option Rejection := none
  readiness : Option Nat := none
  live : Bool := true
deriving Inhabited

/-- One client's calls on their way to the server. -/
structure ServerHandlerCell where
  id : Nat
  clientName : String
  channel : Nat
  gate : Nat
  requester : Option Nat := none
  channelGone : Bool := false
  disposed : Bool := false
  hooks : List Hook := []
  hook : Option Nat := none
  live : Bool := true
deriving Inhabited

/-- Who decides about permissions. -/
inductive CheckerRef where
  | manual (checker : Nat)
  | desk (desk : Nat)
deriving DecidableEq, Repr, Inhabited

structure ClientHandlerCell where
  origin : Option String
  channel : Nat
  serverHandler : Nat
  readiness : ReadinessSource
  checker : CheckerRef
  gate : Option Nat := none
  receiver : Option Nat := none
  disposed : Bool := false
  live : Bool := true
deriving Inhabited

/-- The server's view of the clients: the receiver of each by its number. -/
structure RegistryCell where
  channel : Nat
  backend : Nat
  entries : List (Nat × Nat) := []
  live : Bool := true
deriving Inhabited

/-- A checker whose decisions are made by commands. -/
structure ManualCell where
  label : String
  checks : List Nat := []
  /-- Whether somebody could still decide. -/
  live : Bool := true
deriving Inhabited

structure DeskCell where
  label : String
  desk : Desk
deriving Inhabited

structure ListCell where
  list : AllowList
  /-- Whether somebody could still change it. -/
  live : Bool := true
deriving Inhabited

/-- A memo of checks, each by the number of a shared future. -/
structure CacheCell where
  label : String
  memo : List (String × Nat) := []
deriving Inhabited

/-- A value that will be there once; if its maker goes away, the value is the fallback. -/
structure Promise where
  fallback : Outcome
  outcome : Option Outcome := none
deriving Inhabited

inductive ListRef where
  | desk (desk : Nat)
  | own (list : Nat)
deriving DecidableEq, Repr, Inhabited

/-- What a future gives. -/
inductive Settled where
  | outcome (outcome : Outcome)
  | plain
  | list (list : AllowList)
deriving Inhabited

/-- Something to wait for. -/
inductive Future where
  | done (result : Settled)
  | promise (promise : Nat)
  | job (script : Script)
  | sleep (wake ms : Nat)
  | readiness (source : ReadinessSource)
  | check (desk check : Nat)
  | inquiry (desk inquiry : Nat)
  | closePrompt (desk : Nat) (origin : String)
  | cancelled (token : Nat)
  | listLoaded (list : Nat)
  | listAllows (list : Nat) (origin : String)
  | shared (future : Nat)
  | dispatch (backend handler : Nat) (call : Call)
deriving Inhabited

/-- A future that several tasks may wait for. -/
structure SharedCell where
  future : Future
  result : Option Settled := none
deriving Inhabited

/-- What is done with the result of a future. -/
inductive Continuation where
  | report (key : String)
  | resolve (promise : Nat)
  | respond (channel : Nat) (service : String) (request : Nat)
  | gate (gate : Nat)
deriving Inhabited

/-- Work that may have to wait. -/
inductive Task where
  | finished
  | await (future : Future) (continuation : Continuation)
  | pump (pair : Nat) (second : Bool)
  | readLoop (stream : Nat)
  | writeLoop (stream : Nat)
  | pingLoop (pinger : Nat)
  | storeGrant (desk : Nat) (origin : String)
  | backendCreated (backend handler : Nat) (name : String)
  | backendDeleted (backend handler : Nat)
  | rawRead (raw : Nat)
  | rawWrite (raw : Nat)
deriving Inhabited

/-- What tasks wait for. -/
inductive Source where
  | promise (promise : Nat)
  | tracker (tracker : Nat)
  | desk (desk : Nat)
  | list (list : Nat)
  | token (token : Nat)
  | pair (pair : Nat)
  | stream (stream : Nat)
  | raw (raw : Nat)
  | pinger (pinger : Nat)
deriving DecidableEq, Repr, Inhabited

/-- What a name stands for. -/
inductive Ref where
  | channel (channel : Nat)
  | raw (raw : Nat)
  | requester (requester : Nat)
  | receiver (receiver : Nat)
  | pinger (pinger : Nat)
  | responder (responder : Nat)
  | tracker (tracker : Nat)
  | signal (source : ReadinessSource)
  | gate (gate : Nat)
  | serverHandler (handler : Nat)
  | clientHandler (handler : Nat)
  | backend (backend : Nat)
  | registry (registry : Nat)
  | checker (checker : Nat)
  | desk (desk : Nat)
  | list (list : Nat)
  | cache (cache : Nat)
  | token (token : Nat)
deriving DecidableEq, Repr, Inhabited

/-- Work to be done at once. -/
inductive Action where
  /-- Carry out a command inside a callback and report its reply. -/
  | nested (command : Command)
  | log (event : Event)
  | deliver (channel : Nat) (service : String) (payload : Json)
  | closeChannel (channel : Nat)
  | closeCore (channel : Nat)
  | cancelStream (stream : Nat)
  | runHook (hook : Hook)
  | closeServerHandler (handler : Nat)
  | closeClientHandler (handler : Nat)
  | releaseReceiver (receiver : Nat)
  | violation (policy : Policy) (scope detail : String) (channel : Nat)
  | flush (gate : Nat)
  | dispatchNext (gate : Nat)
  | invoke (job : Job) (ticket : Nat)
  | guardChannel (channel : Nat) (hook : Hook)
  | track (key : String) (future : Future)
  | spawn (task : Task)
  | pumpNext (pair : Nat) (second : Bool)
  | readNext (stream : Nat)
  | frame (stream : Nat) (body : ByteArray)
  | readOn (stream : Nat)
  | finishReader (stream : Nat)
  | writeNext (stream : Nat)
  | pingNext (pinger : Nat)
  /-- Give a name to something; what had the name before is let go. -/
  | bind (key : String) (ref : Ref)
deriving Inhabited

/-- An event and when it happened. -/
structure Logged where
  time : Nat
  event : Event
deriving Inhabited

/-- How a backend carries out a call. -/
abbrev Serving := Backend → Nat → Call → Script

structure World where
  /-- How a receiver's payload says what is to become of the job. -/
  script : Json → Script
  serve : Serving := fun b _ call => .ofOutcome (b.dispatch call)
  clock : Nat := 0
  names : List (String × Ref) := []
  channels : Table Channel := {}
  pairs : Table Pair := {}
  streams : Table Stream := {}
  pipes : Table Pipe := {}
  raws : Table RawEnd := {}
  requesters : Table RequesterCell := {}
  receivers : Table ReceiverCell := {}
  pingers : Table PingerCell := {}
  responders : Table ResponderCell := {}
  trackers : Table TrackerCell := {}
  gates : Table GateCell := {}
  serverHandlers : Table ServerHandlerCell := {}
  clientHandlers : Table ClientHandlerCell := {}
  backends : Table Backend := {}
  registries : Table RegistryCell := {}
  checkers : Table ManualCell := {}
  desks : Table DeskCell := {}
  lists : Table ListCell := {}
  caches : Table CacheCell := {}
  tokens : Table Bool := {}
  /-- The handlers of the connected clients by identifier, where a table is kept. -/
  clients : List (Nat × Nat) := []
  promises : Table Promise := {}
  shares : Table SharedCell := {}
  tasks : Table Task := {}
  /-- The tasks that can go on, the next one first. -/
  queue : List Nat := []
  waiting : List (String × Nat) := []
  hookNames : List (String × (Nat × Nat)) := []
  /-- The tasks behind each key. -/
  futures : List (String × Nat) := []
  events : List Logged := []
  settled : List (String × Settled) := []
  /-- Why everything stopped. -/
  aborted : Option String := none

end Switchboard
