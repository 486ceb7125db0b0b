import Switchboard.World.Run

/-!
# What is seen of a world

After each command one sees the reply, the events, the results that have come in, and of every named
object what has changed about it.

Events of the command itself are shown as they happened. Those that follow are ordered by object and
time; among events of one object at one time, traffic of client handlers comes by handler, responses
by request, and prompts by origin, because the order in which independent tasks ran means nothing.
-/

namespace Switchboard

/-! ## Snapshots -/

/-- Where a client handler stands. -/
inductive ClientState where
  | bufferingForPermission
  | bufferingForReadiness
  | forwarding
  | rejected
  | disposed
deriving DecidableEq, Repr, Inhabited

namespace ClientState

def name : ClientState → String
  | .bufferingForPermission => "BufferingForPermission"
  | .bufferingForReadiness => "BufferingForReadiness"
  | .forwarding => "Forwarding"
  | .rejected => "Rejected"
  | .disposed => "Disposed"

end ClientState

/-- What is seen of an object. -/
inductive Snapshot where
  | recorder (name : String) (disposed : Bool) (services hooks : Nat)
  | channel (disposed : Bool)
  | requester (name : String) (pending : Nat) (disposed : Bool)
  | receiver (name : String)
  | pinger (state : PingerState) (remote : Option Nat)
  | readiness (state : Readiness)
  | gate (phase : GatePhase) (queued : Nat)
  | serverHandler (id : Nat) (disposed announced : Bool)
  | clientHandler (id : Nat) (origin : Option String) (state : ClientState) (disposed : Bool)
  | backend (clients : List (Nat × String))
  | registry (ids : List Nat)
  | desk (cached : Nat) (list : AllowList) (decisions : List (String × Bool))
  | list (list : AllowList)
  | cache (size : Nat)
  | token (cancelled : Bool)
deriving DecidableEq, Repr, Inhabited

namespace World

def clientState (w : World) (cell : ClientHandlerCell) : ClientState :=
  if cell.disposed then .disposed
  else
    let phase : Option GatePhase := (cell.gate.bind w.gates.get?).map fun c => c.core.phase
    match phase with
    | none => .bufferingForPermission
    | some .waiting => .bufferingForPermission
    | some (.failed _) => .rejected
    | some .disposed => .disposed
    | some .ready => if w.isReady cell.readiness then .forwarding else .bufferingForReadiness

def readinessState (w : World) : ReadinessSource → Readiness
  | .always => .ready
  | .tracker t => ((w.trackers.get? t).map TrackerCell.state).getD .pending

def snapshot? (w : World) : Ref → Option Snapshot
  | .channel c => (w.channels.get? c).map fun ch =>
      match ch.transport with
      | .recorder _ =>
        .recorder ch.label ch.core.disposed ch.core.services.length ch.core.hooks.length
      | _ => .channel ch.core.disposed
  | .requester r => (w.requesters.get? r).map fun c =>
      .requester c.core.name c.core.pending.length c.core.disposed
  | .receiver v => (w.receivers.get? v).map fun c => .receiver c.name
  | .pinger p => (w.pingers.get? p).map fun c => .pinger c.core.state c.core.remote
  | .tracker t => some (.readiness (w.readinessState (.tracker t)))
  | .signal s => some (.readiness (w.readinessState s))
  | .gate g => (w.gates.get? g).map fun c => .gate c.core.phase c.core.queue.length
  | .serverHandler h => (w.serverHandlers.get? h).map fun c =>
      .serverHandler c.id c.disposed c.requester.isSome
  | .clientHandler k => (w.clientHandlers.get? k).bind fun c =>
      (w.serverHandlers.get? c.serverHandler).map fun s =>
        .clientHandler s.id c.origin (w.clientState c) c.disposed
  | .backend b => (w.backends.get? b).map fun c => .backend c.clients
  | .registry g => (w.registries.get? g).map fun c =>
      .registry ((c.entries.map Prod.fst).mergeSort fun a b => a ≤ b)
  | .desk d => (w.desks.get? d).map fun c => .desk c.desk.memo.length c.desk.list c.desk.decisions
  | .list l => (w.lists.get? l).map fun c => .list c.list
  | .cache c => (w.caches.get? c).map fun k => .cache k.memo.length
  | .token t => (w.tokens.get? t).map Snapshot.token
  | .raw _ => none
  | .responder _ => none
  | .checker _ => none

def snapshots (w : World) : List (String × Snapshot) :=
  w.names.filterMap fun n => (w.snapshot? n.2).map fun s => (n.1, s)

end World

/-! ## The order of events -/

namespace Event

def subject : Event → String
  | .sent channel _ _ => channel
  | .delivered channel _ _ => channel
  | .disposed owner _ => owner
  | .nested command _ => command
  | .invoked receiver _ => receiver
  | .established pinger => pinger
  | .pinged responder => responder
  | .dispatched gate _ => gate
  | .rejected gate _ => gate
  | .checked checker _ => checker
  | .prompted desk _ => desk
  | .promptClosed desk _ => desk
  | .started cache _ => cache
  | .rawOut peer _ => peer
  | .rawEnd peer => peer

def handlerOf? (service : String) (payload : Json) : Option Nat :=
  if service == Service.createHandler || service == Service.deleteHandler then
    (payload.field? Key.handlerId).bind Json.asId?
  else
    let start := "client_handler_".toList
    let letters := service.toList
    if start.isPrefixOf letters then
      let digits := (letters.drop start.length).takeWhile Char.isDigit
      if digits.isEmpty then none
      else some (digits.foldl (fun n c => n * 10 + (c.toNat - '0'.toNat)) 0)
    else none

def isResponse (service : String) : Bool := "::response".toList.isSuffixOf service.toList

def rank : Event → Nat × Nat × String
  | .prompted _ request => (1, 0, request.origin)
  | .promptClosed _ origin => (2, 0, origin)
  | .sent _ service payload =>
    if isResponse service then
      (2, ((payload.field? "request_id").bind Json.asId?).getD 0, service)
    else
      match handlerOf? service payload with
      | some id => (1, id, "")
      | none => (0, 0, "")
  | _ => (0, 0, "")

end Event

namespace Logged

def rankLe (a b : Nat × Nat × String) : Bool :=
  if a.1 != b.1 then a.1 < b.1
  else if a.2.1 != b.2.1 then a.2.1 < b.2.1
  else !(b.2.2 < a.2.2)

def le (a b : Logged) : Bool :=
  if a.event.subject != b.event.subject then a.event.subject < b.event.subject
  else if a.time != b.time then a.time < b.time
  else rankLe a.event.rank b.event.rank

/-- Bring events into the order in which they are shown; equals stay as they are. -/
def arrange (events : List Logged) : List Logged := events.mergeSort le

end Logged

/-! ## Steps -/

/-- What is seen of a command. -/
structure Report where
  reply : Reply
  now : List Logged
  later : List Logged
  settled : List (String × Settled)
  state : List (String × Snapshot)

/-- A world and what was last seen of its objects. -/
structure Scenario where
  world : World
  shown : List (String × Snapshot) := []

namespace World

def reportRaw (w : World) : World :=
  w.raws.entries.foldl
    (fun acc e =>
      let raw := e.2
      let acc := if raw.received.isEmpty then acc else acc.log (.rawOut raw.label raw.received)
      let acc := if raw.ended && !raw.reported then acc.log (.rawEnd raw.label) else acc
      acc.modifyRaw e.1 fun c => { c with received := .empty, reported := c.reported || c.ended }) w

end World

namespace Scenario

def step (command : Command) (s : Scenario) : Scenario × Report :=
  let (w, reply) := s.world.obey command
  let now := w.events
  let w := (({ w with events := [] }).elapse command).reportRaw
  let later := Logged.arrange w.events
  let snapshots := w.snapshots
  let changed := snapshots.filter fun n => s.shown.lookup n.1 != some n.2
  ({ world := { w with events := [], settled := [] }, shown := snapshots },
    { reply := reply, now := now, later := later, settled := w.settled, state := changed })

/-- Carry out commands in order. What stops everything also takes away the report of the command that
led to it. -/
def run : List Command → Scenario → List Report × Option String
  | [], _ => ([], none)
  | command :: rest, s =>
    let (s, report) := s.step command
    match s.world.aborted with
    | some reason => ([], some reason)
    | none =>
      let (reports, reason) := run rest s
      (report :: reports, reason)

end Scenario

end Switchboard
