import Switchboard.Proofs.Runs
import Switchboard.World.Task

/-!
# Exchanges and their runs

An exchange is one server channel with everything that happens on it: a registry over a backend at
its far end, and at its near end any number of handlers, each for one client on a pair of channels of
its own. Channels `2 * p` and `2 * p + 1` are the two ends of pair `p`; pair `0` is the server channel.

A run is a list of moves. A move carries out the next action of the agenda, lets one task go on, or
calls one of the functions that the owners of the objects may call. Tasks go on in any order, and only
when the agenda is empty; the functions may be called at any time, as callbacks do. After a breach of
protocol that stops everything no move has an effect.

What a run shows is read off its transitions: the messages sent and delivered, the requests that reach
a handler, the outcomes of permission checks, and the calls that the backend carries out.
-/

namespace Switchboard

/-- A world with the work to be done at once, the next action first. -/
structure Exchange where
  world : World
  agenda : List Action := []

namespace Exchange

/-- The handlers' end of the server channel. -/
abbrev near : Nat := 0

/-- The registry's end of it. -/
abbrev far : Nat := 1

def peer (c : Nat) : Nat := if c % 2 = 0 then c + 1 else c - 1

def isClientEnd (c : Nat) : Bool := 2 ≤ c && c % 2 == 0

def isHandlerEnd (c : Nat) : Bool := 2 ≤ c && c % 2 == 1

theorem two_le_of_isHandlerEnd {c : Nat} (h : isHandlerEnd c = true) : 2 ≤ c := by
  simp only [isHandlerEnd, Bool.and_eq_true, decide_eq_true_eq] at h
  exact h.1

/-- A service of the server channel that neither the tracker nor a requester listens to. -/
structure FreeService where
  name : String
  unready : name ≠ Service.serverReady
  unasked : ∀ n, name ≠ Service.response n

/-- What can happen next. -/
inductive Move where
  /-- The next action of the agenda is carried out. -/
  | proceed
  | poll (task : Nat)
  /-- Time passes. -/
  | tick (ms : Nat)
  /-- A pair of channels is made for a client. -/
  | connect
  /-- A client handler begins to serve its end of a pair. -/
  | accept (channel : Nat) (readiness : ReadinessSource) (origin : Option String)
      (checker : CheckerRef)
  /-- A client puts a requester on its end of a pair that is served. -/
  | enlist (channel : Nat) (policy : Policy)
  | post (requester : Nat) (call : Call)
  /-- A client or the server sends any message on its end. -/
  | send (channel : Nat) (service : String) (payload : Json)
  /-- A server handler is made that belongs to no client handler. -/
  | attach (readiness : ReadinessSource) (name : String)
  | handle (handler : Nat) (call : Call)
  | close (channel : Nat)
  | closeClient (client : Nat)
  | closeHandler (handler : Nat)
  | closeRequester (requester : Nat)
  /-- A check is decided, or a job of the backend is done. -/
  | settle (promise : Nat) (outcome : Outcome)
  /-- A checker is made whose checks are decided from outside. -/
  | hire (label : String)
  | install (label : String) (desk : Desk)
  | revise (desk : Nat) (content : Desk)
  /-- Nobody watches for the server's announcement any more. -/
  | forgo
  /-- Someone else listens to a service at the near end of the server channel. -/
  | observe (service : FreeService) (label : String)
  /-- Someone else wants to know when the near end of the server channel is closed. -/
  | watch (label : String)

/-- Whether a move brings something to the server channel that belongs to no handler. -/
def Move.furnishes : Move → Bool
  | .observe _ _ | .watch _ => true
  | _ => false

end Exchange

namespace World

open Exchange

/-- Whether a client handler can begin to serve a channel: each serves one of its own. -/
def canAdmit (w : World) (c : Nat) : Bool :=
  isHandlerEnd c && decide (c < w.channels.size) && !w.clientHandlers.cells.any (·.channel == c)

def canEnlist (w : World) (c : Nat) : Bool :=
  isClientEnd c && w.clientHandlers.cells.any (·.channel == c + 1) &&
    !w.requesters.cells.any (·.channel == c)

def isClients (w : World) (r : Nat) : Bool := (w.requesters.get? r).any (·.channel != near)

def isOwned (w : World) (h : Nat) : Bool := w.clientHandlers.cells.any (·.serverHandler == h)

def isOutside (w : World) (p : Nat) : Bool :=
  w.checkers.cells.any (fun c => c.checks.contains p) || w.waiting.any (·.2 == p)

def outgoing (w : World) (c : Nat) : List (String × Json) :=
  match w.pairs.get? (c / 2) with
  | some q => if c % 2 = 0 then q.toSecond else q.toFirst
  | none => []

/-- Whether messages for a service on a channel go to the receiver of a client handler. -/
def serves (w : World) (k c : Nat) (service : String) : Bool :=
  match (w.channels.get? c).bind fun ch => ch.core.handler? service with
  | some (.requests v) =>
    match w.receivers.get? v with
    | some { provider := .client k', live := live, .. } => live && k' == k
    | _ => false
  | _ => false

/-- The call that a client handler is asked for by a message, with the number of the request. -/
def arrival? (w : World) (k c : Nat) (service : String) (payload : Json) : Option (Nat × Call) :=
  if w.serves k c service then
    (Request.ofJson? payload).bind fun m => (Call.ofJson? m.payload).map fun call => (m.id, call)
  else none

end World

namespace Exchange

/-- Call a function of the objects' owners: the world after it and what is to be done at once. -/
def Move.apply (m : Move) (w : World) : World × List Action :=
  match m with
  | .proceed => (w, [])
  | .poll _ => (w, [])
  | .tick _ => (w, [])
  | .connect => ((w.newPair "client" "handler").1, [])
  | .accept c readiness origin checker =>
    if w.canAdmit c then
      ((w.newClientHandler c near readiness origin checker).1,
        (w.newClientHandler c near readiness origin checker).2.1)
    else (w, [])
  | .enlist c policy =>
    if w.canEnlist c then ((w.newRequester Service.clientRequester c policy).1, []) else (w, [])
  | .post r call => if w.isClients r then ((w.post r call.toJson).1, []) else (w, [])
  | .send c service payload =>
    if c == far || isClientEnd c then (w.sendQuietly c service payload, []) else (w, [])
  | .attach readiness name => ((w.newServerHandler near readiness name).1, [])
  | .handle h call =>
    match w.serverHandlers.get? h with
    | some cell =>
      if w.isOwned h then (w, [])
      else (w.promise (.error .jobSkipped)).addJob cell.gate (.post h call) w.promises.size
    | none => (w, [])
  | .close c => (w, [.closeChannel c])
  | .closeClient k => (w, [.closeClientHandler k])
  | .closeHandler h => (w, [.closeServerHandler h])
  | .closeRequester r => if w.isClients r then (w.disposeRequester r, []) else (w, [])
  | .settle p outcome => if w.isOutside p then (w.resolve p outcome, []) else (w, [])
  | .hire label => ({ w with checkers := w.checkers.push { label := label } }, [])
  | .install label desk =>
    ({ w with desks := w.desks.push { label := label, desk := desk } }, [])
  | .revise d desk => (World.wake (.desk d) (w.setDesk d desk), [])
  | .forgo =>
    (World.wake (.tracker 0)
      { w with trackers := w.trackers.modify 0 fun c => { c with live := false } }, [])
  | .observe service label => (w.register near service.name (.observer "near" label []), [])
  | .watch label => w.guardChannel near (.observer "near" label [])

def step (s : Exchange) (m : Move) : Exchange :=
  if s.world.aborted.isSome then s
  else
    match m with
    | .proceed =>
      match s.agenda with
      | [] => s
      | action :: rest => ⟨(s.world.perform action).1, (s.world.perform action).2 ++ rest⟩
    | .poll t =>
      match s.agenda with
      | [] => ⟨(s.world.poll t).1, (s.world.poll t).2⟩
      | _ => s
    | .tick ms =>
      match s.agenda with
      | [] => ⟨{ s.world with clock := s.world.clock + ms }, []⟩
      | _ => s
    | m => ⟨(m.apply s.world).1, (m.apply s.world).2 ++ s.agenda⟩

/-- The exchange before any client has come: the server channel with a tracker at its near end and a
registry at its far end, over a backend that carries out calls in the given way. -/
def opening (serve : Serving) : Exchange :=
  let w : World := { script := Script.echo, serve := serve }
  let w := (w.newPair "near" "far").1
  let w := (w.newTracker near).1
  let w := { w with backends := w.backends.push {} }
  ⟨(w.newRegistry far 0).1, []⟩

theorem opening_eq (serve : Serving) : (opening serve).world =
    { script := Script.echo, serve := serve
      channels := (({} : Table Channel).push
        { label := "near", transport := .paired 0 false
          core :=
            { services := [(Service.serverReady, .readiness 0)], hooks := [(0, .tracker 0)], nextKey := 1 } }).push
        { label := "far", transport := .paired 0 true
          core :=
            { services := [(Service.createHandler, .arrivals 0), (Service.deleteHandler, .departures 0)]
              hooks := [(0, .registry 0)], nextKey := 1 } }
      pairs := ({} : Table Pair).push { first := near, second := far }
      trackers := ({} : Table TrackerCell).push { channel := near }
      registries := ({} : Table RegistryCell).push { channel := far, backend := 0 }
      backends := ({} : Table Backend).push {}
      tasks := (({} : Table Task).push (.pump 0 true)).push (.pump 0 false)
      queue := [0, 1] } :=
  rfl

/-- Every call is answered with null. -/
def oblige : Serving := fun _ _ _ => .ofOutcome (.ok .null)

/-! ## Runs -/

/-- A move with the exchange before and after it. -/
abbrev Transition := Runs.Turn Exchange Move

abbrev transition (x : Exchange) (m : Move) : Transition := ⟨x, m, x.step m⟩

abbrev run (s : Exchange) (ms : List Move) : Exchange := Runs.run step s ms

abbrev trace (s : Exchange) (ms : List Move) : List Transition := Runs.turns step s ms

namespace Transition

/-- What is sent on a channel at a move. -/
def sent (t : Transition) (c : Nat) : List (String × Json) :=
  (t.after.world.outgoing c).drop (t.before.world.outgoing c).length

def delivered? (t : Transition) : Option (Nat × String × Json) :=
  match t.before.world.aborted, t.event, t.before.agenda with
  | none, .proceed, .deliver c service payload :: _ => some (c, service, payload)
  | _, _, _ => none

/-- The request that a client handler takes in. -/
def request? (t : Transition) (k : Nat) : Option (Nat × Call) :=
  match t.delivered? with
  | some (c, service, payload) => t.before.world.arrival? k c service payload
  | none => none

def polled? (t : Transition) : Option (Nat × Task) :=
  match t.before.world.aborted, t.event, t.before.agenda with
  | none, .poll i, [] => (t.before.world.tasks.get? i).map fun task => (i, task)
  | _, _, _ => none

/-- How the permission check of a client handler was seen to end, while its gate waited for that. -/
def verdict? (t : Transition) (k : Nat) : Option Outcome :=
  match t.polled? with
  | some (_, .await future (.gate g)) =>
    if (t.before.world.clientHandlers.get? k).any (fun c => c.gate == some g) &&
        (t.before.world.gates.get? g).any (fun c => c.core.phase = .waiting) then
      (t.before.world.look future).2.2.map World.outcomeOf
    else none
  | _ => none

end Transition

end Exchange

end Switchboard
