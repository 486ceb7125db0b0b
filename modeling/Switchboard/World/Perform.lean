import Switchboard.World.Component
import Switchboard.World.Stream

/-!
# Carrying out actions

`react` carries out one action and returns what is to be done next, before anything else. Commands
nested in callbacks are left to `execute`, which needs all of this.
-/

namespace Switchboard

namespace World

def nestedAll (script : List Command) : List Action := script.map Action.nested

/-! ## Messages -/

def onResponse (r : Nat) (payload : Json) (w : World) : World × List Action :=
  match w.requesters.get? r with
  | none => (w, [])
  | some cell =>
    if !cell.live then (w, [])
    else
      let (core, received) := cell.core.receive payload
      let w := { w with requesters := w.requesters.modify r fun c => { c with core := core } }
      match received with
      | .ignored => (w, [])
      | .settled ticket outcome => (w.resolve ticket outcome, [])
      | .malformed =>
        (w, [.violation cell.policy cell.core.logName
          s!"failed to parse the received response message: {payload.render}" cell.channel])
      | .unknown id =>
        (w, [.violation cell.policy cell.core.logName
          s!"received a response for unknown request with identifier {id}" cell.channel])

/-- The job that a request means, with what has to be done before it can be awaited. -/
def answerTo (provider : Service.Provider) (payload : Json) (w : World) :
    World × List Action × Future :=
  match provider with
  | .scripted label =>
    let future : Future := .job (w.script payload)
    let w := w.log (.invoked label payload)
    (w, [], future)
  | .client k => w.handleClientRequest k payload
  | .backend b handler =>
    match Call.ofJson? payload with
    | some call => (w, [], .dispatch b handler call)
    | none =>
      (w.abort registryScope
        s!"failed to parse the remote call for handler {handler}: {payload.render}", [],
        .done .plain)

def onRequest (v : Nat) (payload : Json) (w : World) : World × List Action :=
  match w.receivers.get? v with
  | none => (w, [])
  | some cell =>
    if !cell.live then (w, [])
    else
      match Request.ofJson? payload with
      | none =>
        (w, [.violation cell.policy s!"RequestReceiver<\"{cell.name}\">"
          s!"failed to parse the received request message: {payload.render}" cell.channel])
      | some m =>
        let (w, actions, future) := w.answerTo cell.provider m.payload
        let respond : Continuation := .respond cell.channel (Service.response cell.name) m.id
        (w, actions ++ [.spawn (.await future respond)])

def onPong (p : Nat) (payload : Json) (w : World) : World × List Action :=
  match w.pingers.get? p with
  | none => (w, [])
  | some cell =>
    let (core, pong) := cell.core.receive payload
    let w := { w with pingers := w.pingers.modify p fun c => { c with core := core } }
    match pong with
    | .ignored => (w, [])
    | .malformed => (w.disposePinger p .malformedPong, [.closeChannel cell.channel])
    | .mismatch => (w.disposePinger p .channelIdMismatch, [.closeChannel cell.channel])
    | .alive =>
      (wake (.pinger p) { w with pingers := w.pingers.modify p fun c =>
        { c with watch := { c.watch with signs := c.watch.signs + 1 } } }, [])
    | .first =>
      let w := { w with pingers := w.pingers.modify p fun c => { c with onEstablished := none } }
      match cell.onEstablished with
      | none => (w, [])
      | some script => (w.log (.established cell.label), nestedAll script)

def onPing (r : Nat) (w : World) : World × List Action :=
  match w.responders.get? r with
  | none => (w, [])
  | some cell =>
    if !cell.live || cell.disposed || !w.isOpen cell.channel then (w, [])
    else
      let w := w.sendQuietly cell.channel Service.pong (.obj [(Key.channelId, .ofNat cell.channelId)])
      match cell.listener with
      | none => (w, [])
      | some script => (w.log (.pinged cell.label), nestedAll script)

def deliver (c : Nat) (service : String) (payload : Json) (w : World) : World × List Action :=
  match (w.channels.get? c).bind fun ch => ch.core.handler? service with
  | none => (w, [])
  | some handler =>
    match handler with
    | .observer channel name script => (w.log (.delivered channel name payload), nestedAll script)
    | .responses r => w.onResponse r payload
    | .requests v => w.onRequest v payload
    | .pongs p => w.onPong p payload
    | .pings r => w.onPing r
    | .readiness t =>
      (if (w.trackers.get? t).any (·.live) then w.settleTracker t .ready else w, [])
    | .arrivals g => (if (w.registries.get? g).any (·.live) then w.arrive g payload else w, [])
    | .departures g => (if (w.registries.get? g).any (·.live) then w.depart g payload else w, [])

/-! ## Closing -/

def closeChannel (c : Nat) (w : World) : World × List Action :=
  match w.channels.get? c with
  | none => (w, [])
  | some ch =>
    match ch.transport with
    | .recorder _ => (w, [.closeCore c])
    | .paired p _ =>
      match w.pairs.get? p with
      | none => (w, [])
      | some pair =>
        (wake (.pair p) { w with pairs := w.pairs.modify p fun q => { q with cancelled := true } },
          [.closeCore pair.first, .closeCore pair.second])
    | .stream s => (w, if ch.core.disposed then [] else [.closeCore c, .cancelStream s])

def closeCore (c : Nat) (w : World) : World × List Action :=
  match (w.channels.get? c).bind fun ch => ch.core.dispose with
  | none => (w, [])
  | some (core, hooks) => (w.modifyChannel c fun _ => core, hooks.map Action.runHook)

def leaveTable (id : Nat) (w : World) : World :=
  match w.clients.lookup id with
  | some k => ({ w with clients := Assoc.erase id w.clients }).releaseClientHandler k
  | none => w

def runHook (hook : Hook) (w : World) : World × List Action :=
  match hook with
  | .observer owner name script => (w.log (.disposed owner name), nestedAll script)
  | .requester r => (if (w.requesters.get? r).any (·.live) then w.disposeRequester r else w, [])
  | .pinger p => (w.disposePinger p .channelClosed, [])
  | .tracker t => (if (w.trackers.get? t).any (·.live) then w.settleTracker t .channelLost else w, [])
  | .serverHandler h =>
    if (w.serverHandlers.get? h).any (·.live) then
      ({ w with serverHandlers := w.serverHandlers.modify h fun c => { c with channelGone := true } },
        [.closeServerHandler h])
    else (w, [])
  | .clientHandler k =>
    (w, if (w.clientHandlers.get? k).any (·.live) then [.closeClientHandler k] else [])
  | .registry g => (if (w.registries.get? g).any (·.live) then w.clearRegistry g else w, [])
  | .clientTable id => (w.leaveTable id, [])

def closeClientHandler (k : Nat) (w : World) : World × List Action :=
  match w.clientHandlers.get? k with
  | none => (w, [])
  | some cell =>
    if cell.disposed then (w, [])
    else
      let w := { w with clientHandlers := w.clientHandlers.modify k fun c =>
        { c with disposed := true, gate := none, receiver := none } }
      let w :=
        match cell.gate with
        | some g => w.disposeGate g
        | none => w
      let leave : List Action :=
        match cell.receiver with
        | some v => [.releaseReceiver v]
        | none => []
      (w, .closeServerHandler cell.serverHandler :: leave ++ [.closeChannel cell.channel])

/-! ## Gates -/

def flush (g : Nat) (w : World) : World × List Action :=
  match (w.gates.get? g).bind fun c => c.core.startFlush? with
  | none => (w, [])
  | some core => (w.setGate g core, [.dispatchNext g])

def dispatchNext (g : Nat) (w : World) : World × List Action :=
  match w.gates.get? g with
  | none => (w, [])
  | some cell =>
    match cell.core.next with
    | (core, none) => (w.setGate g core, [])
    | (core, some (job, ticket)) => (w.setGate g core, [.invoke job ticket, .dispatchNext g])

def invoke (job : Job) (ticket : Nat) (w : World) : World × List Action :=
  match job with
  | .scripted gate key script nested =>
    let future : Future := .job script
    let w := w.log (.dispatched gate key)
    (w, nestedAll nested ++ [.spawn (.await future (.resolve ticket))])
  | .forward h call =>
    match w.serverHandlers.get? h with
    | none => (w.breakPromise ticket, [])
    | some cell =>
      let p := w.promises.size
      let (w, actions) := (w.promise (.error .jobSkipped)).addJob cell.gate (.post h call) p
      (w, actions ++ [.spawn (.await (.promise p) (.resolve ticket))])
  | .post h call =>
    let (w, future) :=
      if (w.serverHandlers.get? h).any (·.live) then w.postToServer h call
      else (w, .done (.outcome (.error .handlerDisposed)))
    (w, [.spawn (.await future (.resolve ticket))])

def openGate (g : Nat) (w : World) : World × List Action :=
  match w.gates.get? g with
  | none => (w, [])
  | some cell =>
    match cell.core.open? with
    | some core =>
      if cell.live then
        ({ w with gates := w.gates.modify g fun c => { c with core := core, onRejected := none } },
          [.flush g])
      else (w, [])
    | none => (w, [])

def failGate (g : Nat) (fault : Fault) (w : World) : World × List Action :=
  match w.gates.get? g with
  | none => (w, [])
  | some cell =>
    match cell.core.fail? fault with
    | some (core, tickets) =>
      if cell.live then
        let w := { w with gates := w.gates.modify g fun c => { c with core := core, onRejected := none } }
        let w := w.resolveAll tickets (.error fault)
        match cell.onRejected with
        | none => (w, [])
        | some (.scripted label script) => (w.log (.rejected label fault), nestedAll script)
        | some (.serverHandler h) =>
          (w, if (w.serverHandlers.get? h).any (·.live) then [.closeServerHandler h] else [])
      else (w, [])
    | none => (w, [])

/-! ## Loops -/

def pumpNext (p : Nat) (second : Bool) (w : World) : World × List Action :=
  match w.pairs.get? p with
  | none => (w, [])
  | some pair =>
    match pair.next? second with
    | none => (w, [])
    | some ((service, payload), rest) =>
      ({ w with pairs := w.pairs.modify p fun _ => rest },
        [.deliver (pair.channel second) service payload, .pumpNext p second])

def setWatch (p : Nat) (watch : Watch) (w : World) : World :=
  { w with pingers := w.pingers.modify p fun c => { c with watch := watch } }

def setLoop (p : Nat) (loop : PingLoop) (w : World) : World :=
  { w with pingers := w.pingers.modify p fun c => { c with loop := loop } }

def pingNext (p : Nat) (w : World) : World × List Action :=
  match w.pingers.get? p with
  | none => (w, [])
  | some cell =>
    match cell.loop with
    | .stopped => (w, [])
    | .fresh => (w, [])
    | .starting =>
      let watch := { cell.watch with nextTick := w.clock + cell.watch.interval }
      (((w.postPing p).setWatch p watch).setLoop p .running, [.pingNext p])
    | .running =>
      match cell.watch.duty w.clock with
      | .giveUp => (w.disposePinger p .timedOut, [.closeChannel cell.channel])
      | .postpone => (w.setWatch p (cell.watch.postpone w.clock), [.pingNext p])
      | .ping => ((w.postPing p).setWatch p (cell.watch.tick w.clock), [.pingNext p])
      | .rest => (w, [])

/-! ## Actions -/

def guardChannel (c : Nat) (hook : Hook) (w : World) : World × List Action :=
  let (w, _, closed) := w.addHook c hook
  (w, if closed then [.runHook hook] else [])

def track (key : String) (future : Future) (w : World) : World :=
  { w.spawn (.await future (.report key)) with futures := w.futures ++ [(key, w.tasks.size)] }

def react (action : Action) (w : World) : World × List Action :=
  match action with
  | .nested _ => (w, [])
  | .log event => (w.log event, [])
  | .deliver c service payload => w.deliver c service payload
  | .closeChannel c => w.closeChannel c
  | .closeCore c => w.closeCore c
  | .cancelStream s => (wake (.stream s) (w.modifyStream s fun t => { t with cancelled := true }), [])
  | .runHook hook => w.runHook hook
  | .closeServerHandler h =>
    let (w, hooks) := w.disposeServerHandler h
    (w, hooks.map Action.runHook)
  | .closeClientHandler k => w.closeClientHandler k
  | .releaseReceiver v => (w.releaseReceiver v, [])
  | .violation .abort scope detail _ => (w.abort scope detail, [])
  | .violation .disposeChannel _ _ c => (w, [.closeChannel c])
  | .flush g => w.flush g
  | .dispatchNext g => w.dispatchNext g
  | .invoke job ticket => w.invoke job ticket
  | .guardChannel c hook => w.guardChannel c hook
  | .track key future => (w.track key future, [])
  | .spawn task => (w.spawn task, [])
  | .pumpNext p second => w.pumpNext p second
  | .readNext s => w.readNext s
  | .frame s body => w.takeFrame s body
  | .readOn s => w.readOn s
  | .finishReader s => (w.finishReader s, [])
  | .writeNext s => w.writeNext s
  | .pingNext p => w.pingNext p
  | .bind _ _ => (w, [])

end World

end Switchboard
