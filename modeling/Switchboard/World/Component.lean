import Switchboard.Liveness.Config
import Switchboard.Message.Announcement
import Switchboard.World.Channel

/-!
# Components of a world

Making and closing the components that live on channels. Nothing here calls back into other
components: what has to be told to them is returned to the caller.
-/

namespace Switchboard

namespace World

/-! ## Requesters and receivers -/

/-- Close a requester: it leaves its channel and gives up what is outstanding. -/
def disposeRequester (r : Nat) (w : World) : World :=
  match w.requesters.get? r with
  | none => w
  | some cell =>
    match cell.core.dispose with
    | none => w
    | some (core, tickets) =>
      let w := { w with requesters := w.requesters.modify r fun c => { c with core := core, hook := none } }
      let w := w.unregister cell.channel (Service.response cell.core.name)
      let w := w.removeHook cell.channel cell.hook
      w.resolveAll tickets (.error cell.core.gaveUp)

def newRequester (name : String) (channel : Nat) (policy : Policy) (w : World) : World × Nat :=
  let r := w.requesters.size
  let cell : RequesterCell := { core := { name := name }, channel := channel, policy := policy }
  let w := { w with requesters := w.requesters.push cell }
  let w := w.register channel (Service.response name) (.responses r)
  let (w, key, closed) := w.addHook channel (.requester r)
  if closed then (w.disposeRequester r, r)
  else ({ w with requesters := w.requesters.modify r fun c => { c with hook := some key } }, r)

def post (r : Nat) (payload : Json) (w : World) : World × Future :=
  match w.requesters.get? r with
  | none => (w, .done (.outcome (.error (.requesterDisposed ""))))
  | some cell =>
    let p := w.promises.size
    match cell.core.post p with
    | none => (w, .done (.outcome (.error cell.core.gaveUp)))
    | some (core, id) =>
      let w := w.promise (.error cell.core.gaveUp)
      let w := { w with requesters := w.requesters.modify r fun c => { c with core := core } }
      match w.send cell.channel (Service.request core.name) (Request.mk id payload).toJson with
      | (w, .ok ()) => (w, .promise p)
      | (w, .error e) =>
        let (core, ticket) := core.withdraw id
        let w := { w with requesters := w.requesters.modify r fun c => { c with core := core } }
        match ticket with
        | some t => (w.resolve t (.error e), .promise p)
        | none => (w, .promise p)

def releaseRequester (r : Nat) (w : World) : World :=
  match w.requesters.get? r with
  | none => w
  | some cell =>
    let w := { w with requesters := w.requesters.modify r fun c =>
      { c with live := false, core := { c.core with pending := [] } } }
    w.breakPromises (cell.core.pending.map Prod.snd)

def newReceiver (name : String) (channel : Nat) (policy : Policy) (provider : Service.Provider)
    (w : World) : World × Nat :=
  let v := w.receivers.size
  let cell : ReceiverCell :=
    { name := name, channel := channel, policy := policy, provider := provider }
  let w := { w with receivers := w.receivers.push cell }
  (w.register channel (Service.request name) (.requests v), v)

def releaseReceiver (v : Nat) (w : World) : World :=
  match w.receivers.get? v with
  | none => w
  | some cell =>
    let w := { w with receivers := w.receivers.modify v fun c => { c with live := false } }
    if cell.live then w.unregister cell.channel (Service.request cell.name) else w

/-! ## Liveness and readiness -/

def disposePinger (p : Nat) (reason : PingerStop) (w : World) : World :=
  match w.pingers.get? p with
  | none => w
  | some cell =>
    match cell.core.dispose? reason with
    | none => w
    | some core =>
      let w := { w with pingers := w.pingers.modify p fun c =>
        { c with core := core, hook := none, onEstablished := none, loop := .stopped } }
      let w := w.unregister cell.channel Service.pong
      w.removeHook cell.channel cell.hook

def newPinger (label : String) (channel interval timeout : Nat) (onEstablished : Option (List Command))
    (w : World) : World × Nat :=
  let p := w.pingers.size
  let watch : Watch :=
    { interval := interval, timeout := timeout, deadline := w.clock + timeout,
      nextTick := w.clock + interval }
  let cell : PingerCell :=
    { label := label, channel := channel, watch := watch, onEstablished := onEstablished }
  let w := { w with pingers := w.pingers.push cell }
  let w := w.register channel Service.pong (.pongs p)
  let (w, key, closed) := w.addHook channel (.pinger p)
  let w :=
    if closed then w.disposePinger p .channelClosed
    else { w with pingers := w.pingers.modify p fun c => { c with hook := some key } }
  (w.spawn (.pingLoop p), p)

def postPing (p : Nat) (w : World) : World :=
  match w.pingers.get? p with
  | none => w
  | some cell =>
    if cell.core.isDisposed then w else w.sendQuietly cell.channel Service.ping (.obj [])

def newResponder (label : String) (channel channelId : Nat) (listener : Option (List Command))
    (w : World) : World × Nat :=
  let r := w.responders.size
  let cell : ResponderCell :=
    { label := label, channel := channel, channelId := channelId, listener := listener }
  let w := { w with responders := w.responders.push cell }
  (w.register channel Service.ping (.pings r), r)

def settleTracker (t : Nat) (state : Readiness) (w : World) : World :=
  wake (.tracker t)
    { w with trackers := w.trackers.modify t fun c => { c with state := c.state.settle state } }

def newTracker (channel : Nat) (w : World) : World × Nat :=
  let t := w.trackers.size
  let w := { w with trackers := w.trackers.push { channel := channel } }
  let w := w.register channel Service.serverReady (.readiness t)
  let (w, _, closed) := w.addHook channel (.tracker t)
  (if closed then w.settleTracker t .channelLost else w, t)

def isReady (w : World) : ReadinessSource → Bool
  | .always => true
  | .tracker t => (w.trackers.get? t).any fun c => c.state = .ready

/-! ## Gates -/

def newGate (readiness : Future) (onRejected : Option Rejection) (decider : Option Nat) (w : World) :
    World × Nat :=
  let g := w.gates.size
  let w := { w with gates := w.gates.push { onRejected := onRejected, readiness := decider } }
  (w.spawn (.await readiness (.gate g)), g)

def setGate (g : Nat) (core : Deferred Job Nat) (w : World) : World :=
  { w with gates := w.gates.modify g fun c => { c with core := core } }

def disposeGate (g : Nat) (w : World) : World :=
  match w.gates.get? g with
  | none => w
  | some cell =>
    match cell.core.dispose? with
    | none => w
    | some (core, tickets) =>
      let w := { w with gates := w.gates.modify g fun c => { c with core := core, onRejected := none } }
      w.breakPromises tickets

/-- The owner of a gate is gone, and with it the jobs before the gate, unless they are being let
through just now. -/
def releaseGate (g : Nat) (w : World) : World :=
  match w.gates.get? g with
  | none => w
  | some cell =>
    let w := { w with gates := w.gates.modify g fun c => { c with live := false } }
    let w :=
      if cell.core.flushing then w
      else (w.setGate g { cell.core with queue := [] }).breakPromises (cell.core.queue.map Prod.snd)
    match cell.readiness with
    | some p => w.breakPromise p
    | none => w

def addJob (g : Nat) (job : Job) (ticket : Nat) (w : World) : World × List Action :=
  match w.gates.get? g with
  | none => (w.breakPromise ticket, [])
  | some cell =>
    match cell.core.add job ticket with
    | (_, .refused e) => (w.resolve ticket (.error e), [])
    | (_, .skipped) => (w.breakPromise ticket, [])
    | (core, .queued) => (w.setGate g core, [])
    | (core, .flush) => (w.setGate g core, [.flush g])

/-! ## Server handlers -/

/-- Close a server handler: it takes its leave of the server if it was announced and the server can
still be reached. The hooks are left to the caller. -/
def disposeServerHandler (h : Nat) (w : World) : World × List Hook :=
  match w.serverHandlers.get? h with
  | none => (w, [])
  | some cell =>
    if cell.disposed then (w, [])
    else
      let w := { w with serverHandlers := w.serverHandlers.modify h fun c =>
        { c with disposed := true, requester := none, hooks := [], hook := none } }
      let w := w.removeHook cell.channel cell.hook
      let w := w.disposeGate cell.gate
      let w :=
        match cell.requester with
        | none => w
        | some r =>
          let w :=
            if !cell.channelGone && w.isOpen cell.channel then
              w.sendQuietly cell.channel Service.deleteHandler (Departure.mk cell.id).toJson
            else w
          (w.disposeRequester r).releaseRequester r
      (w, cell.hooks)

/-- Make a server handler on a server's channel. Handlers are numbered in the order in which they are
made. -/
def newServerHandler (channel : Nat) (readiness : ReadinessSource) (clientName : String) (w : World) :
    World × Nat :=
  let h := w.serverHandlers.size
  let (w, gate) := w.newGate (.readiness readiness) (some (.serverHandler h)) none
  let cell : ServerHandlerCell :=
    { id := h, clientName := clientName, channel := channel, gate := gate }
  let w := { w with serverHandlers := w.serverHandlers.push cell }
  let (w, key, closed) := w.addHook channel (.serverHandler h)
  if closed then
    let w := { w with serverHandlers := w.serverHandlers.modify h fun c => { c with channelGone := true } }
    ((w.disposeServerHandler h).1, h)
  else
    ({ w with serverHandlers := w.serverHandlers.modify h fun c => { c with hook := some key } }, h)

def serverRequester (h : Nat) (w : World) : World × Except Fault Nat :=
  match w.serverHandlers.get? h with
  | none => (w, .error .handlerDisposed)
  | some cell =>
    if cell.disposed then (w, .error .handlerDisposed)
    else
      match cell.requester with
      | some r => (w, .ok r)
      | none =>
        if cell.channelGone || !w.isOpen cell.channel then (w, .error .channelDisposed)
        else
          let (w, r) := w.newRequester (Service.callFunction cell.id) cell.channel .abort
          let w := { w with serverHandlers := w.serverHandlers.modify h fun c =>
            { c with requester := some r } }
          match w.send cell.channel Service.createHandler (Arrival.mk cell.id cell.clientName).toJson with
          | (w, .ok ()) => (w, .ok r)
          | (w, .error e) => (w, .error e)

def postToServer (h : Nat) (call : Call) (w : World) : World × Future :=
  match w.serverRequester h with
  | (w, .ok r) => w.post r call.toJson
  | (w, .error e) => (w, .done (.outcome (.error e)))

def releaseServerHandler (h : Nat) (w : World) : World :=
  match w.serverHandlers.get? h with
  | none => w
  | some cell =>
    let w := { w with serverHandlers := w.serverHandlers.modify h fun c =>
      { c with live := false, hooks := [] } }
    let w := w.releaseGate cell.gate
    match cell.requester with
    | some r => w.releaseRequester r
    | none => w

/-! ## Client handlers -/

def beginCheck (checker : CheckerRef) (origin : Option String) (w : World) : World × Future :=
  match checker with
  | .manual k =>
    match w.checkers.get? k with
    | none => (w, .done (.outcome (.error (.other "undecided"))))
    | some cell =>
      let p := w.promises.size
      let w := w.log (.checked cell.label origin)
      let w := w.promise (.error (.other "undecided"))
      ({ w with checkers := w.checkers.modify k fun c => { c with checks := c.checks ++ [p] } },
        .promise p)
  | .desk d =>
    match origin, w.desks.get? d with
    | some o, some cell =>
      ({ w with desks := w.desks.modify d fun c => { c with desk := c.desk.check o } },
        .check d cell.desk.checks.size)
    | _, _ => (w, .done (.outcome (.ok .null)))

/-- The gate before which a client's requests wait for permission, made with the check at the first
request. -/
def permissionGate (k : Nat) (w : World) : World × Option Nat :=
  match w.clientHandlers.get? k with
  | none => (w, none)
  | some cell =>
    if cell.disposed then (w, none)
    else
      match cell.gate with
      | some g => (w, some g)
      | none =>
        let (w, check) := w.beginCheck cell.checker cell.origin
        let (w, g) := w.newGate check none none
        ({ w with clientHandlers := w.clientHandlers.modify k fun c => { c with gate := some g } },
          some g)

def handleClientRequest (k : Nat) (payload : Json) (w : World) : World × List Action × Future :=
  match w.clientHandlers.get? k with
  | none => (w, [], .done (.outcome (.error .handlerDisposed)))
  | some cell =>
    if !cell.live then (w, [], .done (.outcome (.error .handlerDisposed)))
    else
      match Call.ofJson? payload with
      | none =>
        (w, [.closeChannel cell.channel],
          .done (.outcome (.error (.invalidPayload "the request payload is not a remote call"))))
      | some call =>
        match w.permissionGate k with
        | (w, none) => (w, [], .done (.outcome (.error .handlerDisposed)))
        | (w, some g) =>
          let p := w.promises.size
          let w := w.promise (.error .jobSkipped)
          let (w, actions) := w.addJob g (.forward cell.serverHandler call) p
          (w, actions, .promise p)

def newClientHandler (channel server : Nat) (readiness : ReadinessSource) (origin : Option String)
    (checker : CheckerRef) (w : World) : World × List Action × Nat :=
  let k := w.clientHandlers.size
  let (w, h) := w.newServerHandler server readiness (Origin.clientName origin)
  let (w, v) := w.newReceiver Service.clientRequester channel .disposeChannel (.client k)
  let cell : ClientHandlerCell :=
    { origin := origin, channel := channel, serverHandler := h, readiness := readiness,
      checker := checker, receiver := some v }
  let w := { w with clientHandlers := w.clientHandlers.push cell }
  let closed := (w.serverHandlers.get? h).any (·.disposed)
  let w :=
    if closed then w
    else { w with serverHandlers := w.serverHandlers.modify h fun c =>
      { c with hooks := c.hooks ++ [.clientHandler k] } }
  (w, (if closed then [.runHook (.clientHandler k)] else []) ++
    [.guardChannel channel (.clientHandler k)], k)

def releaseClientHandler (k : Nat) (w : World) : World :=
  match w.clientHandlers.get? k with
  | none => w
  | some cell =>
    let w := { w with clientHandlers := w.clientHandlers.modify k fun c => { c with live := false } }
    let w := w.releaseServerHandler cell.serverHandler
    let w :=
      match cell.gate with
      | some g => w.releaseGate g
      | none => w
    match cell.receiver with
    | some v => w.releaseReceiver v
    | none => w

/-! ## The registry -/

def newRegistry (channel backend : Nat) (w : World) : World × Nat :=
  let g := w.registries.size
  let w := { w with registries := w.registries.push { channel := channel, backend := backend } }
  let w := w.register channel Service.createHandler (.arrivals g)
  let w := w.register channel Service.deleteHandler (.departures g)
  let (w, _, _) := w.addHook channel (.registry g)
  (w, g)

def registryScope : String := "ClientHandlerRegistry"

def arrive (g : Nat) (payload : Json) (w : World) : World :=
  match w.registries.get? g with
  | none => w
  | some cell =>
    match Arrival.ofJson? payload with
    | none => w.abort registryScope s!"failed to parse the create message: {payload.render}"
    | some m =>
      if Assoc.has m.handler cell.entries then
        w.abort registryScope s!"client handler {m.handler} was created twice"
      else
        let (w, v) := w.newReceiver (Service.callFunction m.handler) cell.channel .abort
          (.backend cell.backend m.handler)
        let w := { w with registries := w.registries.modify g fun c =>
          { c with entries := c.entries ++ [(m.handler, v)] } }
        w.spawn (.backendCreated cell.backend m.handler m.clientName)

def depart (g : Nat) (payload : Json) (w : World) : World :=
  match w.registries.get? g with
  | none => w
  | some cell =>
    match Departure.ofJson? payload with
    | none => w.abort registryScope s!"failed to parse the delete message: {payload.render}"
    | some m =>
      match cell.entries.lookup m.handler with
      | none => w.abort registryScope s!"deleting unknown client handler {m.handler}"
      | some v =>
        let w := { w with registries := w.registries.modify g fun c =>
          { c with entries := Assoc.erase m.handler c.entries } }
        (w.releaseReceiver v).spawn (.backendDeleted cell.backend m.handler)

def clearRegistry (g : Nat) (w : World) : World :=
  match w.registries.get? g with
  | none => w
  | some cell =>
    let w := { w with registries := w.registries.modify g fun c => { c with entries := [] } }
    cell.entries.foldl (fun acc e => acc.releaseReceiver e.2) w

end World

end Switchboard
