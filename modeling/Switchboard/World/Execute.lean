import Switchboard.World.Perform

/-!
# Carrying out commands

`execute` does what a command says as far as that can be done at once, and returns what is to be done
next and the reply. A command that names an object which is not there, or which is of the wrong kind,
has nothing to act on.
-/

namespace Switchboard

attribute [local instance (high)] instPowNat

namespace World

/-! ## Names -/

def release (ref : Ref) (w : World) : World :=
  match ref with
  | .raw r => w.rawDrop r
  | .requester r => w.releaseRequester r
  | .receiver v => w.releaseReceiver v
  | .pinger p =>
    let w := w.disposePinger p .explicit
    { w with pingers := w.pingers.modify p fun c => { c with live := false } }
  | .responder r => { w with responders := w.responders.modify r fun c => { c with live := false } }
  | .tracker t =>
    wake (.tracker t) { w with trackers := w.trackers.modify t fun c => { c with live := false } }
  | .gate g => w.releaseGate g
  | .serverHandler h => w.releaseServerHandler h
  | .clientHandler k => w.releaseClientHandler k
  | .registry g =>
    let w := { w with registries := w.registries.modify g fun c => { c with live := false } }
    w.clearRegistry g
  | _ => w

def bind (key : String) (ref : Ref) (w : World) : World :=
  let old := w.names.lookup key
  let w := { w with names := Assoc.set key ref w.names }
  match old with
  | some o => w.release o
  | none => w

def channel? (w : World) (name : String) : Option Nat :=
  match w.names.lookup name with
  | some (.channel c) => some c
  | _ => none

def recorder? (w : World) (name : String) : Option Nat :=
  (w.channel? name).filter fun c =>
    match (w.channels.get? c).map Channel.transport with
    | some (.recorder _) => true
    | _ => false

def raw? (w : World) (name : String) : Option Nat :=
  match w.names.lookup name with
  | some (.raw r) => some r
  | _ => none

def gate? (w : World) (name : String) : Option Nat :=
  match w.names.lookup name with
  | some (.gate g) => some g
  | _ => none

def backend? (w : World) (name : String) : Option Nat :=
  match w.names.lookup name with
  | some (.backend b) => some b
  | _ => none

def desk? (w : World) (name : String) : Option Nat :=
  match w.names.lookup name with
  | some (.desk d) => some d
  | _ => none

def serverHandler? (w : World) (name : String) : Option Nat :=
  match w.names.lookup name with
  | some (.serverHandler h) => some h
  | _ => none

def cache? (w : World) (name : String) : Option Nat :=
  match w.names.lookup name with
  | some (.cache c) => some c
  | _ => none

def readinessOf (w : World) (name : String) : ReadinessSource :=
  match w.names.lookup name with
  | some (.tracker t) => .tracker t
  | some (.signal s) => s
  | _ => .always

def checker? (w : World) (name : String) : Option CheckerRef :=
  match w.names.lookup name with
  | some (.checker k) => some (.manual k)
  | some (.desk d) => some (.desk d)
  | _ => none

def list? (w : World) (name : String) : Option ListRef :=
  match w.names.lookup name with
  | some (.list l) => some (.own l)
  | some (.desk d) => some (.desk d)
  | _ => none

/-! ## Lists and desks -/

def listAt (w : World) : ListRef → AllowList
  | .own l => ((w.lists.get? l).map ListCell.list).getD .unavailable
  | .desk d => ((w.desks.get? d).map fun c => c.desk.list).getD .unavailable

def setList (ref : ListRef) (list : AllowList) (w : World) : World :=
  match ref with
  | .own l => wake (.list l) { w with lists := w.lists.modify l fun c => { c with list := list } }
  | .desk d =>
    wake (.desk d)
      { w with desks := w.desks.modify d fun c => { c with desk := { c.desk with list := list } } }

def setDesk (d : Nat) (desk : Desk) (w : World) : World :=
  { w with desks := w.desks.modify d fun c => { c with desk := desk } }

def load (ref : ListRef) (f : AllowList → AllowList × Except Fault Unit) (w : World) :
    World × List Action × Reply :=
  let (list, outcome) := f (w.listAt ref)
  (w.setList ref list, [], .outcome (outcome.map fun _ => .null))

/-! ## Commands by kind -/

def done (w : World) : World × List Action × Reply := (w, [], .none)

def idle (w : World) : World × List Action × Reply := (w, [], .nothing)

def unitReply (outcome : Except Fault Unit) : Reply := .outcome (outcome.map fun _ => .null)

def disposeNamed (ref : Ref) (w : World) : World × List Action × Reply :=
  match ref with
  | .channel c =>
    match w.channels.get? c with
    | some { transport := .recorder _, core := core, .. } =>
      (w, [.closeChannel c], .bool (!core.disposed))
    | _ => (w, [.closeChannel c], .none)
  | .requester r => (w.disposeRequester r).done
  | .pinger p => (w.disposePinger p .explicit).done
  | .responder r =>
    done { w with responders := w.responders.modify r fun c => { c with disposed := true } }
  | .gate g => (w.disposeGate g).done
  | .serverHandler h => (w, [.closeServerHandler h], .none)
  | .clientHandler k => (w, [.closeClientHandler k], .none)
  | .token t =>
    let first := w.tokens.get? t == some false
    (wake (.token t) { w with tokens := w.tokens.modify t fun _ => true }, [], .bool first)
  | _ => w.idle

def addObserver (on name : String) (script : List Command) (w : World) :
    World × List Action × Reply :=
  let hook : Hook := .observer on name script
  match w.names.lookup on with
  | some (.channel c) =>
    let (w, key, closed) := w.addHook c hook
    ({ w with hookNames := Assoc.set name (c, key) w.hookNames },
      if closed then [.runHook hook] else [], .none)
  | some (.serverHandler h) =>
    if (w.serverHandlers.get? h).any (·.disposed) then (w, [.runHook hook], .none)
    else
      done { w with serverHandlers := w.serverHandlers.modify h fun c =>
        { c with hooks := c.hooks ++ [hook] } }
  | _ => w.idle

def forgetKey (key : String) (w : World) : World :=
  let (mine, others) := w.futures.partition fun f => f.1 == key
  let tasks := mine.foldl (fun ts f => ts.modify f.2 fun _ => Task.finished) w.tasks
  { w with tasks := tasks, futures := others }

def finishToken (token : String) (outcome : Outcome) (w : World) : World × List Action × Reply :=
  let (mine, others) := w.waiting.partition fun f => f.1 == token
  if mine.isEmpty then w.idle
  else ((({ w with waiting := others }).resolveAll (mine.map Prod.snd) outcome)).done

/-- The identifier of the next responder. All are different and fit into 32 bits. -/
def freshChannelId (w : World) : Nat := 2 ^ (31 : Nat) + w.responders.size

def waitFor (key on : String) (origin : Option String) (w : World) : World × List Action × Reply :=
  let future : Option Future :=
    match w.names.lookup on with
    | some (.tracker t) => some (.readiness (.tracker t))
    | some (.signal s) => some (.readiness s)
    | some (.token t) => some (.cancelled t)
    | some (.list l) =>
      match origin with
      | some o => some (.listAllows l o)
      | none => some (.listLoaded l)
    | _ => none
  match future with
  | some f => (w, [.track key f], .none)
  | none => w.idle

def decideGate (on : String) (outcome : Option (Except Fault Unit)) (w : World) :
    World × List Action × Reply :=
  match (w.gate? on).bind w.gates.get? with
  | some { readiness := some p, .. } =>
    match w.promises.get? p with
    | some { outcome := none, .. } =>
      match outcome with
      | some o => (w.resolve p (o.map fun _ => .null)).done
      | none => (w.breakPromise p).done
    | _ => w.idle
  | _ => w.idle

def decideCheck (on : String) (check : Nat) (outcome : Except Fault Unit) (w : World) :
    World × List Action × Reply :=
  match w.checker? on with
  | some (.manual k) =>
    match (w.checkers.get? k).bind fun c => c.checks[check]? with
    | some p =>
      match w.promises.get? p with
      | some { outcome := none, .. } => (w.resolve p (outcome.map fun _ => .null)).done
      | _ => w.idle
    | none => w.idle
  | _ => w.idle

def startCached (key on origin : String) (job : Script) (w : World) : World × List Action × Reply :=
  match w.cache? on with
  | none => w.idle
  | some c =>
    match w.caches.get? c with
    | none => w.idle
    | some cell =>
      match cell.memo.lookup origin with
      | some i => (w, [.track key (.shared i)], .none)
      | none =>
        let i := w.shares.size
        let w := w.log (.started cell.label origin)
        let w := { w with
          shares := w.shares.push { future := .job job }
          caches := w.caches.modify c fun k => { k with memo := Assoc.set origin i k.memo } }
        (w, [.track key (.shared i)], .none)

def forgetCached (on origin : String) (w : World) : World × List Action × Reply :=
  match w.names.lookup on with
  | some (.cache c) =>
    let known := (w.caches.get? c).any fun k => Assoc.has origin k.memo
    ({ w with caches := w.caches.modify c fun k => { k with memo := Assoc.erase origin k.memo } }, [],
      .bool known)
  | some (.desk d) =>
    match w.desks.get? d with
    | some cell =>
      let (desk, known) := cell.desk.forget origin
      (w.setDesk d desk, [], .bool known)
    | none => w.idle
  | _ => w.idle

/-! ## All commands -/

def executeChannel (command : Command) (w : World) : World × List Action × Reply :=
  match command with
  | .record key =>
    let c := w.channels.size
    let cell : Channel := { label := key, transport := .recorder none }
    (({ w with channels := w.channels.push cell }).bind key (.channel c)).done
  | .failSend on fault =>
    match w.recorder? on with
    | some c =>
      done { w with channels := w.channels.modify c fun ch => { ch with transport := .recorder fault } }
    | none => w.idle
  | .pair first second _ =>
    let (w, a, b) := w.newPair first second
    ((w.bind first (.channel a)).bind second (.channel b)).done
  | .streamPair first second policies buffer =>
    let (w, a, b) := w.newPipes buffer
    let (w, c) := w.newStream first policies.1 a b
    let (w, d) := w.newStream second policies.2 b a
    ((w.bind first (.channel c)).bind second (.channel d)).done
  | .rawStream key peer policy buffer reads =>
    let (w, a, b) := w.newPipes buffer
    let (w, c) := w.newStream key policy a b
    let r := w.raws.size
    let cell : RawEnd := { label := peer, incoming := b, outgoing := a, reads := reads }
    let w := { w with raws := w.raws.push cell }
    let w := (w.spawn (.rawRead r)).spawn (.rawWrite r)
    ((w.bind key (.channel c)).bind peer (.raw r)).done
  | .rawWrite on bytes =>
    match w.raw? on with
    | some r =>
      -- After the end nothing is written any more.
      (wake (.raw r) (w.modifyRaw r fun c =>
        if c.shutdown then c else { c with toWrite := c.toWrite ++ bytes })).done
    | none => w.idle
  | .rawShutdown on =>
    match w.raw? on with
    | some r => (wake (.raw r) (w.modifyRaw r fun c => { c with shutdown := true })).done
    | none => w.idle
  | .rawDrop on =>
    match w.raw? on with
    | some r => (({ w with names := Assoc.erase on w.names }).rawDrop r, [], .bool true)
    | none => w.idle
  | .send on service payload =>
    match w.channel? on with
    | some c =>
      let (w, outcome) := w.send c service payload
      (w, [], unitReply outcome)
    | none => w.idle
  | .sendBig on service size =>
    match w.channel? on with
    | some c =>
      let (w, outcome) := w.send c service (.str (String.ofList (List.replicate size 'x')))
      (w, [], unitReply outcome)
    | none => w.idle
  | .receive on service payload =>
    match w.recorder? on with
    | some c => (w, [.deliver c service payload], .none)
    | none => w.idle
  | .register on service name script =>
    match w.channel? on with
    | some c => (w.register c service (.observer on name script)).done
    | none => w.idle
  | .unregister on service =>
    match w.channel? on with
    | some c => (w.unregister c service).done
    | none => w.idle
  | .addHook on name script => w.addObserver on name script
  | .removeHook name =>
    match w.hookNames.lookup name with
    | some (c, key) => (w.removeHook c (some key)).done
    | none => w.done
  | .dispose on =>
    match w.names.lookup on with
    | some ref => w.disposeNamed ref
    | none => w.idle
  | .drop on =>
    match w.names.lookup on with
    | some ref => (({ w with names := Assoc.erase on w.names }).release ref, [], .bool true)
    | none => (w, [], .bool false)
  | .forget key => (w.forgetKey key).done
  | _ => w.done

def executeComponent (command : Command) (w : World) : World × List Action × Reply :=
  match command with
  | .requester key on name policy =>
    match w.channel? on with
    | some c =>
      let (w, r) := w.newRequester name c policy
      (w.bind key (.requester r)).done
    | none => w.idle
  | .post key on payload =>
    match w.names.lookup on with
    | some (.requester r) =>
      let (w, future) := w.post r payload
      (w, [.track key future], .none)
    | _ => w.idle
  | .receiver key on name policy =>
    match w.channel? on with
    | some c =>
      let (w, v) := w.newReceiver name c policy (.scripted key)
      (w.bind key (.receiver v)).done
    | none => w.idle
  | .finish token outcome => w.finishToken token outcome
  | .pinger key on interval timeout silent script =>
    match w.channel? on with
    | some c =>
      match LivenessConfig.make (.ofMillis interval) (.ofMillis timeout) with
      | .error e => (w, [], .fault e)
      | .ok _ =>
        let (w, p) := w.newPinger key c interval timeout (if silent then none else some script)
        (w.bind key (.pinger p)).done
    | none => w.idle
  | .postPing on =>
    match w.names.lookup on with
    | some (.pinger p) => (w.postPing p).done
    | _ => w.idle
  | .responder key on listens script =>
    match w.channel? on with
    | some c =>
      let id := w.freshChannelId
      let (w, r) := w.newResponder key c id (if listens then some script else none)
      (w.bind key (.responder r), [], .fitsWord (id < 2 ^ (32 : Nat)))
    | none => w.idle
  | .tracker key on =>
    match w.channel? on with
    | some c =>
      let (w, t) := w.newTracker c
      (w.bind key (.tracker t)).done
    | none => w.idle
  | .signal key on =>
    match w.names.lookup on with
    | some (.tracker t) => (w.bind key (.signal (.tracker t))).done
    | _ => (w.bind key (.signal .always)).done
  | .announce on =>
    match w.channel? on with
    | some c =>
      let (w, outcome) := w.send c Service.serverReady (.obj [])
      (w, [], unitReply outcome)
    | none => w.idle
  | .wait key on origin => w.waitFor key on origin
  | .deferred key readiness silent script =>
    let onRejected : Option Rejection := if silent then none else some (.scripted key script)
    match readiness with
    | some outcome =>
      let (w, g) := w.newGate (.done (.outcome (outcome.map fun _ => .null))) onRejected none
      (w.bind key (.gate g)).done
    | none =>
      let p := w.promises.size
      let (w, g) := (w.promise (.error (.other "abandoned"))).newGate (.promise p) onRejected (some p)
      (w.bind key (.gate g)).done
  | .ready on outcome => w.decideGate on (some outcome)
  | .abandon on => w.decideGate on none
  | .addJob key on job script =>
    match w.gate? on with
    | some g =>
      let p := w.promises.size
      let (w, actions) := (w.promise (.error .jobSkipped)).addJob g (.scripted on key job script) p
      (w, actions ++ [.track key (.promise p)], .none)
    | none => w.idle
  | _ => w.done

def executeClient (command : Command) (w : World) : World × List Action × Reply :=
  match command with
  | .serverHandler key server readiness name =>
    match w.channel? server with
    | some c =>
      let (w, h) := w.newServerHandler c (w.readinessOf readiness) name
      (w.bind key (.serverHandler h)).done
    | none => w.idle
  | .clientHandler key on server readiness origin checker =>
    match w.channel? on, w.channel? server, w.checker? checker with
    | some c, some s, some k =>
      let (w, actions, h) := w.newClientHandler c s (w.readinessOf readiness) origin k
      (w, actions ++ [.bind key (.clientHandler h)], .none)
    | _, _, _ => w.idle
  | .handle key on call =>
    match (w.serverHandler? on).bind fun h => (w.serverHandlers.get? h).map fun c => (h, c.gate) with
    | some (h, g) =>
      let p := w.promises.size
      let (w, actions) := (w.promise (.error .jobSkipped)).addJob g (.post h call) p
      (w, actions ++ [.track key (.promise p)], .none)
    | none => w.idle
  | .backend key =>
    let b := w.backends.size
    (({ w with backends := w.backends.push {} }).bind key (.backend b)).done
  | .backendCall on _ call =>
    match (w.backend? on).bind w.backends.get? with
    | some b => (w, [], .outcome (b.dispatch call))
    | none => w.idle
  | .backendCreated on handler name =>
    match w.backend? on with
    | some b => done { w with backends := w.backends.modify b fun c => c.created handler name }
    | none => w.idle
  | .backendDeleted on handler =>
    match w.backend? on with
    | some b => done { w with backends := w.backends.modify b fun c => c.deleted handler }
    | none => w.idle
  | .registry key on backend =>
    match w.channel? on, w.backend? backend with
    | some c, some b =>
      let (w, g) := w.newRegistry c b
      (w.bind key (.registry g)).done
    | _, _ => w.idle
  | _ => w.done

def executePermission (command : Command) (w : World) : World × List Action × Reply :=
  match command with
  | .manualChecker key =>
    let k := w.checkers.size
    (({ w with checkers := w.checkers.push { label := key } }).bind key (.checker k)).done
  | .decide on check outcome => w.decideCheck on check outcome
  | .stack key desk =>
    match desk with
    | .error e => (w, [], .fault e)
    | .ok desk =>
      let d := w.desks.size
      (({ w with desks := w.desks.push { label := key, desk := desk } }).bind key (.desk d)).done
  | .answer on origin answer =>
    match (w.desk? on).bind fun d => (w.desks.get? d).bind fun c =>
        (c.desk.answer? origin answer).map fun desk => (d, desk) with
    | some (d, desk) => (wake (.desk d) (w.setDesk d desk)).done
    | none => w.idle
  | .check key on origin =>
    match w.checker? on with
    | some checker =>
      let (w, future) := w.beginCheck checker origin
      (w, [.track key future], .none)
    | none => w.idle
  | .userCheck key on origin =>
    match (w.desk? on).bind fun d => (w.desks.get? d).map fun c => (d, c.desk) with
    | some (d, desk) =>
      (w.setDesk d (desk.inquire origin), [.track key (.inquiry d desk.inquiries.size)], .none)
    | none => w.idle
  | .cancelPrompt key on origin =>
    match (w.desk? on).bind fun d => (w.desks.get? d).map fun c => (d, c.desk) with
    | some (d, desk) =>
      let (desk, shown) := desk.withdrawPrompt origin
      (w.setDesk d desk, [.track key (if shown then .closePrompt d origin else .done .plain)], .none)
    | none => w.idle
  | .isPending on origin =>
    match (w.desk? on).bind w.desks.get? with
    | some cell => (w, [], .bool (cell.desk.pending.contains origin))
    | none => w.idle
  | .managed key list =>
    let l := w.lists.size
    (({ w with lists := w.lists.push { list := list } }).bind key (.list l)).done
  | .allow on origins =>
    match w.list? on with
    | some l => (w.setList l (AllowList.ofIdentifiers origins)).done
    | none => w.idle
  | .loadJson on value =>
    match w.list? on with
    | some l => w.load l fun list => list.loadJson value
    | none => w.idle
  | .loadFile on content =>
    match w.list? on with
    | some l => w.load l fun list => list.loadFile content
    | none => w.idle
  | .unavailable on =>
    match w.list? on with
    | some l => (w.setList l (w.listAt l).markUnavailable).done
    | none => w.idle
  | .contains on origin =>
    match w.list? on with
    | some l => (w, [], .bool ((w.listAt l).contains origin))
    | none => w.idle
  | .cache key =>
    let c := w.caches.size
    (({ w with caches := w.caches.push { label := key } }).bind key (.cache c)).done
  | .cacheStart key on origin job => w.startCached key on origin job
  | .cacheForget on origin => w.forgetCached on origin
  | .token key on =>
    match w.names.lookup on with
    | some (.token t) => (w.bind key (.token t)).done
    | _ =>
      let t := w.tokens.size
      (({ w with tokens := w.tokens.push false }).bind key (.token t)).done
  | _ => w.done

def execute (command : Command) (w : World) : World × List Action × Reply :=
  match command with
  | .requester .. | .post .. | .receiver .. | .finish .. | .pinger .. | .postPing .. | .responder ..
  | .tracker .. | .signal .. | .announce .. | .wait .. | .deferred .. | .ready .. | .abandon ..
  | .addJob .. => w.executeComponent command
  | .serverHandler .. | .clientHandler .. | .handle .. | .backend .. | .backendCall ..
  | .backendCreated .. | .backendDeleted .. | .registry .. => w.executeClient command
  | .manualChecker .. | .decide .. | .stack .. | .answer .. | .check .. | .userCheck ..
  | .cancelPrompt .. | .isPending .. | .managed .. | .allow .. | .loadJson .. | .loadFile ..
  | .unavailable .. | .contains .. | .cache .. | .cacheStart .. | .cacheForget ..
  | .token .. => w.executePermission command
  | _ => w.executeChannel command

def replyEvents (name : String) : Reply → List Action
  | .none => []
  | reply => [.log (.nested name reply)]

def perform (action : Action) (w : World) : World × List Action :=
  match action with
  | .nested command =>
    let (w, actions, reply) := w.execute command
    (w, actions ++ replyEvents command.name reply)
  | .bind key ref => (w.bind key ref, [])
  | action => w.react action

end World

end Switchboard
