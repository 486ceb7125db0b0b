import Switchboard.Proofs.Grants
import Switchboard.Proofs.Moves

/-!
# What a move changes

Carrying out an action, letting a task go on and calling a function of an owner each change a world in
one of a few ways. `Happening` lists them, with the world afterwards and what is then to be done at
once; everything that holds of all runs is shown by going through this list. Most of what happens is
calm: it leaves alone the messages on their way, the gates, the handlers, the requests and the tasks.
-/

namespace Switchboard

open World

open Exchange

open Service (callFunction clientRequester createHandler deleteHandler)

/-- Why a world changes. -/
inductive Cause where
  | action (action : Action)
  | task (task : Nat)
  | owner (move : Move)

namespace Action

def isChore : Action → Bool
  | .closeChannel _ => true
  | .closeCore _ => true
  | .runHook _ => true
  | .closeServerHandler _ => true
  | .closeClientHandler _ => true
  | .releaseReceiver _ => true
  | .guardChannel _ _ => true
  | _ => false

def isErrand : Action → Bool
  | .violation _ _ _ _ => true
  | a => a.isChore

def reaches : Action → Bool
  | .closeChannel c => c < 2
  | .closeCore c => c < 2
  | .violation .disposeChannel _ _ c => c < 2
  | _ => false

theorem isErrand_of_isChore {a : Action} (h : a.isChore = true) : a.isErrand = true := by
  cases a <;> first | rfl | exact h

end Action

namespace Cause

def consumed : Cause → List Action
  | .action a => [a]
  | _ => []

theorem eq_of_mem_consumed {κ : Cause} {a : Action} (h : a ∈ κ.consumed) : κ = .action a := by
  cases κ with
  | action => rw [List.mem_singleton.mp h]
  | task | owner => cases h

/-- The call that a client handler is asked for, with the number of the request. -/
def arrival? (w : World) (k : Nat) : Cause → Option (Nat × Call)
  | .action (.deliver c service payload) => w.arrival? k c service payload
  | _ => none

def isTrifling : Cause → Bool
  | .action a => a.isErrand
  | _ => true

def reaches : Cause → Bool
  | .action a => a.reaches
  | .owner (.close c) => c < 2
  | _ => false

/-- All that is to be done is chores, and none concerns the server channel unless the cause does. -/
def Chores (κ : Cause) (more : List Action) : Prop :=
  ∀ a ∈ more, a.isChore = true ∧ (a.reaches = true → κ.reaches = true)

variable {κ : Cause} {more : List Action}

theorem Chores.nil (κ : Cause) : κ.Chores [] := fun _ h => absurd h List.not_mem_nil

theorem Chores.single {a : Action} (h : a.isChore = true) (hr : a.reaches = true → κ.reaches = true) :
    κ.Chores [a] := fun _ hb => List.mem_singleton.mp hb ▸ ⟨h, hr⟩

theorem Chores.cons {a : Action} (h : a.isChore = true) (hr : a.reaches = true → κ.reaches = true)
    (hm : κ.Chores more) : κ.Chores (a :: more) := fun b hb =>
  (List.mem_cons.mp hb).elim (fun e => e ▸ ⟨h, hr⟩) (hm b)

theorem Chores.errands (h : κ.Chores more) : more.all Action.isErrand = true :=
  List.all_eq_true.mpr fun a ha => a.isErrand_of_isChore (h a ha).1

end Cause

def ServerHandlerCell.stage (c : ServerHandlerCell) : Bool × Option Nat := (c.disposed, c.requester)

namespace World

/-- Some requesters may have been closed; those on the server channel only if it is closed. -/
def Thinned (w w' : World) : Prop :=
  w'.requesters.size = w.requesters.size ∧
    ∀ r cell, w.requesters.get? r = some cell → ∃ cell', w'.requesters.get? r = some cell' ∧
      cell'.core.nextId = cell.core.nextId ∧ cell'.channel = cell.channel ∧
      (cell' = cell ∨ cell'.core.disposed = true ∧ (cell.channel = near → w.isOpen near = false))

theorem Thinned.refl (w : World) : Thinned w w := ⟨rfl, fun _ cell h => ⟨cell, h, rfl, rfl, .inl rfl⟩⟩

/-- At every desk there are as many checks as before. -/
def SameChecks (ds ds' : Table DeskCell) : Prop :=
  ∀ d cell, ds.get? d = some cell →
    ∃ cell', ds'.get? d = some cell' ∧ cell'.desk.checks.size = cell.desk.checks.size

theorem SameChecks.refl (ds : Table DeskCell) : SameChecks ds ds := fun _ cell h => ⟨cell, h, rfl⟩

theorem SameChecks.modify {ds : Table DeskCell} {d : Nat} {f : DeskCell → DeskCell}
    (h : ∀ cell, ds.get? d = some cell → (f cell).desk.checks.size = cell.desk.checks.size) :
    SameChecks ds (ds.modify d f) := by
  intro _ cell hcell
  rw [Table.get?_modify, hcell]
  split
  · next eq =>
    subst eq
    exact ⟨_, rfl, h cell hcell⟩
  · exact ⟨cell, rfl, rfl⟩

/-- Nothing has changed but what is watched for, which promises are kept, and what is closed. -/
structure Calm (w w' : World) : Prop where
  outgoing : ∀ c, w'.outgoing c = w.outgoing c
  shape : SameShape w.channels w'.channels
  gates : w'.gates = w.gates
  handlers : ∀ h, (w'.serverHandlers.get? h).map ServerHandlerCell.stage =
    (w.serverHandlers.get? h).map ServerHandlerCell.stage
  requesters : Thinned w w'
  clients : w'.clientHandlers = w.clientHandlers
  tasks : w'.tasks = w.tasks
  promises : MoreKept w.promises w'.promises
  checkers : ∀ {j cell}, w.checkers.get? j = some cell → w'.checkers.get? j = some cell
  desks : SameChecks w.desks w'.desks

theorem Calm.refl (w : World) : Calm w w where
  outgoing _ := rfl
  shape := .refl _
  gates := rfl
  handlers _ := rfl
  requesters := .refl w
  clients := rfl
  tasks := rfl
  promises := .refl _
  checkers := id
  desks := .refl _

theorem Calm.of_disposeRequester {w : World} {r : Nat}
    (hr : ∀ cell, w.requesters.get? r = some cell → cell.channel = near → w.isOpen near = false) :
    Calm w (w.disposeRequester r) := by
  obtain ⟨_, _, kept, heq⟩ := disposeRequester_eq r w
  rw [heq]
  refine { Calm.refl w with
    shape := .left _ _ _, promises := kept, requesters := ?_, outgoing := fun _ => rfl }
  refine ⟨Table.size_modify .., fun _ cell hcell => ?_⟩
  rw [Table.get?_modify, hcell]
  split
  · next hi =>
    subst hi
    refine ⟨_, rfl, ?_⟩
    unfold shutRequester
    split
    · exact ⟨rfl, rfl, .inl rfl⟩
    · exact ⟨rfl, rfl, .inr ⟨rfl, hr cell hcell⟩⟩
  · exact ⟨cell, rfl, rfl, rfl, .inl rfl⟩

/-- No channel, requester or receiver has changed, and of the server handlers only whether their channel
is gone. -/
structure Unmoved (w w' : World) : Prop where
  channels : w'.channels = w.channels
  requesters : w'.requesters = w.requesters
  receivers : w'.receivers = w.receivers
  handlers : ∀ h, (w'.serverHandlers.get? h).map (fun c => { c with channelGone := false }) =
    (w.serverHandlers.get? h).map fun c => { c with channelGone := false }

theorem Unmoved.refl (w : World) : Unmoved w w := ⟨rfl, rfl, rfl, fun _ => rfl⟩

def registered (service : String) (handler : Handler) (ch : Channel) : Channel :=
  { ch with core := ch.core.register service handler }

theorem SameShape.registered (chs : Table Channel) (c : Nat) (service : String) (handler : Handler) :
    SameShape chs (chs.modify c (registered service handler)) :=
  .modify _ _ (fun ch => ch.core.disposed_register service handler) fun _ => rfl

/-- What a calm change does to services and hooks: an observer or a hook is added, or a requester or
some receivers leave their channels. -/
def Rewired (w : World) : Cause → World → Prop
  | .action (.guardChannel c hook), w' => w' = { w with channels := w.channels.modify c (hooked hook) }
  | .action (.runHook (.requester r)), w' => w' = w ∨ w' = w.disposeRequester r
  | .action (.runHook (.registry g)), w' => w' = w ∨ w' = w.clearRegistry g
  | .action (.releaseReceiver v), w' => w' = w.releaseReceiver v
  | .owner (.closeRequester r), w' => w' = w ∨ w.isClients r = true ∧ w' = w.disposeRequester r
  | .owner (.observe service label), w' => w' = w ∨ w' = { w with
      channels := w.channels.modify near (registered service.name (.observer "near" label [])) }
  | .owner (.watch label), w' => w' = w ∨ w' = { w with
      channels := w.channels.modify near (hooked (.observer "near" label [])) }
  | _, w' => Unmoved w w'

theorem Rewired.refl {w : World} {κ : Cause} (h : ∀ c hook, κ ≠ .action (.guardChannel c hook))
    (hv : ∀ v, κ ≠ .action (.releaseReceiver v)) : Rewired w κ w := by
  unfold Rewired
  split
  · next c hook => exact absurd rfl (h c hook)
  · exact .inl rfl
  · exact .inl rfl
  · next v => exact absurd rfl (hv v)
  · exact .inl rfl
  · exact .inl rfl
  · exact .inl rfl
  · exact .refl w

/-- What is to be done at once after a calm change. What was to be closed is closed already, or is closed
next; and a task that waits for something does not go on without a trace. -/
def Closing (w : World) : Cause → List Action → Prop
  | .action (.closeChannel c), more => more =
    if (w.channels.get? c).isSome then [.closeCore (2 * (c / 2)), .closeCore (2 * (c / 2) + 1)] else []
  | .action (.closeCore c), more => w.isOpen c = false ∧ more = []
  | .action (.closeClientHandler k), more =>
    (∀ cell, w.clientHandlers.get? k = some cell → cell.disposed = true) ∧ more = []
  | .action (.closeServerHandler h), more =>
    (∀ cell, w.serverHandlers.get? h = some cell → cell.disposed = true) ∧ more = []
  | .action (.runHook (.serverHandler h)), more =>
    more = if (w.serverHandlers.get? h).any (·.live) then [.closeServerHandler h] else []
  | .action (.runHook (.clientHandler k)), more =>
    more = if (w.clientHandlers.get? k).any (·.live) then [.closeClientHandler k] else []
  | .action (.violation _ _ _ c), more => more = [.closeChannel c]
  | .action (.guardChannel c hook), more =>
    more = if (w.channels.get? c).any (·.core.disposed) then [.runHook hook] else []
  | .action _, more => more = []
  | .task t, _ => ∀ f κ, w.tasks.get? t ≠ some (.await f κ)
  | .owner _, _ => True

def joinGate (job : Job) (ticket : Nat) (c : GateCell) : GateCell :=
  match c.core.phase with
  | .waiting => { c with core := c.core.queued job ticket }
  | .ready => { c with core := c.core.queued job ticket }
  | _ => c

def joining (w : World) (g : Nat) (job : Job) (ps : Table Promise) (q : List Nat) : World :=
  { w with gates := w.gates.modify g (joinGate job w.promises.size), promises := ps, queue := q }

def flushes (g : Nat) (cell : GateCell) : List Action :=
  if cell.core.phase = .ready then [.flush g] else []

/-- A job comes before a gate, with a promise of its own. -/
structure Joined (w : World) (g : Nat) (cell : GateCell) (ps : Table Promise) : Prop where
  gate : w.gates.get? g = some cell
  kept : MoreKept (w.promises.push { fallback := .error .jobSkipped }) ps
  failed : ∀ e, cell.core.phase = .failed e →
    ∃ c, ps.get? w.promises.size = some c ∧ c.outcome.isSome = true

theorem Joined.of_addJob {w : World} {g : Nat} {cell : GateCell} (hcell : w.gates.get? g = some cell)
    (job : Job) :
    ∃ ps q, Joined w g cell ps ∧ (w.promise (.error .jobSkipped)).addJob g job w.promises.size =
      (w.joining g job ps q, flushes g cell) := by
  have eq := addJob_eq (w := w.promise (.error .jobSkipped)) hcell job w.promises.size
  have still : ∀ p : GatePhase, cell.core.phase = p → p ≠ .waiting → p ≠ .ready →
      w.gates.modify g (joinGate job w.promises.size) = w.gates := by
    grind [Table.modify_eq_self, joinGate]
  have queued : ∀ p : GatePhase, cell.core.phase = p → p = .waiting ∨ p = .ready →
      (w.gates.modify g fun c => { c with core := cell.core.queued job w.promises.size }) =
        w.gates.modify g (joinGate job w.promises.size) := by
    grind [Table.modify_congr, joinGate]
  have unfailed : ∀ {p : GatePhase} {ps : Table Promise}, cell.core.phase = p → (∀ e, p ≠ .failed e) →
      ∀ e, cell.core.phase = .failed e → ∃ c, ps.get? w.promises.size = some c ∧ c.outcome.isSome = true :=
    fun hp hn e he => absurd (hp.symm.trans he) (hn e)
  rw [eq]
  unfold joining flushes
  cases hp : cell.core.phase with
  | failed e =>
    have heq := resolve_eq w.promises.size (.error e) (w.promise (.error .jobSkipped))
    rw [still _ hp nofun nofun]
    refine ⟨_, _, ⟨hcell, .modify _ w.promises.size fun c => ⟨.error e, rfl⟩, fun _ _ => ?_⟩, Prod.ext heq ?_⟩
    · rw [Table.get?_modify_self, Table.get?_push_size]
      exact ⟨_, rfl, rfl⟩
    · simp
  | disposed =>
    obtain ⟨q, heq⟩ := breakPromise_eq w.promises.size (w.promise (.error .jobSkipped))
    rw [still _ hp nofun nofun]
    refine ⟨_, q, ⟨hcell, .modify _ w.promises.size fun c => ⟨c.fallback, rfl⟩, unfailed hp nofun⟩, Prod.ext heq ?_⟩
    simp
  | waiting =>
    rw [← queued _ hp (.inl rfl)]
    refine ⟨_, w.queue, ⟨hcell, .refl _, unfailed hp nofun⟩, Prod.ext rfl ?_⟩
    simp
  | ready =>
    rw [← queued _ hp (.inr rfl)]
    refine ⟨_, w.queue, ⟨hcell, .refl _, unfailed hp nofun⟩, Prod.ext rfl ?_⟩
    simp

def mail (c : Nat) (ms : List (String × Json)) (w : World) : World :=
  { w with pairs := ms.foldl (fun ps m => ps.modify (c / 2) (·.enqueue (c % 2 == 1) m)) w.pairs }

/-- What looking at a future sets anew. -/
structure Sight where
  desks : Table DeskCell
  events : List Logged
  queue : List Nat
  waiting : List (String × Nat)
  promises : Table Promise
  tasks : Table Task

def seen (w : World) (s : Sight) : World :=
  { w with
    desks := s.desks, events := s.events, queue := s.queue, waiting := s.waiting
    promises := s.promises, tasks := s.tasks }

/-- What is entered for the job that looking at a future begins. -/
structure Glance (w : World) (s : Sight) : Prop where
  desks : SameChecks w.desks s.desks
  promises : s.promises = w.promises ∨ ∃ o, s.promises = w.promises.push { fallback := o }
  tasks : ∃ grants : List (Nat × String),
    s.tasks = grants.foldl (fun acc g => acc.push (.storeGrant g.1 g.2)) w.tasks

theorem requeue_emit (c : Nat) (message : String × Json) (q : List Nat) (w : World) :
    (w.emit c message).requeue q = (w.requeue q).mail c [message] := rfl

end World

namespace World

def window (cell : RegistryCell) (h : Nat) : ReceiverCell :=
  { name := callFunction h, channel := cell.channel, policy := .abort,
    provider := .backend cell.backend h }

def clientWindow (c k : Nat) : ReceiverCell :=
  { name := clientRequester, channel := c, policy := .disposeChannel, provider := .client k }

def freshClient (w : World) (c : Nat) (s : ReadinessSource) (origin : Option String)
    (checker : CheckerRef) : ClientHandlerCell :=
  { origin := origin, channel := c, serverHandler := w.serverHandlers.size, readiness := s,
    checker := checker, receiver := some w.receivers.size }

/-- A new server handler hangs on the server channel, with hooks of its own; or the channel is closed,
and the handler is. -/
def Manned (w : World) (handler : ServerHandlerCell) (hooks : List Hook) : Prop :=
  (∃ key name, (∀ ch, w.channels.get? near = some ch → ch.core.disposed = false ∧
      key = ch.core.nextKey) ∧
    handler = { freshHandler w.serverHandlers.size near w.gates.size key name with hooks := hooks }) ∨
  (w.isOpen near = false ∧ handler.disposed = true ∧ handler.hook = none)

def Enlisted (w : World) (c : Nat) (requester : RequesterCell) (chs : Table Channel) : Prop :=
  ∃ ch, w.channels.get? c = some ch ∧
    ((ch.core.disposed = false ∧ requester.hook = some ch.core.nextKey ∧
        chs = w.channels.modify c (listening clientRequester w.requesters.size)) ∨
      (ch.core.disposed = true ∧ requester.hook = none ∧ ∃ f, chs = w.channels.modify c f ∧
        (f ch).core.disposed = true ∧ (f ch).core.hooks = ch.core.hooks ∧
        ch.core.nextKey ≤ (f ch).core.nextKey))

theorem SameShape.listening (chs : Table Channel) (c : Nat) (name : String) (r : Nat) :
    SameShape chs (chs.modify c (listening name r)) :=
  .modify _ _ (fun _ => by simp [World.listening]) fun _ => rfl

def withdrawn (w : World) (v : Nat) : Table Channel :=
  match w.receivers.get? v with
  | some cell =>
    if cell.live then
      w.channels.modify cell.channel fun ch =>
        { ch with core := ch.core.unregister (Service.request cell.name) }
    else w.channels
  | none => w.channels

end World

/-- What is done about a message that is not taken. -/
def Protest (c : Nat) (more : List Action) : Prop :=
  more = [] ∨ ∃ policy scope detail, more = [.violation policy scope detail c]

/-- What can happen in a world, and what is then to be done at once. -/
inductive Happening (L : Ledger) (w : World) : Cause → World → List Action → Prop
  | calm {κ : Cause} {w' : World} {more : List Action} (trifling : κ.isTrifling = true)
      (calm : Calm w w') (chores : κ.Chores more)
      (registries : w'.registries = w.registries ∨
        w.isOpen far = false ∧ κ = .action (.runHook (.registry 0)))
      (closing : Closing w κ more) (wires : Rewired w κ w') : Happening L w κ w' more
  /-- A message is of no interest. -/
  | ignored {c : Nat} {service : String} {v : Json} {w' : World} {more : List Action}
      (none : ∀ k, w.arrival? k c service v = none) (calm : Calm w w')
      (protest : Protest c more) (registries : w'.registries = w.registries)
      (unmoved : Unmoved w w') : Happening L w (.action (.deliver c service v)) w' more
  | vacant {a : Action} (reason : (∃ g, a = .flush g) ∨ ∃ g, a = .dispatchNext g ∧ w.gates.get? g = none) :
      Happening L w (.action a) w []
  | breach {a : Action} {text : String} {more : List Action}
      (cause : (∃ scope detail c, a = .violation .abort scope detail c) ∨
        ∃ c service v, a = .deliver c service v ∧ ∀ k, w.arrival? k c service v = none)
      (more_eq : more = [] ∨ ∃ s id, more = [.spawn (.await (.done .plain) (.respond far s id))]) :
      Happening L w (.action a) { w with aborted := some text } more
  | settled {c : Nat} {service : String} {v : Json} {r : Nat} {cell : RequesterCell} {m : Response}
      {t : Nat} {q : List Nat} (requester : w.requesters.get? r = some cell)
      (none : ∀ k, w.arrival? k c service v = none) :
      Happening L w (.action (.deliver c service v))
        { w with
          requesters := w.requesters.modify r fun c => { c with core := forget cell.core m.id }
          promises := w.promises.modify t (Promise.keep (Requester.outcomeOf m))
          queue := q } []
  | joined {service : String} {v : Json} {k g : Nat} {ρ : ClientRole} {cell : ClientHandlerCell}
      {m : Request} {call : Call} {gate : GateCell} {ps : Table Promise} {q : List Nat}
      (client : L.client k = some ρ) (handler : w.clientHandlers.get? k = some cell)
      (held : cell.gate = some g)
      (arrival : ∀ k', w.arrival? k' ρ.channel service v = if k' = k then some (m.id, call) else none)
      (joined : Joined w g gate ps) :
      Happening L w (.action (.deliver ρ.channel service v)) (w.joining g (.forward ρ.handler call) ps q)
        (flushes g gate ++ [.spawn (.await (.promise w.promises.size)
          (.respond ρ.channel (Service.response clientRequester) m.id))])
  | first {service : String} {v : Json} {k : Nat} {ρ : ClientRole} {cell : ClientHandlerCell}
      {m : Request} {call : Call} {check : Future} {ps : Table Promise} {ck : Table ManualCell}
      {ds : Table DeskCell} {ev : List Logged} {q : List Nat}
      (client : L.client k = some ρ) (handler : w.clientHandlers.get? k = some cell)
      (undisposed : cell.disposed = false) (gate : cell.gate = none)
      (arrival : ∀ k', w.arrival? k' ρ.channel service v = if k' = k then some (m.id, call) else none)
      (checked : w.beginCheck cell.checker cell.origin =
        ({ w with promises := ps, checkers := ck, desks := ds, events := ev }, check))
      (made : ps = w.promises ∨ ∃ o, ps = w.promises.push { fallback := o }) :
      Happening L w (.action (.deliver ρ.channel service v))
        { w with
          promises := ps.push { fallback := .error .jobSkipped }
          checkers := ck, desks := ds, events := ev
          gates := w.gates.push { core := { queue := [(.forward ρ.handler call, ps.size)] } }
          tasks := w.tasks.push (.await check (.gate w.gates.size))
          clientHandlers := w.clientHandlers.modify k fun c => { c with gate := some w.gates.size }
          queue := q }
        [.spawn (.await (.promise ps.size)
          (.respond ρ.channel (Service.response clientRequester) m.id))]
  | late {service : String} {v : Json} {k : Nat} {ρ : ClientRole} {cell : ClientHandlerCell}
      {m : Request} {call : Call} (client : L.client k = some ρ)
      (handler : w.clientHandlers.get? k = some cell) (disposed : cell.disposed = true)
      (arrival : ∀ k', w.arrival? k' ρ.channel service v = if k' = k then some (m.id, call) else none) :
      Happening L w (.action (.deliver ρ.channel service v)) w
        [.spawn (.await (.done (.outcome (.error .handlerDisposed)))
          (.respond ρ.channel (Service.response clientRequester) m.id))]
  | garbled {service : String} {v : Json} {k : Nat} {ρ : ClientRole} {id : Nat} {e : Fault}
      (client : L.client k = some ρ) (none : ∀ k', w.arrival? k' ρ.channel service v = none) :
      Happening L w (.action (.deliver ρ.channel service v)) w
        [.closeChannel ρ.channel, .spawn (.await (.done (.outcome (.error e)))
          (.respond ρ.channel (Service.response clientRequester) id))]
  | asked {v : Json} {h b : Nat} {m : Request} {call : Call}
      (none : ∀ k, w.arrival? k far (Service.request (callFunction h)) v = none) :
      Happening L w (.action (.deliver far (Service.request (callFunction h)) v)) w
        [.spawn (.await (.dispatch b h call)
          (.respond far (Service.response (callFunction h)) m.id))]
  /-- A client handler introduces itself to the server. -/
  | arrived {v : Json} {m : Arrival} {cell : RegistryCell} {b : Nat} {name : String} {q : List Nat}
      (registry : w.registries.get? 0 = some cell)
      (none : ∀ k, w.arrival? k far createHandler v = none) :
      Happening L w (.action (.deliver far createHandler v))
        { w with
          receivers := w.receivers.push (window cell m.handler)
          channels := w.channels.modify cell.channel (registered
            (Service.request (callFunction m.handler)) (.requests w.receivers.size))
          registries := w.registries.modify 0 fun c =>
            { c with entries := c.entries ++ [(m.handler, w.receivers.size)] }
          tasks := w.tasks.push (.backendCreated b m.handler name)
          queue := q } []
  /-- A client handler takes its leave of the server. -/
  | departed {v : Json} {m : Departure} {i b : Nat} {q : List Nat}
      (none : ∀ k, w.arrival? k far deleteHandler v = none) :
      Happening L w (.action (.deliver far deleteHandler v))
        { w with
          receivers := w.receivers.modify i fun c => { c with live := false }
          channels := w.withdrawn i
          registries := w.registries.modify 0 fun c =>
            { c with entries := Assoc.erase m.handler c.entries }
          tasks := w.tasks.push (.backendDeleted b m.handler)
          queue := q } []
  | shutCore {c : Nat} {ch : Channel} (channel : w.channels.get? c = some ch) :
      Happening L w (.action (.closeCore c))
        (w.modifyChannel c fun _ => { ch.core with disposed := true, services := [], hooks := [] })
        ((ch.core.hooks.map Prod.snd).map .runHook)
  | shutHandler {h : Nat} {cell : ServerHandlerCell} {ps : Table Promise} {q : List Nat}
      {leave : List (String × Json)} (handler : w.serverHandlers.get? h = some cell)
      (undisposed : cell.disposed = false) (kept : MoreKept w.promises ps)
      (leave_eq : leave =
        if cell.requester.isSome = true ∧ cell.channelGone = false ∧ w.isOpen near = true then
          [(deleteHandler, (Departure.mk h).toJson)] else []) :
      Happening L w (.action (.closeServerHandler h))
        (({ w with
          serverHandlers := w.serverHandlers.modify h shutHandler
          gates := w.gates.modify cell.gate shutGate
          requesters := cell.requester.elim w.requesters fun r =>
            w.requesters.modify r (dropRequester ∘ shutRequester)
          channels := w.parted cell, promises := ps, queue := q } : World).mail near leave)
        (cell.hooks.map .runHook)
  | shutClient {k : Nat} {cell : ClientHandlerCell} {ps : Table Promise} {q : List Nat}
      {more : List Action} (handler : w.clientHandlers.get? k = some cell)
      (undisposed : cell.disposed = false) (kept : MoreKept w.promises ps)
      (chores : (Cause.action (.closeClientHandler k)).Chores more)
      (more_eq : more = .closeServerHandler cell.serverHandler ::
        (cell.receiver.toList.map .releaseReceiver ++ [.closeChannel cell.channel])) :
      Happening L w (.action (.closeClientHandler k))
        { w with
          clientHandlers := w.clientHandlers.modify k fun c =>
            { c with disposed := true, gate := none, receiver := none }
          gates := cell.gate.elim w.gates fun g => w.gates.modify g shutGate
          promises := ps, queue := q } more
  | flushed {g : Nat} {cell : GateCell} (gate : w.gates.get? g = some cell)
      (idle : cell.core.flushing = false) :
      Happening L w (.action (.flush g)) (w.setGate g { cell.core with flushing := true })
        [.dispatchNext g]
  | paused {g : Nat} {cell : GateCell} (gate : w.gates.get? g = some cell)
      (empty : cell.core.phase = .ready → cell.core.queue = []) :
      Happening L w (.action (.dispatchNext g)) (w.setGate g { cell.core with flushing := false }) []
  | released {g : Nat} {cell : GateCell} {job : Job} {t : Nat} {rest : List (Job × Nat)}
      (gate : w.gates.get? g = some cell) (ready : cell.core.phase = .ready)
      (queue : cell.core.queue = (job, t) :: rest) :
      Happening L w (.action (.dispatchNext g)) (w.setGate g { cell.core with queue := rest })
        [.invoke job t, .dispatchNext g]
  /-- A job joins those before the readiness gate. -/
  | forwarded {h t : Nat} {call : Call} {cell : ServerHandlerCell} {gate : GateCell} {ps : Table Promise}
      {q : List Nat} (handler : w.serverHandlers.get? h = some cell) (joined : Joined w cell.gate gate ps) :
      Happening L w (.action (.invoke (.forward h call) t)) (w.joining cell.gate (.post h call) ps q)
        (flushes cell.gate gate ++ [.spawn (.await (.promise w.promises.size) (.resolve t))])
  | announced {h t : Nat} {call : Call} {cell : ServerHandlerCell} {requester : RequesterCell}
      {o : Outcome} {q : List Nat} (handler : w.serverHandlers.get? h = some cell)
      (undisposed : cell.disposed = false) (fresh : cell.requester = none)
      (isOpen : w.isOpen near = true) (channel : requester.channel = near)
      (core : requester.core =
        { name := callFunction h, nextId := 1, pending := [(0, w.promises.size)] })
      (hook : ∃ ch, w.channels.get? near = some ch ∧ requester.hook = some ch.core.nextKey) :
      Happening L w (.action (.invoke (.post h call) t))
        (({ w with
          requesters := w.requesters.push requester
          channels := w.channels.modify near (listening (callFunction h) w.requesters.size)
          serverHandlers := w.serverHandlers.modify h fun c =>
            { c with requester := some w.requesters.size }
          promises := w.promises.push { fallback := o }
          queue := q } : World).mail near
            [(createHandler, (Arrival.mk h cell.clientName).toJson),
              (Service.request (callFunction h), (Request.mk 0 call.toJson).toJson)])
        [.spawn (.await (.promise w.promises.size) (.resolve t))]
  | posted {h t r : Nat} {call : Call} {cell : ServerHandlerCell} {requester : RequesterCell}
      {o : Outcome} {q : List Nat} (handler : w.serverHandlers.get? h = some cell)
      (undisposed : cell.disposed = false) (known : cell.requester = some r)
      (requester_eq : w.requesters.get? r = some requester)
      (isOpen : w.isOpen near = true) (line : L.requester r = some (.server h))
      (undisposed' : requester.core.disposed = false) :
      Happening L w (.action (.invoke (.post h call) t))
        (({ w with
          requesters := w.requesters.modify r fun c =>
            { c with core := requester.core.posted w.promises.size }
          promises := w.promises.push { fallback := o }
          queue := q } : World).mail near
            [(Service.request (callFunction h),
              (Request.mk requester.core.nextId call.toJson).toJson)])
        [.spawn (.await (.promise w.promises.size) (.resolve t))]
  | unposted {h t : Nat} {call : Call} {rs : Table RequesterCell} {ps : Table Promise} {q : List Nat}
      {f : Future}
      (reason : w.isOpen near = false ∨ (∀ cell, w.serverHandlers.get? h = some cell →
        cell.disposed = true) ∨ ∃ cell r requester, w.serverHandlers.get? h = some cell ∧
          cell.requester = some r ∧ w.requesters.get? r = some requester ∧
          requester.core.disposed = true)
      (requesters : rs = w.requesters ∨ w.isOpen near = false ∧ ∃ r core, L.requester r = some (.server h) ∧
        rs = w.requesters.modify r fun c => { c with core := core })
      (promises : ps = w.promises ∨ ∃ o, MoreKept (w.promises.push { fallback := o }) ps) :
      Happening L w (.action (.invoke (.post h call) t))
        { w with requesters := rs, promises := ps, queue := q } [.spawn (.await f (.resolve t))]
  | spawned {task : Task} : Happening L w (.action (.spawn task)) (w.spawn task) []
  /-- A message is taken off its way. -/
  | pumped {p : Nat} {second : Bool} {pair rest : Pair} {service : String} {v : Json}
      (pair_eq : w.pairs.get? p = some pair) (next : pair.next? second = some ((service, v), rest)) :
      Happening L w (.action (.pumpNext p second)) { w with pairs := w.pairs.modify p fun _ => rest }
        [.deliver (pair.channel second) service v, .pumpNext p second]
  | drained {p : Nat} {second : Bool} : Happening L w (.action (.pumpNext p second)) w []
  | pumping {t p : Nat} {second : Bool} (task : w.tasks.get? t = some (.pump p second)) :
      Happening L w (.task t) w [.pumpNext p second]
  | waited {t : Nat} {f f' : Future} {κ : Continuation} {s : Sight}
      (task : w.tasks.get? t = some (.await f κ)) (wanted : w.isMoot κ = false)
      (looked : w.look f = (w.seen s, f', none)) (glance : Glance w s) :
      Happening L w (.task t) { w.seen s with tasks := s.tasks.modify t fun _ => .await f' κ } []
  | finished {t : Nat} {task : Task} {s : Sight} {d : Table DeskCell} {b : Table Backend}
      (task_eq : w.tasks.get? t = some task) (glance : Glance w s)
      (quiet : ∀ f κ, task = .await f κ → ∃ g, κ = .gate g ∧
        (w.isMoot κ = true ∨ ∃ r, (w.look f).2.2 = some r ∧
          ∀ cell, w.gates.get? g = some cell → cell.core.phase ≠ .waiting))
      (desks : SameChecks w.desks d) :
      Happening L w (.task t)
        { w.seen s with tasks := s.tasks.modify t fun _ => .finished, desks := d, backends := b } []
  /-- The result of a task keeps a promise. -/
  | resolved {t p : Nat} {f f' : Future} {s : Sight} {r : Settled} {q : List Nat}
      (task : w.tasks.get? t = some (.await f (.resolve p)))
      (looked : w.look f = (w.seen s, f', some r)) (glance : Glance w s) :
      Happening L w (.task t)
        { w.seen s with
          tasks := s.tasks.modify t fun _ => .finished
          promises := s.promises.modify p (Promise.keep (outcomeOf r))
          queue := q } []
  /-- The result of a task is sent as a response. -/
  | answered {t c id : Nat} {service : String} {f f' : Future} {s : Sight} {r : Settled} {q : List Nat}
      (task : w.tasks.get? t = some (.await f (.respond c service id)))
      (looked : w.look f = (w.seen s, f', some r)) (glance : Glance w s) (isOpen : w.isOpen c = true) :
      Happening L w (.task t)
        (({ w.seen s with tasks := s.tasks.modify t fun _ => .finished, queue := q } : World).mail c
          [(service, (responseTo id (outcomeOf r)).toJson)]) []
  /-- The result of a task cannot be sent any more. -/
  | muted {t c id : Nat} {service : String} {f f' : Future} {s : Sight} {r : Settled}
      (task : w.tasks.get? t = some (.await f (.respond c service id)))
      (looked : w.look f = (w.seen s, f', some r)) (glance : Glance w s) (isClosed : w.isOpen c = false) :
      Happening L w (.task t) { w.seen s with tasks := s.tasks.modify t fun _ => .finished } []
  | opened {t g : Nat} {f f' : Future} {s : Sight} {r : Settled} {v : Json} {cell : GateCell}
      (task : w.tasks.get? t = some (.await f (.gate g))) (wanted : w.isMoot (.gate g) = false)
      (looked : w.look f = (w.seen s, f', some r)) (glance : Glance w s)
      (outcome : outcomeOf r = .ok v) (gate : w.gates.get? g = some cell)
      (waiting : cell.core.phase = .waiting) :
      Happening L w (.task t)
        { w.seen s with
          tasks := s.tasks.modify t fun _ => .finished
          gates := w.gates.modify g fun c =>
            { c with core := { cell.core with phase := .ready }, onRejected := none } } [.flush g]
  | failed {t g : Nat} {f : Future} {s : Sight} {e : Fault} {cell : GateCell} {q : List Nat}
      {more : List Action} (task : w.tasks.get? t = some (.await f (.gate g)))
      (wanted : w.isMoot (.gate g) = false) (glance : Glance w s)
      (gate : w.gates.get? g = some cell) (waiting : cell.core.phase = .waiting)
      (chores : (Cause.task t).Chores more)
      (told : ∀ h, cell.onRejected = some (.serverHandler h) →
        (w.serverHandlers.get? h).any (·.live) = true → more = [.closeServerHandler h]) :
      Happening L w (.task t)
        { w.seen s with
          tasks := s.tasks.modify t fun _ => .finished
          gates := w.gates.modify g fun c =>
            { c with core := { cell.core with phase := .failed e, queue := [] }, onRejected := none }
          promises := s.promises.modifyAll (cell.core.queue.map Prod.snd) (Promise.keep (.error e))
          queue := q } more
  | revised {d : Nat} {desk : Desk} {q : List Nat} :
      Happening L w (.owner (.revise d desk)) ((w.setDesk d desk).requeue q) []
  | connected : Happening L w (.owner .connect) (w.newPair "client" "handler").1 []
  /-- A client handler begins to serve a channel. -/
  | admitted {c : Nat} {s : ReadinessSource} {origin : Option String} {checker : CheckerRef}
      {handler : ServerHandlerCell} {gate : GateCell} {ps : Table Promise} {q : List Nat}
      {more : List Action} (kept : MoreKept w.promises ps) (requester : handler.requester = none)
      (gate_eq : gate = freshGate w.serverHandlers.size ∨
        gate = shutGate (freshGate w.serverHandlers.size))
      (shut : handler.disposed = true ↔ gate.core.phase = .disposed)
      (chores : (Cause.owner (.accept c s origin checker)).Chores more)
      (manned : Manned w handler [.clientHandler w.clientHandlers.size])
      (more_eq : more = (if handler.disposed then [.runHook (.clientHandler w.clientHandlers.size)] else []) ++
        [.guardChannel c (.clientHandler w.clientHandlers.size)]) :
      Happening L w (.owner (.accept c s origin checker))
        { w with
          serverHandlers := w.serverHandlers.push handler
          clientHandlers := w.clientHandlers.push (freshClient w c s origin checker)
          gates := w.gates.push gate
          receivers := w.receivers.push (clientWindow c w.clientHandlers.size)
          tasks := w.tasks.push (.await (.readiness s) (.gate w.gates.size))
          channels :=
            (w.channels.modify near (hooked (.serverHandler w.serverHandlers.size))).modify c
              (registered (Service.request clientRequester) (.requests w.receivers.size))
          promises := ps, queue := q } more
  | attached {s : ReadinessSource} {name : String} {handler : ServerHandlerCell} {gate : GateCell}
      {ps : Table Promise} {q : List Nat} (kept : MoreKept w.promises ps)
      (requester : handler.requester = none)
      (gate_eq : gate = freshGate w.serverHandlers.size ∨
        gate = shutGate (freshGate w.serverHandlers.size))
      (shut : handler.disposed = true ↔ gate.core.phase = .disposed)
      (manned : Manned w handler []) :
      Happening L w (.owner (.attach s name))
        { w with
          serverHandlers := w.serverHandlers.push handler
          gates := w.gates.push gate
          tasks := w.tasks.push (.await (.readiness s) (.gate w.gates.size))
          channels := w.channels.modify near (hooked (.serverHandler w.serverHandlers.size))
          promises := ps, queue := q } []
  | enlisted {c : Nat} {policy : Policy} {requester : RequesterCell} {chs : Table Channel}
      {q : List Nat} (shape : SameShape w.channels chs) (allowed : w.canEnlist c = true)
      (channel : requester.channel = c) (wires : Enlisted w c requester chs) :
      Happening L w (.owner (.enlist c policy))
        { w with requesters := w.requesters.push requester, channels := chs, queue := q } []
  | requested {r c : Nat} {call : Call} {requester : RequesterCell} {o : Outcome} {q : List Nat}
      (line : L.requester r = some (.client c)) (requester_eq : w.requesters.get? r = some requester)
      (isOpen : w.isOpen c = true) :
      Happening L w (.owner (.post r call))
        (({ w with
          requesters := w.requesters.modify r fun c =>
            { c with core := requester.core.posted w.promises.size }
          promises := w.promises.push { fallback := o }
          queue := q } : World).mail c
            [(Service.request clientRequester,
              (Request.mk requester.core.nextId call.toJson).toJson)]) []
  | unrequested {r c : Nat} {call : Call} {core : Requester Nat} {ps : Table Promise} {o : Outcome}
      {q : List Nat} (line : L.requester r = some (.client c)) (isClosed : w.isOpen c = false)
      (promises : MoreKept (w.promises.push { fallback := o }) ps) :
      Happening L w (.owner (.post r call))
        { w with
          requesters := w.requesters.modify r fun c => { c with core := core }
          promises := ps
          queue := q } []
  /-- A message is sent from outside. -/
  | injected {c : Nat} {service : String} {v : Json} {q : List Nat}
      (outside : (c == far || isClientEnd c) = true) (isOpen : w.isOpen c = true) :
      Happening L w (.owner (.send c service v)) ((w.requeue q).mail c [(service, v)]) []
  | handled {h : Nat} {call : Call} {cell : ServerHandlerCell} {gate : GateCell} {ps : Table Promise}
      {q : List Nat} (handler : w.serverHandlers.get? h = some cell) (unowned : w.isOwned h = false)
      (joined : Joined w cell.gate gate ps) :
      Happening L w (.owner (.handle h call)) (w.joining cell.gate (.post h call) ps q)
        (flushes cell.gate gate)

/-! ## Actions -/

variable {H : History} {L : Ledger} {N : Stock} {w : World}

variable {c : Nat}

theorem Orderly.isOpen_of_closed (h : Orderly H L N w) (hc : L.closed c) :
    w.isOpen c = false := by
  unfold isOpen
  split
  · next ch hch => simp [h.closed c ch hch hc]
  · rfl

namespace World

theorem outgoing_of_modify {w w' : World} {p : Nat} {f : Pair → Pair}
    (h : w'.pairs = w.pairs.modify p f)
    (hf : ∀ q, (f q).toFirst = q.toFirst ∧ (f q).toSecond = q.toSecond) (c : Nat) :
    w'.outgoing c = w.outgoing c := by
  grind [outgoing]

theorem Wired.emit {w : World} (hw : w.Wired) (c : Nat) (m : String × Json) : (w.emit c m).Wired :=
  { hw with
    ends := hw.ends.modify fun q _ hq =>
      ⟨(q.ends_enqueue _ _).1.trans hq.1, (q.ends_enqueue _ _).2.trans hq.2⟩
    size := by rw [World.emit, Table.size_modify]; exact hw.size }

theorem Calm.of_wake {w w' : World} (h : Calm w w') (s : Source) : Calm w (w'.wake s) := by
  rw [wake_eq]
  exact { h with outgoing := h.outgoing }

theorem releaseReceiver_eq (v : Nat) (w : World) :
    w.releaseReceiver v =
      { w with
        receivers := w.receivers.modify v fun c => { c with live := false }
        channels := w.withdrawn v } := by
  unfold releaseReceiver withdrawn
  cases hv : w.receivers.get? v with
  | none => rw [Table.modify_of_none hv]
  | some =>
    dsimp only
    split <;> rfl

theorem SameShape.withdrawn (w : World) (v : Nat) : SameShape w.channels (w.withdrawn v) := by
  unfold World.withdrawn
  split
  · split
    · exact .modify _ _ (fun _ => rfl) fun _ => rfl
    · exact .refl _
  · exact .refl _

theorem clearRegistry_eq (g : Nat) (w : World) :
    ∃ vs chs, SameShape w.channels chs ∧ w.clearRegistry g = { w with
      registries := w.registries.modify g fun c => { c with entries := [] }
      receivers := vs, channels := chs } := by
  unfold clearRegistry
  split
  · next none =>
    rw [Table.modify_of_none none]
    exact ⟨w.receivers, w.channels, .refl _, rfl⟩
  · next cell _ =>
    suffices ∀ (es : List (Nat × Nat)) (rs : Table RegistryCell) (vs : Table ReceiverCell)
        (chs : Table Channel), SameShape w.channels chs → ∃ vs' chs', SameShape w.channels chs' ∧
          es.foldl (fun acc e => acc.releaseReceiver e.2)
            { w with registries := rs, receivers := vs, channels := chs } =
          { w with registries := rs, receivers := vs', channels := chs' } from
      this cell.entries _ w.receivers w.channels (.refl _)
    intro es
    induction es with
    | nil => exact fun rs vs chs same => ⟨vs, chs, same, rfl⟩
    | cons _ _ ih =>
      intro rs vs chs same
      rw [List.foldl_cons, releaseReceiver_eq]
      exact ih rs _ _ (same.trans (.withdrawn { w with registries := rs, receivers := vs, channels := chs } _))

end World

theorem Regular.happens_closeChannel (c : Nat) (h : Regular H L w) :
    Happening L w (.action (.closeChannel c)) (w.closeChannel c).1 (w.closeChannel c).2 := by
  unfold World.closeChannel
  split
  · next hn =>
    exact .calm rfl (.refl w) (.nil _) (.inl rfl) (by simp [Closing, hn]) (.refl nofun nofun)
  · next ch hch =>
    rw [h.orderly.transport c ch hch]
    dsimp only
    split
    · next hn =>
      have here : c / 2 < w.pairs.size := by
        have := Table.lt_size_of_get? hch
        have := h.orderly.size
        omega
      obtain ⟨pair, hpair⟩ := Table.get?_isSome_of_lt here
      cases hn.symm.trans hpair
    · next pair hpair =>
      obtain ⟨first, second⟩ := h.orderly.ends (c / 2) pair hpair
      refine .calm rfl (Calm.of_wake ?_ _) ?_ (.inl ?_) ?_ ?_
      · exact { Calm.refl w with
          outgoing := outgoing_of_modify (w := w) rfl fun _ => ⟨rfl, rfl⟩ }
      · refine .cons rfl ?_ (.single rfl ?_)
        all_goals
          simp only [Action.reaches, Cause.reaches, decide_eq_true_eq]
          omega
      · rw [wake_eq]
      · rw [first, second]
        exact (if_pos (by rw [hch]; rfl)).symm
      · rw [wake_eq]
        exact ⟨rfl, rfl, rfl, fun _ => rfl⟩

theorem World.happens_closeCore (c : Nat) :
    Happening L w (.action (.closeCore c)) (w.closeCore c).1 (w.closeCore c).2 := by
  unfold closeCore
  split
  · refine .calm rfl (.refl w) (.nil _) (.inl rfl) ⟨?_, rfl⟩ (.refl nofun nofun)
    unfold isOpen
    cases hch : w.channels.get? c with
    | none => rfl
    | some =>
      grind [ChannelCore.dispose]
  · next _ _ hc =>
    obtain ⟨_, hch, hd⟩ := Option.bind_eq_some_iff.mp hc
    unfold ChannelCore.dispose at hd
    split at hd
    · cases hd
    · next hopen =>
      obtain ⟨rfl, rfl⟩ := Prod.mk.inj (Option.some.inj hd)
      exact .shutCore hch

theorem Regular.happens_runHook (h : Regular H L w) {hook : Hook} (hh : ActionOk H L (.runHook hook)) :
    Happening L w (.action (.runHook hook)) (w.runHook hook).1 (w.runHook hook).2 := by
  obtain ⟨_, hc, hclosed⟩ := hh
  have idle : Closing w (.action (.runHook hook)) [] →
      Happening L w (.action (.runHook hook)) w [] := fun closing =>
    .calm rfl (.refl w) (.nil _) (.inl rfl) closing (.refl nofun nofun)
  unfold World.runHook
  cases hook with
  | requester r =>
    dsimp only
    split
    · obtain ⟨ℓ, hℓ, rfl⟩ := hc
      have away : ∀ cell, w.requesters.get? r = some cell → cell.channel = near →
          w.isOpen near = false := by
        intro cell hcell hn
        have ok := of_eq_some (h.orderly.requesters r cell hcell) hℓ
        have line : ℓ.channel = near := ok.channel.symm.trans hn
        have shut := h.orderly.isOpen_of_closed (hclosed (line ▸ Nat.zero_lt_two))
        rwa [line] at shut
      refine .calm rfl (.of_disposeRequester away) (.nil _) (.inl ?_) rfl (.inr rfl)
      obtain ⟨_, _, -, heq⟩ := disposeRequester_eq r w
      rw [heq]
    · exact idle rfl
  | tracker _ =>
    dsimp only
    split
    · unfold World.settleTracker
      rw [wake_eq]
      exact .calm rfl { Calm.refl w with outgoing := fun _ => rfl } (.nil _) (.inl rfl) rfl
        ⟨rfl, rfl, rfl, fun _ => rfl⟩
    · exact idle rfl
  | serverHandler =>
    dsimp only
    split
    · next live =>
      exact .calm rfl { Calm.refl w with
        outgoing := fun _ => rfl, handlers := Table.map_get?_modify (fun _ => by rfl) _ _ }
        (.single rfl nofun) (.inl rfl) (if_pos live).symm
        ⟨rfl, rfl, rfl, Table.map_get?_modify (fun _ => by rfl) _ _⟩
    · next live => exact idle (if_neg live).symm
  | clientHandler =>
    refine .calm rfl (.refl w) ?_ (.inl rfl) rfl (.refl nofun nofun)
    dsimp only
    split
    · exact .single rfl nofun
    · exact .nil _
  | registry g =>
    dsimp only
    split
    · obtain ⟨rfl, rfl⟩ := hc
      have shut := h.orderly.isOpen_of_closed (hclosed (by decide))
      obtain ⟨_, _, same, heq⟩ := clearRegistry_eq 0 w
      refine .calm rfl ?_ (.nil _) (.inr ⟨shut, rfl⟩) rfl (.inr rfl)
      rw [heq]
      exact { Calm.refl w with shape := same, outgoing := fun _ => rfl }
    · exact idle rfl
  | observer =>
    obtain ⟨rfl, -⟩ := hc
    exact .calm rfl { Calm.refl w with outgoing := fun _ => rfl } (.nil _) (.inl rfl) rfl
      ⟨rfl, rfl, rfl, fun _ => rfl⟩
  | pinger | clientTable => exact absurd hc id

theorem Regular.happens_closeServerHandler (h : Regular H L w) (h' : Nat) :
    Happening L w (.action (.closeServerHandler h')) (w.disposeServerHandler h').1
      ((w.disposeServerHandler h').2.map .runHook) := by
  obtain ⟨gone, heq⟩ | ⟨cell, _, _, _, hcell, hd, kept, rfl, hleave⟩ :=
    disposeServerHandler_cases h.orderly.wired h'
  · rw [heq]
    exact .calm rfl (.refl w) (.nil _) (.inl rfl) ⟨gone, rfl⟩ (.refl nofun nofun)
  · obtain ⟨_, -, ok⟩ := h.orderly.handlers h' cell hcell
    rw [ok.channel, ok.id] at hleave
    obtain ⟨hr, hg, ho, heq⟩ | ⟨hno, heq⟩ := hleave
    · rw [heq]
      exact .shutHandler hcell hd kept (if_pos ⟨hr, hg, ho⟩).symm
    · rw [heq]
      exact .shutHandler hcell hd kept (if_neg hno).symm

theorem Regular.happens_closeClientHandler (h : Regular H L w) (k : Nat) :
    Happening L w (.action (.closeClientHandler k)) (w.closeClientHandler k).1
      (w.closeClientHandler k).2 := by
  unfold World.closeClientHandler
  split
  · next hk =>
    exact .calm rfl (.refl w) (.nil _) (.inl rfl) ⟨fun _ hcell => (by cases hk.symm.trans hcell), rfl⟩
      (.refl (by rintro _ _ ⟨⟩) (by rintro _ ⟨⟩))
  · next cell hcell =>
    cases hd : cell.disposed with
    | true =>
      have gone : ∀ c, w.clientHandlers.get? k = some c → c.disposed = true := fun c hc =>
        Option.some.inj (hcell.symm.trans hc) ▸ hd
      exact .calm rfl (.refl w) (.nil _) (.inl rfl) ⟨gone, rfl⟩ (.refl (by rintro _ _ ⟨⟩) (by rintro _ ⟨⟩))
    | false =>
      obtain ⟨_, hρ, ok⟩ := h.orderly.clients k cell hcell
      have away : 2 ≤ cell.channel := ok.channel ▸ two_le_of_isHandlerEnd (h.coherent.client hρ).1
      have leave : (Cause.action (.closeClientHandler k)).Chores [.closeChannel cell.channel] :=
        .single rfl fun hr => by
          simp only [Action.reaches, decide_eq_true_eq] at hr
          omega
      have chores : ∀ more, more = .closeServerHandler cell.serverHandler ::
            (cell.receiver.toList.map .releaseReceiver ++ [.closeChannel cell.channel]) →
          (Cause.action (.closeClientHandler k)).Chores more := by
        rintro _ rfl
        cases cell.receiver with
        | none => exact .cons rfl (by rintro ⟨⟩) leave
        | some => exact .cons rfl (by rintro ⟨⟩) (.cons rfl (by rintro ⟨⟩) leave)
      have shut : ∀ (ps : Table Promise) (q : List Nat), MoreKept w.promises ps →
          Happening L w (.action (.closeClientHandler k)) { w with
            clientHandlers := w.clientHandlers.modify k fun c =>
              { c with disposed := true, gate := none, receiver := none }
            gates := cell.gate.elim w.gates fun g => w.gates.modify g shutGate
            promises := ps, queue := q } _ :=
        fun ps q kept => .shutClient hcell hd kept (chores _ rfl) rfl
      cases hg : cell.gate with
      | none =>
        rw [hg] at shut
        cases hv : cell.receiver <;> rw [hv] at shut <;> exact shut _ _ (.refl _)
      | some g =>
        obtain ⟨_, _, kept, heq⟩ := disposeGate_eq g
          { w with clientHandlers := w.clientHandlers.modify k fun c =>
            { c with disposed := true, gate := none, receiver := none } }
        dsimp only
        rw [heq]
        rw [hg] at shut
        cases hv : cell.receiver <;> rw [hv] at shut <;> exact shut _ _ kept

theorem World.happens_flush (g : Nat) :
    Happening L w (.action (.flush g)) (w.flush g).1 (w.flush g).2 := by
  unfold flush
  split
  · exact .vacant (.inl ⟨g, rfl⟩)
  · next _ hc =>
    obtain ⟨_, hcell, hs⟩ := Option.bind_eq_some_iff.mp hc
    unfold Deferred.startFlush? at hs
    split at hs
    · cases hs
    · next hidle =>
      obtain rfl := Option.some.inj hs
      exact .flushed hcell (by simpa using hidle)

theorem World.happens_dispatchNext (g : Nat) :
    Happening L w (.action (.dispatchNext g)) (w.dispatchNext g).1 (w.dispatchNext g).2 := by
  obtain ⟨hg, heq⟩ | ⟨_, hcell, ⟨hdone, heq⟩ | ⟨_, _, _, hp, hq, heq⟩⟩ :=
    dispatchNext_cases w g
  · rw [heq]
    exact .vacant (.inr ⟨g, rfl, hg⟩)
  · rw [heq]
    exact .paused hcell hdone
  · rw [heq]
    exact .released hcell hp hq

theorem World.happens_pumpNext (p : Nat) (second : Bool) :
    Happening L w (.action (.pumpNext p second)) (w.pumpNext p second).1 (w.pumpNext p second).2 := by
  unfold pumpNext
  split
  · exact .drained
  · next _ hpair =>
    split
    · exact .drained
    · next _ hnext => exact .pumped hpair hnext

theorem World.guardChannel_eq (c : Nat) (hook : Hook) (w : World) :
    w.guardChannel c hook = ({ w with channels := w.channels.modify c (hooked hook) },
      if (w.channels.get? c).any (·.core.disposed) then [.runHook hook] else []) := by
  unfold guardChannel
  cases hch : w.channels.get? c with
  | none => simp [addHook, hch, Table.modify_of_none hch]
  | some =>
    rw [addHook_eq hch]
    rfl

theorem World.Calm.hooked (c : Nat) (hook : Hook) (w : World) :
    Calm w { w with channels := w.channels.modify c (hooked hook) } :=
  { Calm.refl w with outgoing := fun _ => rfl, shape := .hooked _ _ _ }

theorem Cause.Chores.guard {κ : Cause} {c : Nat} {hook : Hook} :
    κ.Chores (if (w.channels.get? c).any (·.core.disposed) then [.runHook hook] else []) := by
  split
  · exact .single rfl (by rintro ⟨⟩)
  · exact .nil _

theorem World.happens_guardChannel (c : Nat) (hook : Hook) :
    Happening L w (.action (.guardChannel c hook)) (w.guardChannel c hook).1
      (w.guardChannel c hook).2 := by
  rw [guardChannel_eq]
  exact .calm rfl (.hooked c hook w) .guard (.inl rfl) rfl rfl

theorem World.happens_releaseReceiver (v : Nat) :
    Happening L w (.action (.releaseReceiver v)) (w.releaseReceiver v) [] := by
  refine .calm rfl ?_ (.nil _) (.inl ?_) rfl rfl
  · rw [releaseReceiver_eq]
    exact { Calm.refl w with outgoing := fun _ => rfl, shape := .withdrawn w v }
  · rw [releaseReceiver_eq]

variable {h' : Nat}

theorem Regular.handler_exists (h : Regular H L w) {η : HandlerRole} (hη : L.handler h' = some η) :
    ∃ cell gate, w.serverHandlers.get? h' = some cell ∧ HandlerAt L h' η cell ∧
      w.gates.get? cell.gate = some gate := by
  obtain ⟨cell, hcell, ok⟩ := h.orderly.handlers.of_lt (h.bounded.handler hη) hη
  obtain ⟨gate, hgate⟩ := Table.get?_isSome_of_lt (h.bounded.gate (h.coherent.handler hη).1)
  exact ⟨cell, gate, hcell, ok, ok.gate ▸ hgate⟩

variable {t : Nat} {call : Call}

theorem Regular.happens_forward (h : Regular H L w) (ha : ActionOk H L (.invoke (.forward h' call) t)) :
    Happening L w (.action (.invoke (.forward h' call) t)) (w.invoke (.forward h' call) t).1
      (w.invoke (.forward h' call) t).2 := by
  obtain ⟨γ, job, -⟩ := ha
  cases γ with
  | readiness =>
    obtain ⟨η, _, -, heq, -⟩ := job
    exact absurd heq nofun
  | permission =>
    obtain ⟨_, _, _, _, hρ, heq, -⟩ := job
    obtain ⟨rfl, rfl⟩ := Job.forward.inj heq
    obtain ⟨-, η, hη, -⟩ := h.coherent.client hρ
    obtain ⟨_, _, hcell, -, hgate⟩ := h.handler_exists hη
    obtain ⟨_, _, joined, heq⟩ := Joined.of_addJob hgate (.post _ call)
    simp only [World.invoke, hcell]
    rw [heq]
    exact .forwarded hcell joined

theorem Regular.happens_post (h : Regular H L w) (ha : ActionOk H L (.invoke (.post h' call) t)) :
    Happening L w (.action (.invoke (.post h' call) t)) (w.invoke (.post h' call) t).1
      (w.invoke (.post h' call) t).2 := by
  obtain ⟨γ, job, -⟩ := ha
  cases γ with
  | permission =>
    obtain ⟨_, _, _, _, -, heq, -⟩ := job
    cases heq
  | readiness =>
    obtain ⟨_, _, hη, heq, -⟩ := job
    obtain ⟨rfl, rfl⟩ := Job.post.inj heq
    obtain ⟨cell, -, hcell, ok, -⟩ := h.handler_exists hη
    have live : (w.serverHandlers.get? h').any (·.live) = true := by simp [hcell, ok.live]
    simp only [World.invoke, if_pos live]
    unfold World.postToServer
    obtain ⟨hnone, -⟩ | ⟨_, hcell', hrest⟩ := World.serverRequester_cases h.orderly.wired h'
    · cases hcell.symm.trans hnone
    · cases hcell.symm.trans hcell'
      rw [ok.channel, ok.id] at hrest
      obtain ⟨hd, heq⟩ | ⟨hd, r, hr, heq⟩ | ⟨hd, hr, hgone, heq⟩ | ⟨hd, hr, _, ho, ch, q, hch, heq⟩ := hrest
      · rw [heq]
        refine .unposted (.inr (.inl fun c hc => ?_)) (.inl rfl) (.inl rfl)
        exact Option.some.inj (hcell.symm.trans hc) ▸ hd
      · rw [heq]
        dsimp only
        have line := ok.requester r hr
        obtain ⟨requester, hrequester, at_⟩ := h.orderly.requesters.of_lt (h.bounded.requester line) line
        have name : requester.core.name = callFunction h' := at_.name
        have channel : requester.channel = near := at_.channel
        obtain ⟨hn, -⟩ | ⟨requester', hr', ⟨hrd, heq⟩ | ⟨hrd, ho, q, heq⟩ | ⟨hrd, ho, t', q, _, heq⟩⟩ :=
          post_cases h.orderly.wired r call.toJson
        · cases hrequester.symm.trans hn
        all_goals
          cases hrequester.symm.trans hr'
          rw [heq]
        · exact .unposted (.inr (.inr ⟨cell, r, requester, hcell, hr, hrequester, hrd⟩)) (.inl rfl)
            (.inl rfl)
        · rw [channel] at ho ⊢
          rw [name, World.requeue_emit]
          unfold World.requeue World.setCore World.promise
          exact .posted (o := .error requester.core.gaveUp) (q := q) hcell hd hr hrequester ho line hrd
        · rw [channel] at ho
          unfold World.requeue World.keep World.setCore World.promise
          exact .unposted (.inl ho) (.inr ⟨ho, r, _, line, rfl⟩)
            (.inr ⟨_, .modify _ t' fun _ => ⟨_, rfl⟩⟩)
      · rw [heq]
        refine .unposted (.inl ?_) (.inl rfl) (.inl rfl)
        rcases hgone with hgone | hgone
        · exact h.orderly.isOpen_of_closed (ok.gone hgone)
        · exact hgone
      · rw [heq]
        dsimp only
        let fresh := freshRequester (callFunction h') near .abort ch.core.nextKey
        let w₀ : World := { w with
          requesters := w.requesters.push fresh
          channels := w.channels.modify near
            (listening (callFunction h') w.requesters.size)
          serverHandlers := w.serverHandlers.modify h' fun c =>
            { c with requester := some w.requesters.size }
          queue := q }
        let w₁ := w₀.emit near (createHandler, (Arrival.mk h' cell.clientName).toJson)
        have shape : SameShape w.channels (w.channels.modify near
            (listening (callFunction h') w.requesters.size)) := .listening _ _ _ _
        have wired₀ : w₀.Wired := SameShape.wired (w := w) shape rfl h.orderly.wired
        have wired : w₁.Wired := wired₀.emit _ _
        have isOpen : w₁.isOpen near = true := (SameShape.isOpen (w := w) shape near).trans ho
        have made : w₁.requesters.get? w.requesters.size = some fresh := Table.get?_push_size ..
        obtain ⟨hn, -⟩ | ⟨requester', hr', ⟨hrd, -⟩ | ⟨-, -, q', heq'⟩ | ⟨-, ho', -⟩⟩ :=
          post_cases wired w.requesters.size call.toJson
        · cases made.symm.trans hn
        all_goals cases made.symm.trans hr'
        · cases hrd
        · let posted : RequesterCell := { fresh with core := fresh.core.posted w.promises.size }
          have requesters : (w.requesters.push fresh).modify w.requesters.size (fun c =>
              { c with core := fresh.core.posted w.promises.size }) = w.requesters.push posted :=
            Table.modify_push_size ..
          have after := congrArg (fun rs => ({ w₀ with
            requesters := rs
            promises := w.promises.push { fallback := .error fresh.core.gaveUp }
            queue := q' } : World).mail near
              [(createHandler, (Arrival.mk h' cell.clientName).toJson),
                (Service.request (callFunction h'), (Request.mk 0 call.toJson).toJson)]) requesters
          have result : w₁.post w.requesters.size call.toJson = (_, .promise w.promises.size) :=
            heq'.trans (Prod.ext after rfl)
          have happening : Happening L w (.action (.invoke (.post h' call) t)) _ _ := .announced
            (o := .error fresh.core.gaveUp) (q := q') hcell hd hr ho
            (show posted.channel = near from rfl) rfl ⟨ch, hch, rfl⟩
          show Happening L w _ (w₁.post w.requesters.size call.toJson).1
            [.spawn (.await (w₁.post w.requesters.size call.toJson).2 (.resolve t))]
          rw [result]
          exact happening
        · cases isOpen.symm.trans ho'

/-! ### Messages -/

namespace World

def handlerOf (w : World) (c : Nat) (service : String) : Option Handler :=
  (w.channels.get? c).bind fun ch => ch.core.handler? service

variable {c : Nat} {service : String}

theorem arrival?_of_not_serves {w : World} {k : Nat}
    (h : w.serves k c service = false) (v : Json) : w.arrival? k c service v = none := by
  simp [arrival?, h]

theorem serves_of_handler {w : World} {handler : Option Handler}
    (h : w.handlerOf c service = handler) (hn : ∀ v, handler ≠ some (.requests v)) (k : Nat) :
    w.serves k c service = false := by
  grind [handlerOf, serves]

theorem serves_of_receiver {w : World} {v : Nat} (h : w.handlerOf c service = some (.requests v)) (k : Nat) :
    w.serves k c service = (w.receivers.get? v).any fun cell =>
      match cell.provider with
      | .client k' => cell.live && k' == k
      | _ => false := by
  unfold handlerOf at h
  unfold serves
  simp only [h]
  cases w.receivers.get? v with
  | none => rfl
  | some cell =>
    obtain ⟨_, _, _, provider, _⟩ := cell
    cases provider <;> rfl

end World

theorem Regular.happens_onResponse (h : Regular H L w) {r : Nat} {ℓ : Line} (v : Json)
    (hℓ : L.requester r = some ℓ)
    (unasked : ∀ k, w.arrival? k ℓ.channel (Service.response ℓ.name) v = none) :
    Happening L w (.action (.deliver ℓ.channel (Service.response ℓ.name) v)) (w.onResponse r v).1
      (w.onResponse r v).2 := by
  have protest : ∀ {cell scope detail}, w.requesters.get? r = some cell →
      Protest ℓ.channel [.violation cell.policy scope detail cell.channel] := fun hcell =>
    .inr ⟨_, _, _, by rw [(of_eq_some (h.orderly.requesters r _ hcell) hℓ).channel]⟩
  obtain ⟨-, heq⟩ | ⟨cell, hcell, -, ⟨_, _, _, heq⟩ | ⟨m, _, hrest⟩⟩ := onResponse_cases w r v
  · rw [heq]
    exact .ignored unasked (.refl w) (.inl rfl) rfl (.refl w)
  · rw [heq]
    exact .ignored unasked (.refl w) (protest hcell) rfl (.refl w)
  · obtain ⟨-, heq⟩ | ⟨_, _, _, _, heq⟩ | ⟨_, _, _, _, heq⟩ := hrest
    · rw [heq]
      exact .ignored unasked (.refl w) (.inl rfl) rfl (.refl w)
    · rw [heq]
      exact .ignored unasked (.refl w) (protest hcell) rfl (.refl w)
    · rw [heq]
      exact .settled hcell unasked

theorem World.beginCheck_eq (checker : CheckerRef) (origin : Option String) :
    ∃ ps ck ds ev check, w.beginCheck checker origin =
        ({ w with promises := ps, checkers := ck, desks := ds, events := ev }, check) ∧
      (ps = w.promises ∨ ∃ o, ps = w.promises.push { fallback := o }) := by
  unfold beginCheck
  split
  · split
    · exact ⟨_, _, _, _, _, rfl, .inl rfl⟩
    · exact ⟨_, _, _, _, _, rfl, .inr ⟨_, rfl⟩⟩
  · split
    · exact ⟨_, _, _, _, _, rfl, .inl rfl⟩
    · exact ⟨_, _, _, _, _, rfl, .inl rfl⟩

variable {service : String}

theorem Regular.happens_request (h : Regular H L w) {k : Nat} {ρ : ClientRole}
    {v : Json} {m : Request} (hρ : L.client k = some ρ) (hcall : Call.ofJson? m.payload = some call)
    (arrival : ∀ k', w.arrival? k' ρ.channel service v = if k' = k then some (m.id, call) else none) :
    Happening L w (.action (.deliver ρ.channel service v)) (w.handleClientRequest k m.payload).1
      ((w.handleClientRequest k m.payload).2.1 ++ [Action.spawn (.await (w.handleClientRequest k m.payload).2.2
        (.respond ρ.channel (Service.response clientRequester) m.id))]) := by
  obtain ⟨cell, hcell, ok⟩ := h.orderly.clients.of_lt (h.bounded.client hρ) hρ
  unfold World.handleClientRequest World.permissionGate
  simp only [hcell, ok.live, hcall, Bool.not_true, Bool.false_eq_true, if_false, ok.handler]
  cases hd : cell.disposed with
  | true =>
    simp only [if_true]
    exact .late hρ hcell hd arrival
  | false =>
    simp only [Bool.false_eq_true, if_false]
    cases hg : cell.gate with
    | some g =>
      obtain ⟨gate, hgate⟩ := Table.get?_isSome_of_lt (h.bounded.gate (ok.gate g hg))
      obtain ⟨_, _, joined, heq⟩ := Joined.of_addJob hgate (.forward ρ.handler call)
      dsimp only
      rw [heq]
      exact .joined hρ hcell hg arrival joined
    | none =>
      obtain ⟨ps, ck, ds, ev, check, hb, made⟩ := w.beginCheck_eq cell.checker cell.origin
      rw [hb]
      let w₂ : World := { w with
        promises := ps.push { fallback := .error .jobSkipped }, checkers := ck, desks := ds, events := ev
        gates := w.gates.push {}
        tasks := w.tasks.push (.await check (.gate w.gates.size))
        clientHandlers := w.clientHandlers.modify k fun c => { c with gate := some w.gates.size }
        queue := w.queue ++ [w.tasks.size] }
      have added := addJob_eq (w := w₂) (g := w.gates.size) (Table.get?_push_size ..)
      have result : w₂.addJob w.gates.size (.forward ρ.handler call) ps.size =
          ({ w₂ with
            gates := w.gates.push { core := { queue := [(.forward ρ.handler call, ps.size)] } } },
            []) := by
        rw [added]
        refine Prod.ext ?_ rfl
        exact congrArg (fun gs => { w₂ with gates := gs }) (Table.modify_push_size ..)
      have happening := Happening.first (L := L) (q := w.queue ++ [w.tasks.size]) hρ hcell hd hg arrival hb made
      show Happening L w _ (w₂.addJob w.gates.size (.forward ρ.handler call) ps.size).1
        ((w₂.addJob w.gates.size (.forward ρ.handler call) ps.size).2 ++
          [.spawn (.await (.promise ps.size)
            (.respond ρ.channel (Service.response clientRequester) m.id))])
      rw [result]
      exact happening

variable {handler : Handler}

theorem Happening.of_abort {a : Action} {more : List Action} (scope detail : String)
    (cause : (∃ scope detail c, a = .violation .abort scope detail c) ∨
      ∃ c service v, a = .deliver c service v ∧ ∀ k, w.arrival? k c service v = none)
    (more_eq : more = [] ∨ ∃ s id, more = [.spawn (.await (.done .plain) (.respond far s id))]) :
    Happening L w (.action a) (w.abort scope detail) more := by
  have breach : ∀ text, Happening L w (.action a) { w with aborted := some text } more :=
    fun _ => .breach cause more_eq
  unfold abort
  cases ha : w.aborted with
  | none => exact breach _
  | some text =>
    have same := breach text
    rw [← ha] at same
    exact same

theorem Regular.happens_onRequest (h : Regular H L w) {v : Nat} (payload : Json)
    (hh : w.handlerOf c service = some (.requests v)) :
    Happening L w (.action (.deliver c service payload)) (w.onRequest v payload).1
      (w.onRequest v payload).2 := by
  obtain ⟨ω, hω, hc, rfl⟩ := h.orderly.service hh
  unfold World.onRequest
  cases hcell : w.receivers.get? v with
  | none =>
    refine .ignored (fun k => arrival?_of_not_serves ?_ _) (.refl w) (.inl rfl) rfl (.refl w)
    rw [serves_of_receiver hh, hcell]
    rfl
  | some cell =>
    obtain ⟨hchannel, hname, hserved⟩ := of_eq_some (h.orderly.receivers v cell hcell) hω
    cases hl : cell.live with
    | false =>
      simp only [hl, Bool.not_false, if_true]
      refine .ignored (fun k => arrival?_of_not_serves ?_ _) (.refl w) (.inl rfl) rfl (.refl w)
      rw [serves_of_receiver hh, hcell]
      cases hp : cell.provider <;> simp [hp, hl]
    | true =>
      simp only [hl, Bool.not_true, Bool.false_eq_true, if_false]
      cases hm : Request.ofJson? payload with
      | none =>
        have channel : cell.channel = c := by
          cases ω with
          | client =>
            obtain ⟨ρ, hρ, rfl⟩ := hc
            exact (of_eq_some hchannel hρ).symm
          | registry => exact Eq.trans hchannel (Eq.symm hc)
        exact .ignored (fun k => by simp [arrival?, hm]) (.refl w) (.inr ⟨_, _, _, by rw [channel]⟩) rfl
          (.refl w)
      | some m =>
        dsimp only
        cases ω with
        | client k =>
          obtain ⟨ρ, hρ, rfl⟩ := hc
          have heq := of_eq_some hchannel hρ
          obtain ⟨hprovider, -⟩ := hserved
          have serves : ∀ k', w.serves k' ρ.channel (Service.request clientRequester) =
              decide (k' = k) := by
            intro k'
            rw [← show (Window.client k).name = clientRequester from rfl,
              serves_of_receiver hh, hcell]
            grind
          rw [hprovider, hname, ← heq]
          cases hcall : Call.ofJson? m.payload with
          | none =>
            obtain ⟨client, hclient, ok⟩ := h.orderly.clients.of_lt (h.bounded.client hρ) hρ
            simp only [answerTo, World.handleClientRequest, hclient, ok.live, hcall, ok.channel,
              Bool.not_true, Bool.false_eq_true, if_false]
            refine .garbled hρ fun k' => ?_
            simp [arrival?, hm, hcall]
          | some =>
            refine h.happens_request hρ hcall fun k' => ?_
            unfold arrival?
            show (if w.serves k' ρ.channel (Service.request clientRequester) then _ else _) = _
            rw [serves k']
            simp [hm, hcall]
        | registry h' =>
          obtain rfl : c = far := hc
          have channel : cell.channel = far := hchannel
          obtain ⟨⟨_, hprovider⟩, -⟩ := hserved
          have none : ∀ k, w.arrival? k far (Service.request (Window.registry h').name) payload = none := by
            grind [arrival?_of_not_serves, serves_of_receiver]
          rw [hprovider, hname, channel]
          unfold answerTo
          dsimp only
          cases hcall : Call.ofJson? m.payload with
          | none => exact .of_abort _ _ (.inr ⟨_, _, _, rfl, none⟩) (.inr ⟨_, _, rfl⟩)
          | some => exact .asked none

theorem World.happens_arrive (payload : Json)
    (none : ∀ k, w.arrival? k far createHandler payload = none) :
    Happening L w (.action (.deliver far createHandler payload)) (w.arrive 0 payload) [] := by
  unfold arrive
  split
  · exact .ignored none (.refl w) (.inl rfl) rfl (.refl w)
  · next hcell =>
    split
    · exact .of_abort _ _ (.inr ⟨_, _, _, rfl, none⟩) (.inl rfl)
    · split
      · exact .of_abort _ _ (.inr ⟨_, _, _, rfl, none⟩) (.inl rfl)
      · exact .arrived hcell none

theorem World.happens_depart (payload : Json)
    (none : ∀ k, w.arrival? k far deleteHandler payload = none) :
    Happening L w (.action (.deliver far deleteHandler payload)) (w.depart 0 payload) [] := by
  unfold depart
  split
  · exact .ignored none (.refl w) (.inl rfl) rfl (.refl w)
  · split
    · exact .of_abort _ _ (.inr ⟨_, _, _, rfl, none⟩) (.inl rfl)
    · split
      · exact .of_abort _ _ (.inr ⟨_, _, _, rfl, none⟩) (.inl rfl)
      · dsimp only
        rw [releaseReceiver_eq]
        exact .departed none

theorem Regular.happens_deliver (h : Regular H L w) (c : Nat) (service : String) (payload : Json) :
    Happening L w (.action (.deliver c service payload)) (w.deliver c service payload).1
      (w.deliver c service payload).2 := by
  cases hh : w.handlerOf c service with
  | none =>
    have same : w.deliver c service payload = (w, []) := by
      unfold World.handlerOf at hh
      simp only [World.deliver, hh]
    rw [same]
    exact .ignored (fun k => arrival?_of_not_serves (serves_of_handler hh nofun k) _)
      (.refl w) (.inl rfl) rfl (.refl w)
  | some handler =>
    have ok := h.orderly.service hh
    have none : (∀ v, handler ≠ .requests v) → ∀ k, w.arrival? k c service payload = none :=
      fun hn k => arrival?_of_not_serves
        (serves_of_handler hh (fun v hv => hn v (Option.some.inj hv)) k) _
    have hh' := hh
    unfold World.handlerOf at hh'
    simp only [World.deliver, hh']
    cases handler with
    | responses =>
      obtain ⟨_, hℓ, rfl, rfl⟩ := ok
      exact h.happens_onResponse payload hℓ (none nofun)
    | requests => exact h.happens_onRequest payload hh
    | readiness _ =>
      dsimp only
      split
      · unfold World.settleTracker
        rw [wake_eq]
        exact .ignored (none nofun) { Calm.refl w with outgoing := fun _ => rfl } (.inl rfl) rfl
          ⟨rfl, rfl, rfl, fun _ => rfl⟩
      · exact .ignored (none nofun) (.refl w) (.inl rfl) rfl (.refl w)
    | arrivals =>
      obtain ⟨rfl, rfl, rfl⟩ := ok
      dsimp only
      split
      · exact happens_arrive payload (none nofun)
      · exact .ignored (none nofun) (.refl w) (.inl rfl) rfl (.refl w)
    | departures =>
      obtain ⟨rfl, rfl, rfl⟩ := ok
      dsimp only
      split
      · exact happens_depart payload (none nofun)
      · exact .ignored (none nofun) (.refl w) (.inl rfl) rfl (.refl w)
    | observer =>
      obtain ⟨rfl, -⟩ := ok
      exact .ignored (none nofun) { Calm.refl w with outgoing := fun _ => rfl } (.inl rfl) rfl
        ⟨rfl, rfl, rfl, fun _ => rfl⟩
    | pongs | pings => exact absurd ok id

/-- Carrying out an action of the agenda changes a regular world in one of the ways listed. -/
theorem Regular.happens_perform (h : Regular H L w) {a : Action} (ha : ActionOk H L a) :
    Happening L w (.action a) (w.perform a).1 (w.perform a).2 := by
  cases a with
  | deliver c service payload => exact h.happens_deliver c service payload
  | closeChannel c => exact h.happens_closeChannel c
  | closeCore c => exact happens_closeCore c
  | runHook => exact h.happens_runHook ha
  | closeServerHandler h' => exact h.happens_closeServerHandler h'
  | closeClientHandler k => exact h.happens_closeClientHandler k
  | releaseReceiver v => exact happens_releaseReceiver v
  | violation policy scope detail =>
    cases policy with
    | abort => exact .of_abort scope detail (.inl ⟨_, _, _, rfl⟩) (.inl rfl)
    | disposeChannel => exact .calm rfl (.refl w) (.single rfl id) (.inl rfl) rfl (.refl nofun nofun)
  | flush g => exact happens_flush g
  | dispatchNext g => exact happens_dispatchNext g
  | invoke job =>
    cases job with
    | forward => exact h.happens_forward ha
    | post => exact h.happens_post ha
    | scripted =>
      obtain ⟨γ, job, -⟩ := ha
      cases γ with
      | permission =>
        obtain ⟨_, _, _, _, -, heq, -⟩ := job
        exact absurd heq nofun
      | readiness =>
        obtain ⟨_, _, -, heq, -⟩ := job
        exact absurd heq nofun
  | guardChannel c hook => exact happens_guardChannel c hook
  | spawn => exact .spawned
  | pumpNext p second => exact happens_pumpNext p second
  | nested | log | cancelStream | track | readNext | frame | readOn | finishReader | writeNext
  | pingNext | bind => exact absurd ha id

/-! ## Tasks -/

namespace World

/-- The tables as they are. -/
def sight (w : World) : Sight := ⟨w.desks, w.events, w.queue, w.waiting, w.promises, w.tasks⟩

theorem Glance.refl (w : World) : Glance w w.sight := ⟨.refl _, .inl rfl, [], rfl⟩

/-- One world is what is seen of another. -/
def Glanced (w w' : World) : Prop := ∃ s, Glance w s ∧ w' = w.seen s

theorem Glanced.refl (w : World) : Glanced w w := ⟨w.sight, .refl w, rfl⟩

theorem Glanced.afterLook {d : Nat} {result : Desk × List Errand × Option (Except Fault Unit)} {w : World}
    (same : ∀ cell, w.desks.get? d = some cell → result.1.checks.size = cell.desk.checks.size)
    (label : String) : Glanced w (w.afterLook d label result).1 := by
  obtain ⟨desk, errands, _⟩ := result
  -- Errands show or close prompts, and have grants stored.
  suffices run : ∀ (es : List Errand) (s : Sight), Glance w s →
      Glanced w (es.foldl (fun acc e => acc.runErrand d label e) (w.seen s)) by
    obtain ⟨s, glance, heq⟩ := run errands (w.setDesk d desk).sight ⟨.modify same, .inl rfl, [], rfl⟩
    replace heq : errands.foldl (fun acc e => acc.runErrand d label e) (w.setDesk d desk) = w.seen s := heq
    unfold World.afterLook
    dsimp only
    split
    · exact ⟨s, glance, heq⟩
    · rw [heq, wake_eq]
      exact ⟨⟨s.desks, s.events, (wake (.desk d) (w.seen s)).queue, s.waiting, s.promises, s.tasks⟩,
        { glance with }, rfl⟩
  intro es
  induction es with
  | nil => exact fun s glance => ⟨s, glance, rfl⟩
  | cons e _ ih =>
    rintro s ⟨hds, hps, grants, hts⟩
    cases e with
    | display | close => exact ih ⟨s.desks, _, s.queue, s.waiting, s.promises, s.tasks⟩ ⟨hds, hps, grants, hts⟩
    | store origin =>
      refine ih ⟨s.desks, s.events, _, s.waiting, s.promises, s.tasks.push (.storeGrant d origin)⟩
        ⟨hds, hps, grants ++ [(d, origin)], ?_⟩
      simp [hts]

theorem Glanced.lookAt {f : Future} (hf : Plain L f) (w : World) : Glanced w (w.lookAt f).1 := by
  obtain (⟨_, rfl⟩ | ⟨_, _, rfl⟩ | ⟨p, rfl, -⟩) | ⟨s, rfl⟩ | ⟨p, rfl⟩ | ⟨_, _, rfl⟩ := hf
  · exact .refl w
  · exact .refl w
  · exact .refl w
  · cases s with
    | always => exact .refl w
    | tracker =>
      unfold World.lookAt
      dsimp only
      split
      · exact .refl w
      · split <;> exact .refl w
  · exact .refl w
  · unfold World.lookAt
    dsimp only
    split
    · exact .refl w
    · next cell hcell =>
      refine .afterLook (fun cell' hcell' => ?_) _
      cases hcell.symm.trans hcell'
      exact Desk.size_checks_look ..

/-- What looking at a job that has been begun changes. -/
theorem Glanced.begin (script : Script) (w : World) :
    Glanced w ((w.begin script).1.lookAt (w.begin script).2).1 := by
  cases script with
  | wait => exact ⟨⟨w.desks, w.events, w.queue, _, _, w.tasks⟩, ⟨.refl _, .inr ⟨_, rfl⟩, [], rfl⟩, rfl⟩
  | _ => exact .refl w

theorem Glanced.look_dispatch (b h : Nat) (call : Call) (w : World) :
    Glanced w (w.look (.dispatch b h call)).1 := by
  cases hb : w.backends.get? b with
  | none =>
    rw [World.look_dispatch_none hb]
    exact .refl w
  | some =>
    rw [World.look_dispatch hb]
    exact .begin _ w

end World

variable {f : Future}

theorem Regular.glanced (h : Regular H L w) {κ : Continuation}
    (ht : w.tasks.get? t = some (.await f κ)) : Glanced w (w.look f).1 := by
  have ok : TaskOk H L (.await f κ) := h.orderly.tasks t _ ht
  have plain : Plain L f → Glanced w (w.look f).1 := fun hf => by
    rw [look_of_plain hf]
    exact .lookAt hf w
  cases κ with
  | resolve => exact plain (LinkOk.plain ok)
  | gate =>
    obtain ⟨_, -, hf⟩ := ok
    exact plain hf.plain
  | respond =>
    obtain hf | ⟨b, h', call, rfl, -⟩ := AnswerOk.cases ok
    · exact plain hf
    · exact .look_dispatch b h' call w
  | report => exact absurd ok id

theorem Regular.happens_gate (h : Regular H L w) {g : Nat} {f' : Future} {s : Sight} {r : Settled}
    (ht : w.tasks.get? t = some (.await f (.gate g))) (hm : w.isMoot (.gate g) = false)
    (hlook : w.look f = (w.seen s, f', some r)) (glance : Glance w s) :
    Happening L w (.task t) (((w.seen s).finishTask t).continueWith (.gate g) t r).1
      (((w.seen s).finishTask t).continueWith (.gate g) t r).2 := by
  let w₂ : World := { w.seen s with tasks := s.tasks.modify t fun _ => .finished }
  have past : (∀ cell, w₂.gates.get? g = some cell → cell.core.phase = .waiting → cell.live = false) →
      Happening L w (.task t) w₂ [] := fun hn => by
    refine .finished (b := w.backends) ht glance (fun f' _ heq => ?_) glance.desks
    obtain ⟨rfl, rfl⟩ := Task.await.inj heq
    refine ⟨g, rfl, .inr ⟨r, by rw [hlook], fun cell hcell hp => ?_⟩⟩
    obtain ⟨γ, -, ok⟩ := h.orderly.gates g cell hcell
    cases ok.live.symm.trans (hn cell hcell hp)
  show Happening L w (.task t) (w₂.continueWith (.gate g) t r).1 (w₂.continueWith (.gate g) t r).2
  rw [continueWith_gate]
  cases ho : outcomeOf r with
  | ok =>
    obtain ⟨hn, heq⟩ | ⟨cell, hcell, hp, -, heq⟩ := openGate_cases w₂ g
    · rw [heq]
      exact past hn
    · rw [heq]
      exact .opened ht hm hlook glance ho hcell hp
  | error e =>
    dsimp only
    have unscripted : ∀ cell label script, w₂.gates.get? g = some cell →
        cell.onRejected ≠ some (.scripted label script) := by
      intro cell label script hcell hrej
      obtain ⟨γ, -, ok⟩ := h.orderly.gates g cell hcell
      obtain ⟨_, -, hj⟩ := ok.rejection _ hrej
      cases hj
    obtain ⟨hn, heq⟩ | ⟨cell, _, _, hcell, hp, -, hmore, heq⟩ := failGate_cases w₂ g e unscripted
    · rw [heq]
      exact past hn
    · rw [heq]
      refine .failed ht hm glance hcell hp ?_ fun _ _ _ => ?_
      · obtain ⟨rfl, -⟩ | ⟨_, -, rfl⟩ := hmore
        · exact .nil _
        · exact .single rfl (by rintro ⟨⟩)
      · grind [seen]

theorem Regular.happens_respond (h : Regular H L w) {id : Nat} {f' : Future}
    {s : Sight} {r : Settled} (ht : w.tasks.get? t = some (.await f (.respond c service id)))
    (hlook : w.look f = (w.seen s, f', some r)) (glance : Glance w s) :
    Happening L w (.task t) (((w.seen s).finishTask t).continueWith (.respond c service id) t r).1
      (((w.seen s).finishTask t).continueWith (.respond c service id) t r).2 := by
  have hopen : ((w.seen s).finishTask t).isOpen c = w.isOpen c := rfl
  have wired : ((w.seen s).finishTask t).Wired := ⟨h.orderly.transport, h.orderly.ends, h.orderly.size⟩
  simp only [continueWith, hopen]
  cases ho : w.isOpen c with
  | true =>
    obtain ⟨q, hq⟩ := send_of_open wired (hopen.trans ho) service
      (responseTo id (outcomeOf r)).toJson
    unfold sendQuietly
    rw [hq]
    exact .answered (q := q) ht hlook glance ho
  | false =>
    exact .muted ht hlook glance ho

/-- Letting a task go on changes a regular world in one of the ways listed. -/
theorem Regular.happens_poll (h : Regular H L w) (t : Nat) :
    Happening L w (.task t) (w.poll t).1 (w.poll t).2 := by
  cases ht : w.tasks.get? t with
  | none =>
    simp only [World.poll, ht]
    exact .calm rfl (.refl w) (.nil _) (.inl rfl) (fun f κ hf => (by cases ht.symm.trans hf))
      (.refl (by rintro _ _ ⟨⟩) (by rintro _ ⟨⟩))
  | some task =>
    have ok := h.orderly.tasks t task ht
    cases task with
    | finished =>
      simp only [World.poll, ht]
      exact .calm rfl (.refl w) (.nil _) (.inl rfl) (fun f κ hf => (by cases ht.symm.trans hf))
        (.refl (by rintro _ _ ⟨⟩) (by rintro _ ⟨⟩))
    | pump =>
      simp only [World.poll, ht]
      exact .pumping ht
    | storeGrant =>
      simp only [World.poll, ht]
      refine .finished (b := w.backends) ht (.refl w) (by rintro _ _ ⟨⟩) (.modify fun cell hcell => ?_)
      rw [hcell]
      show (cell.desk.storeGrant _).checks.size = _
      unfold Desk.storeGrant
      split <;> rfl
    | backendCreated | backendDeleted =>
      simp only [World.poll, ht]
      exact .finished ht (.refl w) (by rintro _ _ ⟨⟩) (.refl _)
    | await f κ =>
      cases hm : w.isMoot κ with
      | true =>
        simp only [World.poll, ht, hm, if_true]
        refine .finished (b := w.backends) ht (.refl w) (fun f' _ heq => ?_) (.refl _)
        obtain ⟨rfl, rfl⟩ := Task.await.inj heq
        cases κ with
        | gate g => exact ⟨g, rfl, .inl hm⟩
        | report | resolve | respond => cases hm
      | false =>
        obtain ⟨s, glance, hs⟩ := h.glanced ht
        rw [poll_await ht hm]
        obtain ⟨⟨w₁, f', result⟩, hlook⟩ : ∃ looked, w.look f = looked := ⟨_, rfl⟩
        rw [hlook] at hs ⊢
        obtain rfl : w₁ = w.seen s := hs
        cases result with
        | none => exact .waited ht hm hlook glance
        | some r =>
          cases κ with
          | gate => exact h.happens_gate ht hm hlook glance
          | resolve p =>
            show Happening L w (.task t) (((w.seen s).finishTask t).resolve p (outcomeOf r)) []
            rw [resolve_eq]
            exact .resolved ht hlook glance
          | respond => exact h.happens_respond ht hlook glance
          | report => exact absurd ok id
    | readLoop | writeLoop | pingLoop | rawRead | rawWrite => exact absurd ok id

/-! ## Owners -/

theorem World.newClientHandler_eq (hw : w.Wired) (c : Nat) (s : ReadinessSource)
    (origin : Option String) (checker : CheckerRef) :
    ∃ (handler : ServerHandlerCell) (gate : GateCell) (ps : Table Promise) (q : List Nat),
      MoreKept w.promises ps ∧ handler.requester = none ∧
      (gate = freshGate w.serverHandlers.size ∨
        gate = shutGate (freshGate w.serverHandlers.size)) ∧
      (handler.disposed = true ↔ gate.core.phase = .disposed) ∧
      Manned w handler [.clientHandler w.clientHandlers.size] ∧
      w.newClientHandler c near s origin checker =
        ({ w with
          serverHandlers := w.serverHandlers.push handler
          clientHandlers := w.clientHandlers.push (freshClient w c s origin checker)
          gates := w.gates.push gate
          receivers := w.receivers.push (clientWindow c w.clientHandlers.size)
          tasks := w.tasks.push (.await (.readiness s) (.gate w.gates.size))
          channels :=
            (w.channels.modify near (hooked (.serverHandler w.serverHandlers.size))).modify c
              (registered (Service.request clientRequester) (.requests w.receivers.size))
          promises := ps, queue := q },
          (if handler.disposed then [Action.runHook (.clientHandler w.clientHandlers.size)] else []) ++
            [Action.guardChannel c (.clientHandler w.clientHandlers.size)], w.clientHandlers.size) := by
  obtain ⟨cell, gate, ps, q, kept, hcell, heq⟩ :=
    newServerHandler_cases hw near s (Origin.clientName origin)
  have made : (w.serverHandlers.push cell).get? w.serverHandlers.size = some cell :=
    Table.get?_push_size ..
  unfold newClientHandler
  rw [heq]
  unfold newReceiver
  dsimp only [register, modifyChannel]
  rw [made]
  simp only [Option.any_some]
  obtain ⟨key, hkey, rfl, rfl⟩ | ⟨closed, rfl, hd, hr, hk⟩ := hcell
  · refine ⟨{ freshHandler w.serverHandlers.size near w.gates.size key (Origin.clientName origin) with
        hooks := [.clientHandler w.clientHandlers.size] },
      freshGate w.serverHandlers.size, ps, q, kept, rfl, .inl rfl, ⟨nofun, nofun⟩,
      .inl ⟨key, Origin.clientName origin, hkey, rfl⟩, Prod.ext ?_ rfl⟩
    exact congrArg (fun hs => ({ w with
      serverHandlers := hs
      clientHandlers := w.clientHandlers.push (freshClient w c s origin checker)
      gates := w.gates.push (freshGate w.serverHandlers.size)
      receivers := w.receivers.push (clientWindow c w.clientHandlers.size)
      tasks := w.tasks.push (.await (.readiness s) (.gate w.gates.size))
      channels :=
        (w.channels.modify near (hooked (.serverHandler w.serverHandlers.size))).modify c
          (registered (Service.request clientRequester) (.requests w.receivers.size))
      promises := ps, queue := q } : World)) (Table.modify_push_size ..)
  · refine ⟨cell, _, ps, q, kept, hr, .inr rfl, ⟨fun _ => rfl, fun _ => hd⟩, .inr ⟨closed, hd, hk⟩, ?_⟩
    rw [if_pos hd]
    rfl

/-- What a happening does to the channels: they keep their shapes, one of them is shut and its hooks are
to run, or a pair of them is added. -/
theorem Happening.channels {w' : World} {κ : Cause} {more : List Action} (hap : Happening L w κ w' more) :
    SameShape w.channels w'.channels ∨
      (∃ c ch core, core.services = [] ∧ w.channels.get? c = some ch ∧
        more = (ch.core.hooks.map Prod.snd).map .runHook ∧
        w'.channels = w.channels.modify c fun ch => { ch with core }) ∨
      ∃ a b, w'.channels = (w.channels.push a).push b := by
  have still : w'.channels = w.channels → SameShape w.channels w'.channels := fun same => same ▸ .refl _
  cases hap with
  | calm _ calm | ignored _ calm => exact .inl calm.shape
  | arrived => exact .inl (.registered _ _ _ _)
  | departed => exact .inl (.withdrawn w _)
  | admitted => exact .inl (.trans (.hooked _ _ _) (.registered _ _ _ _))
  | attached => exact .inl (.hooked _ _ _)
  | enlisted shape => exact .inl shape
  | shutCore channel => exact .inr (.inl ⟨_, _, _, rfl, channel, rfl, rfl⟩)
  | @shutHandler _ cell => exact .inl (.parted w cell)
  | announced => exact .inl (.listening _ _ _ _)
  | connected => exact .inr (.inr ⟨_, _, rfl⟩)
  | _ => exact .inl (still rfl)

variable (h : Regular H L w)
include h

theorem Regular.happens_accept (c : Nat) (s : ReadinessSource)
    (origin : Option String) (checker : CheckerRef) :
    Happening L w (.owner (.accept c s origin checker)) (w.newClientHandler c near s origin checker).1
      (w.newClientHandler c near s origin checker).2.1 := by
  obtain ⟨handler, gate, ps, q, kept, hr, hgate, shut, manned, heq⟩ :=
    newClientHandler_eq h.orderly.wired c s origin checker
  rw [heq]
  have chores : (Cause.owner (.accept c s origin checker)).Chores
      ((if handler.disposed then [.runHook (.clientHandler w.clientHandlers.size)] else []) ++
        [.guardChannel c (.clientHandler w.clientHandlers.size)]) := by
    split
    · exact .cons rfl nofun (.single rfl nofun)
    · exact .single rfl nofun
  exact .admitted kept hr hgate shut chores manned rfl

theorem Regular.happens_enlist (hc : w.canEnlist c = true) (policy : Policy) :
    Happening L w (.owner (.enlist c policy)) (w.newRequester clientRequester c policy).1 [] := by
  obtain ⟨ch, hch⟩ : ∃ ch, w.channels.get? c = some ch := by
    have served := hc
    simp only [canEnlist, Bool.and_eq_true, Table.any_cells] at served
    obtain ⟨⟨-, k, cell, hcell, channel⟩, -⟩ := served
    obtain ⟨_, hρ, ok⟩ := h.orderly.clients k cell hcell
    have bound := h.bounded.channel hρ
    rw [← ok.channel, beq_iff_eq.mp channel] at bound
    exact Table.get?_isSome_of_lt (Nat.lt_of_succ_lt bound)
  cases hd : ch.core.disposed with
  | false =>
    rw [newRequester_of_open hch hd]
    exact .enlisted (.listening _ _ _ _) hc rfl ⟨ch, hch, .inl ⟨hd, rfl, rfl⟩⟩
  | true =>
    obtain ⟨_, f, hf, heq⟩ := newRequester_of_closed hch hd clientRequester policy
    rw [heq]
    exact .enlisted (.modify _ _ (fun ch => (hf ch).1) fun ch => (hf ch).2.1) hc rfl
      ⟨ch, hch, .inr ⟨hd, rfl, f, rfl, (hf ch).1.trans hd, (hf ch).2.2 hd⟩⟩

theorem Regular.happens_clientPost {r : Nat} (hr : w.isClients r = true)
    (call : Call) : Happening L w (.owner (.post r call)) (w.post r call.toJson).1 [] := by
  have idle : Happening L w (.owner (.post r call)) w [] :=
    .calm rfl (.refl w) (.nil _) (.inl rfl) trivial (.refl nofun nofun)
  obtain ⟨-, heq⟩ | ⟨cell, hcell, hrest⟩ := post_cases h.orderly.wired r call.toJson
  · rw [heq]
    exact idle
  · obtain ⟨c, hℓ, ok⟩ := h.line_of_isClients hr hcell
    have channel : cell.channel = c := ok.channel
    have name : cell.core.name = clientRequester := ok.name
    rw [channel, name] at hrest
    obtain ⟨-, heq⟩ | ⟨hd, ho, q, heq⟩ | ⟨hd, ho, t, q, -, heq⟩ := hrest
    · rw [heq]
      exact idle
    · rw [heq, World.requeue_emit]
      unfold World.requeue World.setCore World.promise
      exact .requested (o := .error cell.core.gaveUp) (q := q) hℓ hcell ho
    · rw [heq]
      unfold World.requeue World.keep World.setCore World.promise
      exact .unrequested (o := .error cell.core.gaveUp) hℓ ho (.modify _ t fun _ => ⟨_, rfl⟩)

/-- Calling a function of an owner changes a regular world in one of the ways listed. -/
theorem Regular.happens_apply (m : Move) : Happening L w (.owner m) (m.apply w).1 (m.apply w).2 := by
  have idle : Happening L w (.owner m) w [] :=
    .calm rfl (.refl w) (.nil _) (.inl rfl) trivial (.refl nofun nofun)
  unfold Move.apply
  cases m with
  | proceed | poll | tick => exact idle
  | connect => exact .connected
  | accept c s origin checker =>
    dsimp only
    split
    · exact h.happens_accept c s origin checker
    · exact idle
  | enlist c policy =>
    dsimp only
    split
    · next hc => exact h.happens_enlist hc policy
    · exact idle
  | post r call =>
    dsimp only
    split
    · next hr => exact h.happens_clientPost hr call
    · exact idle
  | send c service payload =>
    dsimp only
    split
    · next hc =>
      unfold sendQuietly
      cases ho : w.isOpen c with
      | true =>
        obtain ⟨q, hq⟩ := send_of_open h.orderly.wired ho service payload
        rw [hq]
        exact .injected (q := q) hc ho
      | false =>
        rw [send_of_closed ho]
        exact idle
    · exact idle
  | attach s name =>
    obtain ⟨cell, gate, ps, q, kept, hcell, heq⟩ :=
      newServerHandler_cases h.orderly.wired near s name
    dsimp only
    rw [heq]
    obtain ⟨key, hkey, rfl, rfl⟩ | ⟨closed, rfl, hd, hr, hk⟩ := hcell
    · exact .attached kept rfl (.inl rfl) ⟨nofun, nofun⟩ (.inl ⟨key, name, hkey, rfl⟩)
    · exact .attached kept hr (.inr rfl) ⟨fun _ => rfl, fun _ => hd⟩ (.inr ⟨closed, hd, hk⟩)
  | handle h' call =>
    dsimp only
    split
    · next cell hcell =>
      split
      · exact idle
      · next howned =>
        obtain ⟨_, hη, _⟩ := h.orderly.handlers h' cell hcell
        obtain ⟨_, gate, hcell', -, hgate⟩ := h.handler_exists hη
        cases hcell.symm.trans hcell'
        obtain ⟨_, _, joined, heq⟩ := Joined.of_addJob hgate (.post h' call)
        rw [heq]
        exact .handled hcell (by simpa using howned) joined
    · exact idle
  | close => exact .calm rfl (.refl w) (.single rfl id) (.inl rfl) trivial (.refl nofun nofun)
  | closeClient | closeHandler =>
    exact .calm rfl (.refl w) (.single rfl nofun) (.inl rfl) trivial (.refl nofun nofun)
  | closeRequester r =>
    dsimp only
    split
    · next hr =>
      refine .calm rfl (.of_disposeRequester fun cell hcell hn => ?_) (.nil _) (.inl ?_) trivial
        (.inr ⟨hr, rfl⟩)
      · simp [isClients, hcell, hn] at hr
      · obtain ⟨ps, q, -, heq⟩ := disposeRequester_eq r w
        rw [heq]
    · exact idle
  | settle _ _ =>
    dsimp only
    split
    · rw [resolve_eq]
      exact .calm rfl { Calm.refl w with
        outgoing := fun _ => rfl, promises := .modify _ _ fun _ => ⟨_, rfl⟩ } (.nil _) (.inl rfl) trivial
        ⟨rfl, rfl, rfl, fun _ => rfl⟩
    · exact idle
  | hire =>
    refine .calm rfl { Calm.refl w with outgoing := fun _ => rfl, checkers := fun hj => ?_ } (.nil _)
      (.inl rfl) trivial ⟨rfl, rfl, rfl, fun _ => rfl⟩
    exact (Table.get?_push_of_lt (Table.lt_size_of_get? hj) _).trans hj
  | install =>
    refine .calm rfl { Calm.refl w with outgoing := fun _ => rfl, desks := fun _ cell hd => ?_ } (.nil _)
      (.inl rfl) trivial ⟨rfl, rfl, rfl, fun _ => rfl⟩
    exact ⟨cell, (Table.get?_push_of_lt (Table.lt_size_of_get? hd) _).trans hd, rfl⟩
  | revise _ _ =>
    dsimp only
    rw [wake_eq]
    exact .revised
  | forgo =>
    rw [wake_eq]
    exact .calm rfl { Calm.refl w with outgoing := fun _ => rfl } (.nil _) (.inl rfl) trivial
      ⟨rfl, rfl, rfl, fun _ => rfl⟩
  | observe service label =>
    exact .calm rfl { Calm.refl w with outgoing := fun _ => rfl, shape := .registered _ _ _ _ }
      (.nil _) (.inl rfl) trivial (.inr rfl)
  | watch label =>
    dsimp only
    rw [guardChannel_eq]
    exact .calm rfl (.hooked near _ w) .guard (.inl rfl) trivial (.inr rfl)

end Switchboard
