import Switchboard.Proofs.Effects
import Switchboard.Proofs.Ledger

/-!
# Orderly worlds

A world is orderly when every object does what a ledger says it is for. The conditions on an object
speak of the ledger and of the run so far, never of other objects, so that changing one object cannot
spoil another. They hold of every later ledger too, apart from four that say that what the ledger notes
is so.

The second half shows that the basic functions of a world keep it orderly.
-/

namespace Switchboard

open Exchange History

/-- Whether a gate waits for what a task waits for. -/
def Task.isGates : Task → Bool
  | .await _ (.gate _) => true
  | _ => false

/-! ## Conditions on objects -/

section Conditions

variable (H : History) (L : Ledger)

def ServiceOk (c : Nat) (service : String) : Handler → Prop
  | .responses r => ∃ ℓ, L.requester r = some ℓ ∧ ℓ.channel = c ∧ service = Service.response ℓ.name
  | .requests v => ∃ ω, L.receiver v = some ω ∧ L.WindowAt ω c ∧ service = Service.request ω.name
  | .readiness _ => c = near ∧ service = Service.serverReady
  | .arrivals g => g = 0 ∧ c = far ∧ service = Service.createHandler
  | .departures g => g = 0 ∧ c = far ∧ service = Service.deleteHandler
  | .observer _ _ script => script = [] ∧ c = near ∧ ∀ n, service ≠ Service.response n
  | _ => False

def HookOk (c : Nat) : Hook → Prop
  | .requester r => ∃ ℓ, L.requester r = some ℓ ∧ ℓ.channel = c
  | .tracker _ => c = near
  | .serverHandler h => c = near ∧ ∃ η, L.handler h = some η
  | .clientHandler k => ∃ ρ, L.client k = some ρ ∧ ρ.channel = c
  | .registry g => g = 0 ∧ c = far
  | .observer _ _ script => script = [] ∧ c = near
  | _ => False

structure ChannelOk (c : Nat) (core : ChannelCore Handler Hook) : Prop where
  services : ∀ e ∈ core.services, ServiceOk L c e.1 e.2
  hooks : ∀ e ∈ core.hooks, HookOk L c e.2
  closed : core.disposed = true → L.closed c

structure RequesterAt (r : Nat) (ℓ : Line) (cell : RequesterCell) : Prop where
  channel : cell.channel = ℓ.channel
  name : cell.core.name = ℓ.name
  policy : ∀ h, ℓ = .server h → cell.policy = .abort
  pending : ∀ e ∈ cell.core.pending, e.1 < cell.core.nextId ∧ L.Ticket r ℓ e.1 e.2

def RequesterOk (r : Nat) (cell : RequesterCell) : Prop :=
  ∃ ℓ, L.requester r = some ℓ ∧ RequesterAt L r ℓ cell

def Served : Window → ReceiverCell → Prop
  | .client k, cell => cell.provider = .client k ∧ cell.policy = .disposeChannel
  | .registry h, cell => (∃ b, cell.provider = .backend b h) ∧ cell.policy = .abort

def ReceiverOk (v : Nat) (cell : ReceiverCell) : Prop :=
  ∃ ω, L.receiver v = some ω ∧ L.WindowAt ω cell.channel ∧ cell.name = ω.name ∧ Served ω cell

def JobAt : GateRole → Job → Nat → Prop
  | .permission k, job, t => ∃ ρ call n id, L.client k = some ρ ∧ job = .forward ρ.handler call ∧
      L.promise t = some (.job k n) ∧ H.Arrived k n id call
  | .readiness h, job, t => ∃ η call, L.handler h = some η ∧ job = .post h call ∧
      match η.owner with
      | some k => H.Granted k ∧ ∃ n id, L.promise t = some (.entry k n) ∧ H.Arrived k n id call
      | none => L.promise t = some .free

def PhaseAt : GateRole → GatePhase → Prop
  | _, .waiting => True
  | .permission k, .ready => H.Granted k
  | .permission k, .failed e => H.verdict k (.error e)
  | .permission k, .disposed => L.leaving k
  | .readiness h, .ready => ∃ η, L.handler h = some η ∧ L.ready η.source
  | .readiness _, .failed e => ∃ reason, e = .notReady reason
  | .readiness _, .disposed => True

structure GateAt (γ : GateRole) (cell : GateCell) : Prop where
  live : cell.live = true
  phase : PhaseAt H L γ cell.core.phase
  queue : ∀ e ∈ cell.core.queue, JobAt H L γ e.1 e.2
  rejection : ∀ j, cell.onRejected = some j → ∃ h, γ = .readiness h ∧ j = .serverHandler h
  watched : ∀ h, γ = .readiness h → cell.core.phase = .waiting → cell.onRejected = some (.serverHandler h)

def GateOk (g : Nat) (cell : GateCell) : Prop := ∃ γ, L.gate g = some γ ∧ GateAt H L γ cell

structure HandlerAt (h : Nat) (η : HandlerRole) (cell : ServerHandlerCell) : Prop where
  id : cell.id = h
  channel : cell.channel = near
  gate : cell.gate = η.gate
  live : cell.live = true
  hooks : ∀ hook ∈ cell.hooks, ∃ k, hook = .clientHandler k ∧ η.owner = some k
  requester : ∀ r, cell.requester = some r → L.requester r = some (.server h)
  gone : cell.channelGone = true → L.closed near

def HandlerOk (h : Nat) (cell : ServerHandlerCell) : Prop :=
  ∃ η, L.handler h = some η ∧ HandlerAt L h η cell

structure ClientAt (k : Nat) (ρ : ClientRole) (cell : ClientHandlerCell) : Prop where
  channel : cell.channel = ρ.channel
  handler : cell.serverHandler = ρ.handler
  readiness : ∃ η, L.handler ρ.handler = some η ∧ cell.readiness = η.source
  live : cell.live = true
  gate : ∀ g, cell.gate = some g → L.gate g = some (.permission k)
  receiver : ∀ v, cell.receiver = some v → L.receiver v = some (.client k)
  disposed : cell.disposed = true → L.leaving k

def ClientOk (k : Nat) (cell : ClientHandlerCell) : Prop :=
  ∃ ρ, L.client k = some ρ ∧ ClientAt L k ρ cell

structure RegistryOk (g : Nat) (cell : RegistryCell) : Prop where
  channel : cell.channel = far
  live : cell.live = true
  entries : ∀ e ∈ cell.entries, L.receiver e.2 = some (.registry e.1)

def TrackerOk (cell : TrackerCell) : Prop :=
  ∀ e, cell.state = .failed e → ∃ reason, e = .notReady reason

def Fallback : Role → Outcome → Prop
  | .free, _ => True
  | .reply _ _, o => o = .error (.requesterDisposed Service.clientRequester)
  | .job _ _, o => o = .error .jobSkipped
  | .entry _ _, o => o = .error .jobSkipped
  | .call k _, o => ∃ ρ, L.client k = some ρ ∧
      o = .error (.requesterDisposed (Service.callFunction ρ.handler))

def Kept : Role → Outcome → Prop
  | .free, _ => True
  | .reply r i, o => ∃ c, L.requester r = some (.client c) ∧ H.Replied c i o
  | .job k n, o => ∃ ρ, L.client k = some ρ ∧
      ((∃ e, H.verdict k (.error e) ∧ o = .error e) ∨ (H.Granted k ∧ H.Faithful ρ.handler n o) ∨
        (L.leaving k ∧ o = .error .jobSkipped))
  | .entry k n, o => ∃ ρ, L.client k = some ρ ∧ H.Faithful ρ.handler n o
  | .call k n, o => ∃ ρ, L.client k = some ρ ∧ H.Faithful ρ.handler n o

structure PromiseAt (ρ : Role) (cell : Promise) : Prop where
  fallback : Fallback L ρ cell.fallback
  outcome : ∀ o, cell.outcome = some o → Kept H L ρ o

def PromiseOk (p : Nat) (cell : Promise) : Prop := ∃ ρ, L.promise p = some ρ ∧ PromiseAt H L ρ cell

def Begun (f : Future) : Prop :=
  (∃ r, f = .done r) ∨ (∃ t ms, f = .sleep t ms) ∨ ∃ p, f = .promise p ∧ L.promise p = some .free

def GateFuture : GateRole → Future → Prop
  | .readiness h, f => ∃ η, L.handler h = some η ∧ f = .readiness η.source
  | .permission _, f => Begun L f ∨ ∃ d c, f = .check d c

def LinkOk (f : Future) (q : Nat) : Prop :=
  (∃ k n, L.promise q = some (.entry k n) ∧
    ((∃ p, f = .promise p ∧ L.promise p = some (.call k n)) ∨
      ∃ e ρ, f = .done (.outcome (.error e)) ∧ L.client k = some ρ ∧ Local ρ.handler e)) ∨
  (∃ p k n, f = .promise p ∧ L.promise p = some (.entry k n) ∧ L.promise q = some (.job k n) ∧
    H.Granted k) ∨
  (L.promise q = some .free ∧ Begun L f)

/-- The future whose outcome the server reports to handler `h` under a number. -/
def ServerAnswer (h id : Nat) (f : Future) : Prop :=
  (∃ b call, f = .dispatch b h call ∧ H.Asked h id call) ∨ Begun L f

/-- A fault with which a client handler that is about to go refuses a request. -/
def Refusal (e : Fault) : Prop := e = .handlerDisposed ∨ ∃ text, e = .invalidPayload text

def ClientAnswer (k c id : Nat) (f : Future) : Prop :=
  (∃ p n call, f = .promise p ∧ L.promise p = some (.job k n) ∧ H.Arrived k n id call) ∨
  (L.doomed c ∧ ∃ e, f = .done (.outcome (.error e)) ∧ Refusal e)

def AnswerOk (f : Future) (c : Nat) (service : String) (id : Nat) : Prop :=
  (c = far ∧ ∃ h, service = Service.response (Service.callFunction h) ∧ ServerAnswer H L h id f) ∨
  (∃ k ρ, L.client k = some ρ ∧ c = ρ.channel ∧
    service = Service.response Service.clientRequester ∧ ClientAnswer H L k c id f)

def TaskOk : Task → Prop
  | .finished => True
  | .pump _ _ => True
  | .storeGrant _ _ => True
  | .backendCreated _ _ _ => True
  | .backendDeleted _ _ => True
  | .await f (.gate g) => ∃ γ, L.gate g = some γ ∧ GateFuture L γ f
  | .await f (.resolve q) => LinkOk H L f q
  | .await f (.respond c service id) => AnswerOk H L f c service id
  | _ => False

/-- What may be on the agenda. That a message to be delivered was sent is another matter. -/
def ActionOk : Action → Prop
  | .deliver _ _ _ => True
  | .closeChannel _ => True
  | .closeCore _ => True
  | .runHook hook => ∃ c, HookOk L c hook ∧ (c < 2 → L.closed c)
  | .closeServerHandler _ => True
  | .closeClientHandler _ => True
  | .releaseReceiver v => ∃ k, L.receiver v = some (.client k)
  | .violation _ _ _ _ => True
  | .flush _ => True
  | .dispatchNext g => ∃ γ, L.gate g = some γ
  | .invoke job ticket => ∃ γ, JobAt H L γ job ticket ∧ PhaseAt H L γ .ready ∧ ∃ g, L.gate g = some γ
  | .guardChannel c hook => HookOk L c hook ∧ 2 ≤ c
  | .spawn task => TaskOk H L task ∧ task.isGates = false
  | .pumpNext _ _ => True
  | _ => False

def AgendaOk (agenda : List Action) : Prop := ∀ a ∈ agenda, ActionOk H L a

/-- Every object does what the ledger says it is for, and there are objects for all its entries. -/
structure Orderly (N : Stock) (w : World) : Prop where
  transport : w.channels.All fun c ch => ch.transport = .paired (c / 2) (c % 2 == 1)
  ends : w.pairs.All fun p q => q.first = 2 * p ∧ q.second = 2 * p + 1
  size : w.channels.size = 2 * w.pairs.size
  channels : w.channels.All fun c ch => ChannelOk L c ch.core
  requesters : w.requesters.All (RequesterOk L)
  receivers : w.receivers.All (ReceiverOk L)
  gates : w.gates.All (GateOk H L)
  handlers : w.serverHandlers.All (HandlerOk L)
  clients : w.clientHandlers.All (ClientOk L)
  registries : w.registries.All (RegistryOk L)
  trackers : w.trackers.All fun _ => TrackerOk
  promises : w.promises.All (PromiseOk H L)
  tasks : w.tasks.All fun _ => TaskOk H L
  checks : w.checkers.All fun _ cell => ∀ p ∈ cell.checks, L.promise p = some .free
  waiting : ∀ e ∈ w.waiting, L.promise e.2 = some .free
  closed : w.channels.All fun c ch => L.closed c → ch.core.disposed = true
  ready : w.trackers.All fun t cell => L.ready (.tracker t) → cell.state = .ready
  left : w.clientHandlers.All fun k cell => L.leaving k → cell.disposed = true
  held : w.clientHandlers.All fun k cell => ∀ g, L.gate g = some (.permission k) →
    cell.disposed = true ∨ cell.gate = some g
  shut : w.gates.All fun g cell => ∀ k, L.gate g = some (.permission k) → L.leaving k →
    cell.core.phase = .disposed
  promiseCount : N.promises ≤ w.promises.size
  gateCount : N.gates ≤ w.gates.size
  requesterCount : N.requesters ≤ w.requesters.size
  receiverCount : N.receivers ≤ w.receivers.size
  handlerCount : N.handlers ≤ w.serverHandlers.size
  clientCount : N.clients ≤ w.clientHandlers.size
  trackerCount : N.trackers ≤ w.trackers.size
  channelCount : N.channels ≤ w.channels.size

end Conditions

/-! ## Later ledgers -/

section Later

variable {H H' : History} {L L' : Ledger} (hH : H.Extends H') (hL : L.Extends L')
include hL

variable {c : Nat}

theorem Ledger.WindowAt.mono {ω : Window} (h : L.WindowAt ω c) : L'.WindowAt ω c := by
  cases ω with
  | client => exact h.imp fun _ hρ => ⟨hL.client hρ.1, hρ.2⟩
  | registry => exact h

theorem Ledger.Ticket.mono {r : Nat} {ℓ : Line} {i p : Nat} (h : L.Ticket r ℓ i p) :
    L'.Ticket r ℓ i p := by
  cases ℓ with
  | client => exact hL.promise h
  | server =>
    obtain ⟨η, hη, hp⟩ := h
    refine ⟨η, hL.handler hη, ?_⟩
    split at hp <;> exact hL.promise hp

theorem ServiceOk.mono {service : String} {handler : Handler}
    (h : ServiceOk L c service handler) : ServiceOk L' c service handler := by
  cases handler with
  | responses => exact h.imp fun _ hℓ => ⟨hL.requester hℓ.1, hℓ.2⟩
  | requests => exact h.imp fun _ hω => ⟨hL.receiver hω.1, hω.2.1.mono hL, hω.2.2⟩
  | _ => exact h

theorem HookOk.mono {hook : Hook} (h : HookOk L c hook) : HookOk L' c hook := by
  cases hook with
  | requester => exact h.imp fun _ hℓ => ⟨hL.requester hℓ.1, hℓ.2⟩
  | serverHandler => exact ⟨h.1, h.2.imp fun _ hη => hL.handler hη⟩
  | clientHandler => exact h.imp fun _ hρ => ⟨hL.client hρ.1, hρ.2⟩
  | _ => exact h

theorem ChannelOk.mono {core : ChannelCore Handler Hook} (h : ChannelOk L c core) :
    ChannelOk L' c core :=
  ⟨fun e he => (h.services e he).mono hL, fun e he => (h.hooks e he).mono hL,
    fun hd => hL.closed (h.closed hd)⟩

theorem RequesterOk.mono {r : Nat} {cell : RequesterCell} (h : RequesterOk L r cell) :
    RequesterOk L' r cell := by
  obtain ⟨ℓ, hℓ, hr⟩ := h
  exact ⟨ℓ, hL.requester hℓ, { hr with
    pending := fun e he => ⟨(hr.pending e he).1, (hr.pending e he).2.mono hL⟩ }⟩

theorem ReceiverOk.mono {v : Nat} {cell : ReceiverCell} (h : ReceiverOk L v cell) :
    ReceiverOk L' v cell :=
  h.imp fun _ hω => ⟨hL.receiver hω.1, hω.2.1.mono hL, hω.2.2⟩

theorem HandlerOk.mono {h : Nat} {cell : ServerHandlerCell} (ok : HandlerOk L h cell) :
    HandlerOk L' h cell := by
  obtain ⟨η, hη, hh⟩ := ok
  exact ⟨η, hL.handler hη, { hh with
    requester := fun r hr => hL.requester (hh.requester r hr)
    gone := fun h => hL.closed (hh.gone h) }⟩

theorem ClientOk.mono {k : Nat} {cell : ClientHandlerCell} (h : ClientOk L k cell) :
    ClientOk L' k cell := by
  obtain ⟨ρ, hρ, hk⟩ := h
  exact ⟨ρ, hL.client hρ, { hk with
    readiness := hk.readiness.imp fun _ hη => ⟨hL.handler hη.1, hη.2⟩
    gate := fun g hg => hL.gate (hk.gate g hg)
    receiver := fun v hv => hL.receiver (hk.receiver v hv)
    disposed := fun h => hL.leaving (hk.disposed h) }⟩

theorem RegistryOk.mono {g : Nat} {cell : RegistryCell} (h : RegistryOk L g cell) :
    RegistryOk L' g cell :=
  { h with entries := fun e he => hL.receiver (h.entries e he) }

variable {f : Future}

theorem Begun.mono (h : Begun L f) : Begun L' f :=
  h.imp_right fun h => h.imp_right fun ⟨p, hp⟩ => ⟨p, hp.1, hL.promise hp.2⟩

variable {γ : GateRole}

theorem GateFuture.mono (h : GateFuture L γ f) : GateFuture L' γ f := by
  cases γ with
  | readiness => exact h.imp fun _ hη => ⟨hL.handler hη.1, hη.2⟩
  | permission => exact h.imp_left fun h => h.mono hL

theorem Fallback.mono {ρ : Role} {o : Outcome} (h : Fallback L ρ o) : Fallback L' ρ o := by
  cases ρ with
  | call => exact h.imp fun _ hρ => ⟨hL.client hρ.1, hρ.2⟩
  | _ => exact h

include hH

theorem JobAt.mono {job : Job} {t : Nat} (h : JobAt H L γ job t) :
    JobAt H' L' γ job t := by
  cases γ with
  | permission =>
    obtain ⟨ρ, call, n, id, hρ, hjob, ht, ha⟩ := h
    exact ⟨ρ, call, n, id, hL.client hρ, hjob, hL.promise ht, ha.mono hH⟩
  | readiness =>
    obtain ⟨η, call, hη, hjob, ht⟩ := h
    refine ⟨η, call, hL.handler hη, hjob, ?_⟩
    split at ht
    · obtain ⟨hg, n, id, hp, ha⟩ := ht
      exact ⟨hg.mono hH, n, id, hL.promise hp, ha.mono hH⟩
    · exact hL.promise ht

theorem PhaseAt.mono {phase : GatePhase} (h : PhaseAt H L γ phase) :
    PhaseAt H' L' γ phase := by
  cases γ with
  | permission =>
    cases phase with
    | waiting => trivial
    | ready => exact Granted.mono hH h
    | failed => exact hH.verdict h
    | disposed => exact hL.leaving h
  | readiness =>
    cases phase with
    | ready => exact h.imp fun _ hη => ⟨hL.handler hη.1, hL.ready hη.2⟩
    | _ => exact h

theorem GateOk.mono {g : Nat} {cell : GateCell} (h : GateOk H L g cell) : GateOk H' L' g cell := by
  obtain ⟨γ, hγ, hg⟩ := h
  exact ⟨γ, hL.gate hγ, { hg with
    phase := hg.phase.mono hH hL
    queue := fun e he => (hg.queue e he).mono hH hL }⟩

theorem Kept.mono {ρ : Role} {o : Outcome} (h : Kept H L ρ o) : Kept H' L' ρ o := by
  cases ρ with
  | free => trivial
  | reply => exact h.imp fun _ hc => ⟨hL.requester hc.1, hc.2.mono hH⟩
  | job =>
    obtain ⟨ρ, hρ, ho⟩ := h
    refine ⟨ρ, hL.client hρ, ho.imp ?_ (Or.imp ?_ ?_)⟩
    · exact fun ⟨e, he, hoe⟩ => ⟨e, hH.verdict he, hoe⟩
    · exact fun ⟨hg, hf⟩ => ⟨hg.mono hH, hf.mono hH⟩
    · exact fun ⟨hl, hoe⟩ => ⟨hL.leaving hl, hoe⟩
  | entry | call => exact h.imp fun ρ hρ => ⟨hL.client hρ.1, hρ.2.mono hH⟩

theorem PromiseOk.mono {p : Nat} {cell : Promise} (h : PromiseOk H L p cell) :
    PromiseOk H' L' p cell := by
  obtain ⟨ρ, hρ, hp⟩ := h
  exact ⟨ρ, hL.promise hρ, hp.fallback.mono hL, fun o ho => (hp.outcome o ho).mono hH hL⟩

theorem LinkOk.mono {q : Nat} (h : LinkOk H L f q) : LinkOk H' L' f q := by
  refine h.imp ?_ (Or.imp ?_ ?_)
  · grind [hL.promise, hL.client]
  · exact fun ⟨p, k, n, hf, hp, hq, hg⟩ => ⟨p, k, n, hf, hL.promise hp, hL.promise hq, hg.mono hH⟩
  · exact fun ⟨hq, hf⟩ => ⟨hL.promise hq, hf.mono hL⟩

theorem AnswerOk.mono {service : String} {id : Nat}
    (h : AnswerOk H L f c service id) : AnswerOk H' L' f c service id := by
  refine h.imp ?_ ?_
  · rintro ⟨hc, h', hs, hf⟩
    refine ⟨hc, h', hs, hf.imp ?_ fun hb => hb.mono hL⟩
    exact fun ⟨b, call, hd, ha⟩ => ⟨b, call, hd, ha.mono hH⟩
  · rintro ⟨k, ρ, hρ, hc, hs, hf⟩
    refine ⟨k, ρ, hL.client hρ, hc, hs, hf.imp ?_ ?_⟩
    · exact fun ⟨p, n, call, hp, hj, ha⟩ => ⟨p, n, call, hp, hL.promise hj, ha.mono hH⟩
    · exact fun ⟨hd, ho⟩ => ⟨hL.doomed hd, ho⟩

theorem TaskOk.mono {task : Task} (h : TaskOk H L task) : TaskOk H' L' task := by
  cases task with
  | await _ κ =>
    cases κ with
    | gate => exact h.imp fun _ hγ => ⟨hL.gate hγ.1, hγ.2.mono hL⟩
    | resolve => exact LinkOk.mono hH hL h
    | respond => exact AnswerOk.mono hH hL h
    | report => exact h
  | _ => exact h

theorem ActionOk.mono {a : Action} (h : ActionOk H L a) : ActionOk H' L' a := by
  cases a with
  | runHook => exact h.imp fun _ hc => ⟨hc.1.mono hL, fun hn => hL.closed (hc.2 hn)⟩
  | releaseReceiver => exact h.imp fun _ hk => hL.receiver hk
  | dispatchNext => exact h.imp fun _ hγ => hL.gate hγ
  | invoke =>
    exact h.imp fun _ hγ => ⟨hγ.1.mono hH hL, hγ.2.1.mono hH hL, hγ.2.2.imp fun _ hg => hL.gate hg⟩
  | guardChannel => exact ⟨h.1.mono hL, h.2⟩
  | spawn => exact ⟨TaskOk.mono hH hL h.1, h.2⟩
  | _ => exact h

theorem AgendaOk.mono {agenda : List Action} (h : AgendaOk H L agenda) : AgendaOk H' L' agenda :=
  fun a ha => (h a ha).mono hH hL

omit hH in
/-- A world stays orderly when the ledger grows, if what the ledger notes is so. Channels, gates, client
handlers, promises and tasks may change at the same time. -/
theorem Orderly.revise {N : Stock} {w : World} (h : Orderly H L N w) {chs : Table Channel}
    {gs : Table GateCell} {cs : Table ClientHandlerCell} {ps : Table Promise} {ts : Table Task}
    {q : List Nat}
    (transport : chs.All fun c ch => ch.transport = .paired (c / 2) (c % 2 == 1))
    (channels : chs.All fun c ch => ChannelOk L' c ch.core)
    (gates : gs.All (GateOk H' L')) (clients : cs.All (ClientOk L'))
    (promises : ps.All (PromiseOk H' L')) (tasks : ts.All fun _ => TaskOk H' L')
    (closed : chs.All fun c ch => L'.closed c → ch.core.disposed = true)
    (ready : w.trackers.All fun t cell => L'.ready (.tracker t) → cell.state = .ready)
    (left : cs.All fun k cell => L'.leaving k → cell.disposed = true)
    (held : cs.All fun k cell => ∀ g, L'.gate g = some (.permission k) →
      cell.disposed = true ∨ cell.gate = some g)
    (shut : gs.All fun g cell => ∀ k, L'.gate g = some (.permission k) → L'.leaving k →
      cell.core.phase = .disposed)
    (promiseCount : w.promises.size ≤ ps.size) (gateCount : w.gates.size ≤ gs.size)
    (clientCount : w.clientHandlers.size ≤ cs.size) (channelCount : chs.size = w.channels.size) :
    Orderly H' L' N
      { w with
        channels := chs, gates := gs, clientHandlers := cs, promises := ps, tasks := ts,
        queue := q } where
  transport := transport
  ends := h.ends
  size := channelCount.trans h.size
  channels := channels
  requesters := h.requesters.imp fun _ _ hc => hc.mono hL
  receivers := h.receivers.imp fun _ _ hc => hc.mono hL
  gates := gates
  handlers := h.handlers.imp fun _ _ hc => hc.mono hL
  clients := clients
  registries := h.registries.imp fun _ _ hc => hc.mono hL
  trackers := h.trackers
  promises := promises
  tasks := tasks
  checks := h.checks.imp fun _ _ hc p hp => hL.promise (hc p hp)
  waiting := fun e he => hL.promise (h.waiting e he)
  closed := closed
  ready := ready
  left := left
  held := held
  shut := shut
  promiseCount := Nat.le_trans h.promiseCount promiseCount
  gateCount := Nat.le_trans h.gateCount gateCount
  requesterCount := h.requesterCount
  receiverCount := h.receiverCount
  handlerCount := h.handlerCount
  clientCount := Nat.le_trans h.clientCount clientCount
  trackerCount := h.trackerCount
  channelCount := channelCount.symm ▸ h.channelCount

theorem Orderly.mono {N : Stock} {w : World} (h : Orderly H L N w)
    (closed : w.channels.All fun c ch => L'.closed c → ch.core.disposed = true)
    (ready : w.trackers.All fun t cell => L'.ready (.tracker t) → cell.state = .ready)
    (left : w.clientHandlers.All fun k cell => L'.leaving k → cell.disposed = true)
    (held : w.clientHandlers.All fun k cell => ∀ g, L'.gate g = some (.permission k) →
      cell.disposed = true ∨ cell.gate = some g)
    (shut : w.gates.All fun g cell => ∀ k, L'.gate g = some (.permission k) → L'.leaving k →
      cell.core.phase = .disposed) : Orderly H' L' N w :=
  h.revise hL h.transport (h.channels.imp fun _ _ hc => hc.mono hL)
    (h.gates.imp fun _ _ hc => hc.mono hH hL) (h.clients.imp fun _ _ hc => hc.mono hL)
    (h.promises.imp fun _ _ hc => hc.mono hH hL) (h.tasks.imp fun _ _ hc => hc.mono hH hL)
    closed ready left held shut (Nat.le_refl _) (Nat.le_refl _) (Nat.le_refl _) rfl

end Later

namespace AgendaOk

variable {H : History} {L : Ledger} {a : Action} {as bs : List Action}

theorem nil : AgendaOk H L [] := fun _ h => absurd h List.not_mem_nil

theorem cons (ha : ActionOk H L a) (has : AgendaOk H L as) : AgendaOk H L (a :: as) := by
  intro b hb
  rcases List.mem_cons.mp hb with rfl | hb
  · exact ha
  · exact has b hb

theorem single (ha : ActionOk H L a) : AgendaOk H L [a] := nil.cons ha

theorem append (has : AgendaOk H L as) (hbs : AgendaOk H L bs) : AgendaOk H L (as ++ bs) :=
  fun b hb => (List.mem_append.mp hb).elim (has b) (hbs b)

theorem map {α : Type} {f : α → Action} {l : List α} (h : ∀ x ∈ l, ActionOk H L (f x)) :
    AgendaOk H L (l.map f) := by
  intro _ hb
  obtain ⟨x, hx, rfl⟩ := List.mem_map.mp hb
  exact h x hx

end AgendaOk

/-! ## Basic functions -/

/-- A promise whose maker goes away is kept as it may be, unless it is for a job at the permission
gate, which nobody gives up but a client that is leaving. -/
theorem Fallback.kept {H : History} {L : Ledger} (hL : L.Coherent) {p : Nat} {ρ : Role} {o : Outcome}
    (hρ : L.promise p = some ρ) (h : Fallback L ρ o) (hjob : ∀ k n, ρ = .job k n → L.leaving k) :
    Kept H L ρ o := by
  cases ρ with
  | free => trivial
  | reply => exact (hL.reply hρ).imp fun _ hc => ⟨hc, .inl h⟩
  | job k n => exact (hL.job hρ).imp fun ρ hc => ⟨hc, .inr (.inr ⟨hjob k n rfl, h⟩)⟩
  | entry =>
    obtain rfl : o = _ := h
    exact (hL.entry hρ).imp fun ρ hc => ⟨hc, .inl (.inl rfl)⟩
  | call =>
    obtain ⟨ρ, hc, rfl⟩ := h
    exact ⟨ρ, hc, .inl (.inr (.inr (.inr (.inl rfl))))⟩

theorem PromiseAt.keep {H : History} {L : Ledger} {ρ : Role} {cell : Promise} {o : Outcome}
    (h : PromiseAt H L ρ cell) (ho : Kept H L ρ o) : PromiseAt H L ρ (cell.keep o) where
  fallback := h.fallback
  outcome o' ho' := by
    cases hc : cell.outcome with
    | none => simp_all [Promise.keep]
    | some =>
      rw [Promise.keep_of_outcome hc] at ho'
      exact h.outcome o' ho'

namespace Orderly

variable {H : History} {L : Ledger} {N : Stock} {w : World}

variable (h : Orderly H L N w)
include h

theorem wired : w.Wired := ⟨h.transport, h.ends, h.size⟩

theorem requeue (q : List Nat) : Orderly H L N (w.requeue q) := { h with }

theorem wake (s : Source) : Orderly H L N (World.wake s w) := by
  rw [World.wake_eq]
  exact { h with }

variable {p : Nat}

theorem modifyPair {f : Pair → Pair} (hf : ∀ q, (f q).first = q.first ∧ (f q).second = q.second) :
    Orderly H L N { w with pairs := w.pairs.modify p f } :=
  { h with
    ends := h.ends.modify fun q _ hq => ⟨(hf q).1.trans hq.1, (hf q).2.trans hq.2⟩
    size := by rw [Table.size_modify, h.size] }

theorem emit (c : Nat) (m : String × Json) : Orderly H L N (w.emit c m) :=
  h.modifyPair fun q => q.ends_enqueue _ _

theorem spawn {t : Task} (ht : TaskOk H L t) : Orderly H L N (w.spawn t) :=
  { h with tasks := h.tasks.push ht }

/-! ### Promises -/

/-- Changing promises does no harm if each is then kept as it may be. -/
theorem withPromises {t : Table Promise} (ht : t.All (PromiseOk H L))
    (size : t.size = w.promises.size) (q : List Nat) :
    Orderly H L N { w with promises := t, queue := q } :=
  { h with promises := ht, promiseCount := size ▸ h.promiseCount }

variable {o : Outcome}

theorem promise {ρ : Role}
    (hρ : L.promise w.promises.size = some ρ) (ho : Fallback L ρ o) : Orderly H L N (w.promise o) :=
  { h with
    promises := h.promises.push ⟨ρ, hρ, ho, nofun⟩
    promiseCount := Nat.le_trans h.promiseCount (by simp [World.promise]) }

theorem resolve (ho : ∀ ρ, L.promise p = some ρ → Kept H L ρ o) : Orderly H L N (w.resolve p o) := by
  rw [World.resolve_eq]
  refine h.withPromises (h.promises.modify ?_) (Table.size_modify ..) _
  exact fun _ _ ⟨ρ, hρ, hc⟩ => ⟨ρ, hρ, hc.keep (ho ρ hρ)⟩

theorem resolveAll {ps : List Nat} (ho : ∀ p ∈ ps, ∀ ρ, L.promise p = some ρ → Kept H L ρ o) :
    Orderly H L N (w.resolveAll ps o) := by
  obtain ⟨q, hq⟩ := World.resolveAll_eq ps o w
  rw [hq]
  refine h.withPromises (h.promises.modifyAll ?_) (Table.size_modifyAll ..) q
  exact fun p hp _ ⟨ρ, hρ, hc⟩ => ⟨ρ, hρ, hc.keep (ho p hp ρ hρ)⟩

theorem breakPromises (hL : L.Coherent) {ps : List Nat}
    (hjob : ∀ p ∈ ps, ∀ k n, L.promise p = some (.job k n) → L.leaving k) :
    Orderly H L N (w.breakPromises ps) := by
  obtain ⟨q, hq⟩ := World.breakPromises_eq ps w
  rw [hq]
  refine h.withPromises (h.promises.modifyAll ?_) (Table.size_modifyAll ..) q
  refine fun p hp _ ⟨ρ, hρ, hc⟩ => ⟨ρ, hρ, hc.keep ?_⟩
  exact hc.fallback.kept hL hρ fun k n hk => hjob p hp k n (hk ▸ hρ)

theorem breakPromise (hL : L.Coherent) (hjob : ∀ k n, L.promise p = some (.job k n) → L.leaving k) :
    Orderly H L N (w.breakPromise p) := by
  have hps : Orderly H L N (w.breakPromises [p]) := by
    refine h.breakPromises hL fun _ hp' => ?_
    rw [List.mem_singleton.mp hp']
    exact hjob
  exact hps

end Orderly

end Switchboard
