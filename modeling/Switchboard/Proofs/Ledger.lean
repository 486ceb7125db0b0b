import Switchboard.Proofs.Exchange

/-!
# What everything is for

Objects of a world refer to each other by number, and a number says nothing about the object's
purpose. A ledger says it: for each promise, gate, requester, receiver and handler, what it is for. It
also notes what has become true for good: which channels are closed or about to be, which clients are
leaving, which sources of readiness are ready. Ledgers only grow.

The `n`-th request of client `k`, in the order of arrival, is waited for by three promises: `job k n`
before the permission gate, `entry k n` before the readiness gate, and `call k n` at the requester on
the server channel. Whatever they are kept with goes back to what the server said about its `n`-th
request, or to a fault of the near side.
-/

namespace Switchboard

open Exchange

/-! ## The run so far -/

/-- What a run has shown so far. -/
structure History where
  sent : Nat → String × Json → Prop
  /-- The requests that each client handler received, in order, with their identifiers. -/
  arrivals : Nat → List (Nat × Call)
  /-- How the permission check of a client handler ended. -/
  verdict : Nat → Outcome → Prop

namespace History

variable {H H' : History}

def ofTrace (ts : List Transition) : History where
  sent c m := ∃ t ∈ ts, m ∈ t.sent c
  arrivals k := ts.filterMap fun t => t.request? k
  verdict k o := ∃ t ∈ ts, t.verdict? k = some o

/-- A later history has everything that an earlier one has. -/
structure Extends (H H' : History) : Prop where
  sent : ∀ {c m}, H.sent c m → H'.sent c m
  arrivals : ∀ k, H.arrivals k <+: H'.arrivals k
  verdict : ∀ {k o}, H.verdict k o → H'.verdict k o

def Granted (H : History) (k : Nat) : Prop := ∃ v, H.verdict k (.ok v)

def Arrived (H : History) (k n id : Nat) (call : Call) : Prop :=
  (H.arrivals k)[n]? = some (id, call)

def Asked (H : History) (h n : Nat) (call : Call) : Prop :=
  ∃ v m, H.sent near (Service.request (Service.callFunction h), v) ∧ Request.ofJson? v = some m ∧
    m.id = n ∧ Call.ofJson? m.payload = some call

def Told (H : History) (h n : Nat) (outcome : Except String Json) : Prop :=
  ∃ v, H.sent far (Service.response (Service.callFunction h), v) ∧
    Response.ofJson? v = some ⟨n, outcome⟩

def Local (h : Nat) (e : Fault) : Prop :=
  e = .jobSkipped ∨ e = .handlerDisposed ∨ e = .channelDisposed ∨
    e = .requesterDisposed (Service.callFunction h) ∨ ∃ reason, e = .notReady reason

/-- An outcome is what the server said about the `n`-th call of handler `h`, or a local fault. -/
def Faithful (H : History) (h n : Nat) : Outcome → Prop
  | .ok v => H.Told h n (.ok v)
  | .error e => Local h e ∨ ∃ text, e = .remote text ∧ H.Told h n (.error text)

/-- An outcome of request `i` posted on the client's end `c`: a response sent from the other end, or
the news that the requester or the channel is closed. -/
def Replied (H : History) (c i : Nat) (outcome : Outcome) : Prop :=
  outcome = .error (.requesterDisposed Service.clientRequester) ∨
  outcome = .error .channelDisposed ∨
  ∃ v m, H.sent (peer c) (Service.response Service.clientRequester, v) ∧
    Response.ofJson? v = some m ∧ m.id = i ∧ outcome = Requester.outcomeOf m

theorem Extends.refl (H : History) : H.Extends H := ⟨id, fun _ => List.prefix_rfl, id⟩

variable (hH : H.Extends H')
include hH

theorem Granted.mono {k : Nat} (h : H.Granted k) : H'.Granted k :=
  h.imp fun _ hv => hH.verdict hv

variable {n : Nat}

theorem Arrived.mono {k id : Nat} {call : Call} (h : H.Arrived k n id call) : H'.Arrived k n id call := by
  obtain ⟨_, hmore⟩ := hH.arrivals k
  have hn : n < (H.arrivals k).length := (List.getElem?_eq_some_iff.mp h).1
  unfold Arrived
  rw [← hmore, List.getElem?_append_left hn]
  exact h

variable {h : Nat}

theorem Asked.mono {call : Call} (a : H.Asked h n call) : H'.Asked h n call := by
  obtain ⟨v, m, hv, rest⟩ := a
  exact ⟨v, m, hH.sent hv, rest⟩

theorem Told.mono {o : Except String Json} (a : H.Told h n o) : H'.Told h n o := by
  obtain ⟨v, hv, hm⟩ := a
  exact ⟨v, hH.sent hv, hm⟩

theorem Faithful.mono {o : Outcome} (a : H.Faithful h n o) : H'.Faithful h n o := by
  cases o with
  | ok => exact Told.mono hH a
  | error => exact a.imp_right fun ⟨text, he, ht⟩ => ⟨text, he, ht.mono hH⟩

theorem Replied.mono {c i : Nat} {o : Outcome} (a : H.Replied c i o) : H'.Replied c i o :=
  a.imp_right fun b => b.imp_right fun ⟨v, m, hv, rest⟩ => ⟨v, m, hH.sent hv, rest⟩

end History

/-! ## Ledgers -/

/-- What a promise is for. -/
inductive Role where
  /-- Nothing depends on what it is kept with. -/
  | free
  | reply (requester request : Nat)
  | job (client index : Nat)
  | entry (client index : Nat)
  | call (client index : Nat)
deriving DecidableEq

/-- What a gate is for. -/
inductive GateRole where
  | permission (client : Nat)
  | readiness (handler : Nat)
deriving DecidableEq

/-- Whose a requester is. -/
inductive Line where
  | client (channel : Nat)
  | server (handler : Nat)
deriving DecidableEq

/-- Whom a receiver serves. -/
inductive Window where
  | client (client : Nat)
  | registry (handler : Nat)
deriving DecidableEq

def Line.channel : Line → Nat
  | .client c => c
  | .server _ => near

def Line.name : Line → String
  | .client _ => Service.clientRequester
  | .server h => Service.callFunction h

def Window.name : Window → String
  | .client _ => Service.clientRequester
  | .registry h => Service.callFunction h

/-- What a server handler is made of. -/
structure HandlerRole where
  gate : Nat
  source : ReadinessSource
  /-- The client handler that it belongs to. -/
  owner : Option Nat

/-- What a client handler is made of. -/
structure ClientRole where
  channel : Nat
  handler : Nat

/-- What everything is for, and what has become true for good. -/
structure Ledger where
  promise : Nat → Option Role
  gate : Nat → Option GateRole
  requester : Nat → Option Line
  receiver : Nat → Option Window
  handler : Nat → Option HandlerRole
  client : Nat → Option ClientRole
  closed : Nat → Prop
  ready : ReadinessSource → Prop
  leaving : Nat → Prop
  /-- The channel is closed, or its closing is on the agenda. -/
  doomed : Nat → Prop

/-- How many objects there are of each kind that a ledger has entries for. -/
structure Stock where
  promises : Nat
  gates : Nat
  requesters : Nat
  receivers : Nat
  handlers : Nat
  clients : Nat
  trackers : Nat
  channels : Nat

def World.stock (w : World) : Stock where
  promises := w.promises.size
  gates := w.gates.size
  requesters := w.requesters.size
  receivers := w.receivers.size
  handlers := w.serverHandlers.size
  clients := w.clientHandlers.size
  trackers := w.trackers.size
  channels := w.channels.size

namespace Ledger

variable {L L' L'' : Ledger}

/-- A later ledger has every entry of an earlier one. -/
structure Extends (L L' : Ledger) : Prop where
  promise : ∀ {i ρ}, L.promise i = some ρ → L'.promise i = some ρ
  gate : ∀ {i ρ}, L.gate i = some ρ → L'.gate i = some ρ
  requester : ∀ {i ρ}, L.requester i = some ρ → L'.requester i = some ρ
  receiver : ∀ {i ρ}, L.receiver i = some ρ → L'.receiver i = some ρ
  handler : ∀ {i ρ}, L.handler i = some ρ → L'.handler i = some ρ
  client : ∀ {i ρ}, L.client i = some ρ → L'.client i = some ρ
  closed : ∀ {c}, L.closed c → L'.closed c
  ready : ∀ {s}, L.ready s → L'.ready s
  leaving : ∀ {k}, L.leaving k → L'.leaving k
  doomed : ∀ {c}, L.doomed c → L'.doomed c

theorem Extends.refl (L : Ledger) : L.Extends L := ⟨id, id, id, id, id, id, id, id, id, id⟩

theorem Extends.trans (h : L.Extends L') (h' : L'.Extends L'') : L.Extends L'' where
  promise := h'.promise ∘ h.promise
  gate := h'.gate ∘ h.gate
  requester := h'.requester ∘ h.requester
  receiver := h'.receiver ∘ h.receiver
  handler := h'.handler ∘ h.handler
  client := h'.client ∘ h.client
  closed := h'.closed ∘ h.closed
  ready := h'.ready ∘ h.ready
  leaving := h'.leaving ∘ h.leaving
  doomed := h'.doomed ∘ h.doomed

def put {α : Type} (f : Nat → Option α) (i : Nat) (a : α) : Nat → Option α :=
  fun j => if j = i then some a else f j

variable {α : Type}

@[simp] theorem put_self (f : Nat → Option α) (i : Nat) (a : α) : put f i a i = some a := by
  simp [put]

variable {i j : Nat}

variable {f : Nat → Option α}

theorem put_of_some {a b : α} (fresh : f i = none) (h : f j = some b) : put f i a j = some b := by
  grind [put]

theorem put_eq_some {a b : α} : put f i a j = some b ↔ (j = i ∧ a = b) ∨ (j ≠ i ∧ f j = some b) := by
  unfold put
  split <;> simp_all

/-- The first number for which there can be no entry. -/
theorem fresh {n : Nat} (h : ∀ {i a}, f i = some a → i < n) : f n = none := by
  cases hn : f n with
  | none => rfl
  | some => exact absurd (h hn) (Nat.lt_irrefl n)

theorem lt_of_put {m n : Nat} {a : α}
    (hf : ∀ {j b}, f j = some b → j < m) (hm : m ≤ n) (hi : i < n) {b : α} (h : put f i a j = some b) : j < n :=
  (put_eq_some.mp h).elim (fun e => e.1 ▸ hi) fun e => Nat.lt_of_lt_of_le (hf e.2) hm

/-- There are entries only for objects in stock. -/
structure Bounded (L : Ledger) (N : Stock) : Prop where
  promise : ∀ {i ρ}, L.promise i = some ρ → i < N.promises
  gate : ∀ {i ρ}, L.gate i = some ρ → i < N.gates
  requester : ∀ {i ρ}, L.requester i = some ρ → i < N.requesters
  receiver : ∀ {i ρ}, L.receiver i = some ρ → i < N.receivers
  handler : ∀ {i ρ}, L.handler i = some ρ → i < N.handlers
  client : ∀ {i ρ}, L.client i = some ρ → i < N.clients
  ready : ∀ {t}, L.ready (.tracker t) → t < N.trackers
  channel : ∀ {k ρ}, L.client k = some ρ → ρ.channel < N.channels
  doomed : ∀ {c}, L.doomed c → c < N.channels
  closed : ∀ {c}, L.closed c → c < N.channels
  leaving : ∀ {k}, L.leaving k → k < N.clients

def WindowAt (L : Ledger) : Window → Nat → Prop
  | .client k, c => ∃ ρ, L.client k = some ρ ∧ ρ.channel = c
  | .registry _, c => c = far

def Ticket (L : Ledger) (r : Nat) : Line → Nat → Nat → Prop
  | .client _, i, p => L.promise p = some (.reply r i)
  | .server h, i, p => ∃ η, L.handler h = some η ∧
    match η.owner with
    | some k => L.promise p = some (.call k i)
    | none => L.promise p = some .free

/-- The ledger agrees with itself. -/
structure Coherent (L : Ledger) : Prop where
  client : ∀ {k ρ}, L.client k = some ρ → isHandlerEnd ρ.channel = true ∧
    ∃ η, L.handler ρ.handler = some η ∧ η.owner = some k
  channel : ∀ {k k' ρ ρ'}, L.client k = some ρ → L.client k' = some ρ' →
    ρ.channel = ρ'.channel → k = k'
  handler : ∀ {h η}, L.handler h = some η → L.gate η.gate = some (.readiness h) ∧
    ∀ k, η.owner = some k → ∃ ρ, L.client k = some ρ ∧ ρ.handler = h
  permission : ∀ {g k}, L.gate g = some (.permission k) → ∃ ρ, L.client k = some ρ
  single : ∀ {g g' k}, L.gate g = some (.permission k) → L.gate g' = some (.permission k) → g = g'
  readiness : ∀ {g h}, L.gate g = some (.readiness h) → ∃ η, L.handler h = some η ∧ η.gate = g
  line : ∀ {r c}, L.requester r = some (.client c) → isClientEnd c = true
  reply : ∀ {p r i}, L.promise p = some (.reply r i) → ∃ c, L.requester r = some (.client c)
  job : ∀ {p k n}, L.promise p = some (.job k n) → ∃ ρ, L.client k = some ρ
  entry : ∀ {p k n}, L.promise p = some (.entry k n) → ∃ ρ, L.client k = some ρ
  leaving : ∀ {k ρ}, L.leaving k → L.client k = some ρ → L.doomed ρ.channel

end Ledger

end Switchboard
