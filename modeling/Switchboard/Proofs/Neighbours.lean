import Switchboard.Proofs.Pinging
import Switchboard.Proofs.Runs

/-!
# Components that share a channel

Requesters, receivers and pingers come and go on one channel, some of them under the same name. Each
listens to one service, and a service has at most one handler: the last component that came. A component
that leaves takes the handler of its service with it, whoever it belongs to (`Turn.leaves?`), so a
component is heard exactly as long as none of its service has left since it came.
-/

namespace Switchboard

open World

namespace Neighbours

/-! ## The system -/

abbrev line : Nat := 0

/-- What lives on a channel. -/
inductive Component where
  | requester (r : Nat)
  | receiver (v : Nat)
  | pinger (p : Nat)
deriving DecidableEq

namespace Component

def handler : Component → Handler
  | requester r => .responses r
  | receiver v => .requests v
  | pinger p => .pongs p

def ref : Component → Ref
  | requester r => .requester r
  | receiver v => .receiver v
  | pinger p => .pinger p

def receive (payload : Json) (w : World) : Component → World × List Action
  | requester r => w.onResponse r payload
  | receiver v => w.onRequest v payload
  | pinger p => w.onPong p payload

def service? (w : World) : Component → Option String
  | requester r => (w.requesters.get? r).map fun cell => Service.response cell.core.name
  | receiver v => (w.receivers.get? v).map fun cell => Service.request cell.name
  | pinger p => (w.pingers.get? p).map fun _ => Service.pong

def isHeld (w : World) : Component → Bool
  | requester r => (w.requesters.get? r).any (·.live)
  | receiver v => (w.receivers.get? v).any (·.live)
  | pinger p => (w.pingers.get? p).any (·.live)

def isDisposed (w : World) : Component → Bool
  | requester r => (w.requesters.get? r).any (·.core.disposed)
  | receiver _ => false
  | pinger p => (w.pingers.get? p).any (·.core.isDisposed)

def isActive (w : World) (c : Component) : Bool := c.isHeld w && !c.isDisposed w

def dispose (w : World) : Component → World
  | requester r => w.disposeRequester r
  | receiver _ => w
  | pinger p => w.disposePinger p .explicit

end Component

/-- What can happen. -/
inductive Event where
  | requester (name : String) (policy : Policy)
  | receiver (name : String) (policy : Policy)
  | pinger (interval timeout : Nat)
  | dispose (component : Component)
  | drop (component : Component)

/-- The component that leaves the channel in an event. Receivers are only dropped, and a requester that is
dropped stays registered. -/
def Event.leaver? : Event → Option Component
  | .dispose (.receiver _) => none
  | .dispose c => some c
  | .drop (.requester _) => none
  | .drop c => some c
  | _ => none

/-- Let an event happen. Nobody can do anything with a component that was dropped. -/
def step (w : World) : Event → World
  | .requester name policy => (w.newRequester name line policy).1
  | .receiver name policy => (w.newReceiver name line policy (.scripted name)).1
  | .pinger interval timeout => (w.newPinger "pinger" line interval timeout none).1
  | .dispose c => if c.isHeld w then c.dispose w else w
  | .drop c => if c.isHeld w then w.release c.ref else w

def opening : World :=
  { script := Script.echo
    channels := ({} : Table Channel).push { label := "line", transport := .recorder none } }

def Event.registers? (w : World) : Event → Option (String × Component)
  | .requester name _ => some (Service.response name, .requester w.requesters.size)
  | .receiver name _ => some (Service.request name, .receiver w.receivers.size)
  | .pinger _ _ => some (Service.pong, .pinger w.pingers.size)
  | _ => none

def Event.leaves? (w : World) (e : Event) : Option String :=
  e.leaver?.bind fun c => if c.isActive w then c.service? w else none

abbrev Turn := Runs.Turn World Event

abbrev run (w : World) (es : List Event) : World := Runs.run step w es

abbrev turns (w : World) (es : List Event) : List Turn := Runs.turns step w es

def handlerAt (w : World) (service : String) : Option Handler :=
  (w.channels.get? line).bind fun ch => ch.core.handler? service

/-! ## One event -/

/-- Everybody is on the channel, which is open. -/
structure Tidy (ch : Channel) (w : World) : Prop where
  channel : w.channels.get? line = some ch
  unclosed : ch.core.disposed = false
  requesters : w.requesters.All fun _ cell => cell.channel = line
  receivers : w.receivers.All fun _ cell => cell.channel = line
  pingers : w.pingers.All fun _ cell => cell.channel = line

def Event.services (w : World) (e : Event) (services : List (String × Handler)) : List (String × Handler) :=
  match e.registers? w, e.leaves? w with
  | some (service, c), _ => Assoc.set service c.handler services
  | none, some service => Assoc.erase service services
  | none, none => services

def Stepped (ch : Channel) (w : World) (e : Event) : Prop :=
  ∃ ch', Tidy ch' (step w e) ∧ ch'.core.services = e.services w ch.core.services

section Events

variable {ch : Channel} {w : World}

theorem Tidy.requester (h : Tidy ch w) (name : String) (policy : Policy) :
    Stepped ch w (.requester name policy) := by
  have after : step w (.requester name policy) = _ :=
    congrArg Prod.fst (newRequester_of_open h.channel h.unclosed name policy)
  unfold Stepped
  rw [after]
  refine ⟨listening name w.requesters.size ch,
    { channel := ?_, unclosed := ?_, requesters := h.requesters.push rfl, receivers := h.receivers
      pingers := h.pingers }, ?_⟩
  · rw [Table.get?_modify_self, h.channel]
    rfl
  · simp [listening, h.unclosed]
  · simp [listening, ChannelCore.register, ChannelCore.addHook, h.unclosed, Event.services, Event.registers?,
      Component.handler]

theorem Tidy.receiver (h : Tidy ch w) (name : String) (policy : Policy) :
    Stepped ch w (.receiver name policy) := by
  refine ⟨{ ch with core := ch.core.register (Service.request name) (.requests w.receivers.size) },
    { channel := get?_register h.channel _ _, unclosed := ?_, requesters := h.requesters
      receivers := h.receivers.push rfl, pingers := h.pingers }, ?_⟩
  · simp [h.unclosed]
  · simp [ChannelCore.register, h.unclosed, Event.services, Event.registers?, Component.handler]

theorem Tidy.pinger (h : Tidy ch w) (interval timeout : Nat) : Stepped ch w (.pinger interval timeout) := by
  have after : step w (.pinger interval timeout) = _ :=
    congrArg Prod.fst (newPinger_of_open h.channel h.unclosed "pinger" interval timeout none)
  unfold Stepped
  rw [after]
  refine ⟨watched w.pingers.size ch,
    { channel := ?_, unclosed := ?_, requesters := h.requesters, receivers := h.receivers
      pingers := h.pingers.push rfl }, ?_⟩
  · show (w.channels.modify line _).get? line = _
    rw [Table.get?_modify_self, h.channel]
    rfl
  · simp [watched, h.unclosed]
  · simp [watched, ChannelCore.register, ChannelCore.addHook, h.unclosed, Event.services, Event.registers?,
      Component.handler]

variable {e : Event}

theorem Stepped.stays (after : Tidy ch (step w e)) (nobody : e.registers? w = none)
    (none : e.leaves? w = none) : Stepped ch w e :=
  ⟨ch, after, by rw [Event.services, nobody, none]⟩

/-- An event in which a component leaves. -/
theorem Stepped.leaves {ch' : Channel} {service : String} (after : Tidy ch' (step w e))
    (nobody : e.registers? w = none) (leaves : e.leaves? w = some service)
    (services : ch'.core.services = Assoc.erase service ch.core.services) : Stepped ch w e :=
  ⟨ch', after, by rw [Event.services, nobody, leaves, services]⟩

variable {c : Component}

theorem Event.leaves?_of_inactive (leaver : e.leaver? = some c)
    (inactive : c.isActive w = false) : e.leaves? w = none := by
  rw [Event.leaves?, leaver, Option.bind_some, inactive]
  rfl

theorem Event.leaves?_of_active (leaver : e.leaver? = some c)
    (active : c.isActive w = true) : e.leaves? w = c.service? w := by
  rw [Event.leaves?, leaver, Option.bind_some, if_pos active]

/-- A requester that is disposed leaves, unless it has been disposed before. -/
theorem Tidy.disposeRequester (h : Tidy ch w) {r : Nat} {cell : RequesterCell}
    (hr : w.requesters.get? r = some cell) (unclosed : cell.core.disposed = false) :
    ∃ ch', Tidy ch' (w.disposeRequester r) ∧
      ch'.core.services = Assoc.erase (Service.response cell.core.name) ch.core.services := by
  obtain ⟨_, heq⟩ := disposeRequester_of_open hr unclosed
  refine ⟨{ ch with core := leave cell.core.name cell.hook ch.core }, ?_, by cases hk : cell.hook <;> rfl⟩
  rw [heq]
  refine
    { channel := ?_, unclosed := ?_, receivers := h.receivers, pingers := h.pingers
      requesters := h.requesters.modify fun _ _ same => same }
  · rw [h.requesters r cell hr, Table.get?_modify_self, h.channel]
    rfl
  · rw [← h.unclosed]
    cases hk : cell.hook <;> rfl

/-- A pinger that is stopped leaves, unless it has been stopped before. -/
theorem Tidy.disposePinger (h : Tidy ch w) {p : Nat} {cell : PingerCell} (hp : w.pingers.get? p = some cell)
    (live : cell.core.isDisposed = false) :
    ∃ ch', Tidy ch' (w.disposePinger p .explicit) ∧
      ch'.core.services = Assoc.erase Service.pong ch.core.services := by
  refine ⟨unwatched cell.hook ch, ?_, by cases hk : cell.hook <;> rfl⟩
  rw [disposePinger_of_live hp live]
  refine
    { channel := ?_, unclosed := ?_, requesters := h.requesters, receivers := h.receivers
      pingers := h.pingers.modify fun _ _ same => same }
  · rw [h.pingers p cell hp, Table.get?_modify_self, h.channel]
    rfl
  · rw [← h.unclosed]
    cases hk : cell.hook <;> rfl

/-- A pinger is stopped, whatever else is done to it. -/
theorem Tidy.stop (h : Tidy ch w) {p : Nat} (held : (Component.pinger p).isHeld w = true)
    (leaver : e.leaver? = some (.pinger p)) (joins : e.registers? w = none)
    (after : ∀ {ch}, Tidy ch (w.disposePinger p .explicit) → Tidy ch (step w e)) : Stepped ch w e := by
  cases hp : w.pingers.get? p with
  | none => simp [Component.isHeld, hp] at held
  | some cell =>
    have active : (Component.pinger p).isActive w = !cell.core.isDisposed := by
      simp [Component.isActive, held, Component.isDisposed, hp]
    cases stopped : cell.core.isDisposed with
    | true =>
      rw [stopped] at active
      refine .stays (after ?_) joins (Event.leaves?_of_inactive leaver active)
      rwa [disposePinger_of_stopped fun _ hp' => Option.some.inj (hp.symm.trans hp') ▸ stopped]
    | false =>
      rw [stopped] at active
      obtain ⟨_, left, services⟩ := h.disposePinger hp stopped
      refine .leaves (after left) joins ((Event.leaves?_of_active leaver active).trans ?_) services
      simp [Component.service?, hp]

theorem Tidy.dispose (h : Tidy ch w) (c : Component) (held : c.isHeld w = true) :
    Stepped ch w (.dispose c) := by
  have after : step w (.dispose c) = c.dispose w := if_pos held
  cases c with
  | receiver => exact .stays (after ▸ h) rfl rfl
  | requester r =>
    cases hr : w.requesters.get? r with
    | none => simp [Component.isHeld, hr] at held
    | some cell =>
      have active : (Component.requester r).isActive w = !cell.core.disposed := by
        simp [Component.isActive, held, Component.isDisposed, hr]
      cases closed : cell.core.disposed with
      | true =>
        rw [closed] at active
        refine .stays ?_ rfl (Event.leaves?_of_inactive rfl active)
        rw [after]
        show Tidy ch (w.disposeRequester r)
        rwa [disposeRequester_of_closed fun cell' hr' => Option.some.inj (hr.symm.trans hr') ▸ closed]
      | false =>
        rw [closed] at active
        obtain ⟨ch', left, services⟩ := h.disposeRequester hr closed
        refine .leaves (after ▸ left) rfl ((Event.leaves?_of_active rfl active).trans ?_) services
        simp [Component.service?, hr]
  | pinger => exact h.stop held rfl rfl fun stopped => after ▸ stopped

theorem Tidy.drop (h : Tidy ch w) (c : Component) (held : c.isHeld w = true) : Stepped ch w (.drop c) := by
  have after : step w (.drop c) = w.release c.ref := if_pos held
  cases c with
  | requester r =>
    obtain ⟨_, _, -, heq⟩ := releaseRequester_eq r w
    refine .stays ?_ rfl rfl
    rw [after]
    show Tidy ch (w.releaseRequester r)
    rw [heq]
    exact { h with requesters := h.requesters.modify fun _ _ same => same }
  | receiver v =>
    cases hv : w.receivers.get? v with
    | none => simp [Component.isHeld, hv] at held
    | some cell =>
      have live : cell.live = true := by simpa [Component.isHeld, hv] using held
      have active : (Component.receiver v).isActive w = true := by
        rw [Component.isActive, held]
        rfl
      have left : Tidy { ch with core := ch.core.unregister (Service.request cell.name) }
          (step w (.drop (.receiver v))) := by
        rw [after]
        show Tidy _ (w.releaseReceiver v)
        unfold World.releaseReceiver
        rw [hv]
        dsimp only
        rw [if_pos live]
        refine
          { channel := ?_, unclosed := h.unclosed, requesters := h.requesters, pingers := h.pingers
            receivers := h.receivers.modify fun _ _ same => same }
        show (w.channels.modify _ _).get? line = _
        rw [h.receivers v cell hv, Table.get?_modify_self, h.channel]
        rfl
      refine .leaves left rfl ((Event.leaves?_of_active rfl active).trans ?_) rfl
      simp [Component.service?, hv]
  | pinger =>
    refine h.stop held rfl rfl fun stopped => ?_
    rw [after]
    exact { stopped with pingers := stopped.pingers.modify fun _ _ same => same }

theorem Component.isActive_of_dropped (dropped : ¬ c.isHeld w = true) : c.isActive w = false := by
  rw [Component.isActive, Bool.eq_false_iff.mpr dropped]
  rfl

theorem Event.leaves?_of_dropped (h : e.leaver? = some c ∨ e.leaver? = none)
    (dropped : ¬ c.isHeld w = true) : e.leaves? w = none := by
  rcases h with leaver | nobody
  · exact Event.leaves?_of_inactive leaver (Component.isActive_of_dropped dropped)
  · rw [Event.leaves?, nobody]
    rfl

/-- What an event does to the services of the channel. -/
theorem Tidy.step (h : Tidy ch w) (e : Event) : Stepped ch w e := by
  cases e with
  | requester name policy => exact h.requester name policy
  | receiver name policy => exact h.receiver name policy
  | pinger interval timeout => exact h.pinger interval timeout
  | dispose c =>
    by_cases held : c.isHeld w = true
    · exact h.dispose c held
    · have same : Neighbours.step w (.dispose c) = w := if_neg held
      refine .stays (same.symm ▸ h) rfl (Event.leaves?_of_dropped ?_ held)
      cases c <;> first | exact .inl rfl | exact .inr rfl
  | drop c =>
    by_cases held : c.isHeld w = true
    · exact h.drop c held
    · have same : Neighbours.step w (.drop c) = w := if_neg held
      refine .stays (same.symm ▸ h) rfl (Event.leaves?_of_dropped ?_ held)
      cases c <;> first | exact .inl rfl | exact .inr rfl

end Events

/-! ## Runs -/

theorem handlerAt_eq {ch : Channel} {w : World} (h : Tidy ch w) (service : String) :
    handlerAt w service = ch.core.services.lookup service := by
  unfold handlerAt
  rw [h.channel, Option.bind_some, ChannelCore.handler?, if_neg (by rw [h.unclosed]; exact Bool.false_ne_true)]

theorem Event.leaves?_of_registers {w : World} {registered : String × Component} (e : Event)
    (h : e.registers? w = some registered) : e.leaves? w = none := by
  cases e with
  | dispose | drop => exact absurd h nofun
  | _ => rfl

theorem handlerAt_step {ch : Channel} {w : World} (h : Tidy ch w) (e : Event) (service : String) :
    (∀ c, e.registers? w = some (service, c) → handlerAt (step w e) service = some c.handler) ∧
    ((∀ c, e.registers? w ≠ some (service, c)) → handlerAt (step w e) service =
      if e.leaves? w = some service then none else handlerAt w service) := by
  obtain ⟨_, after, services⟩ := h.step e
  rw [handlerAt_eq after, handlerAt_eq h, services]
  unfold Event.services
  cases came : e.registers? w with
  | some =>
    grind [e.leaves?_of_registers]
  | none =>
    grind

theorem tidy_run (es : List Event) : ∃ ch, Tidy ch (run opening es) := by
  induction es using List.reverseRecOn with
  | nil =>
    exact ⟨_, { channel := rfl, unclosed := rfl, requesters := .empty, receivers := .empty, pingers := .empty }⟩
  | append_singleton _ e ih =>
    obtain ⟨ch, tidy⟩ := ih
    obtain ⟨ch', after, -⟩ := tidy.step e
    rw [run, Runs.run_append]
    exact ⟨ch', after⟩

theorem handlerAt_run {service : String} {es : List Event} {w : World} (h : ∃ ch, Tidy ch w)
    (nobody : ∀ u ∈ turns w es, ∀ c, u.event.registers? u.before ≠ some (service, c)) :
    ((∀ u ∈ turns w es, u.event.leaves? u.before ≠ some service) →
      handlerAt (run w es) service = handlerAt w service) ∧
    ((∃ u ∈ turns w es, u.event.leaves? u.before = some service) →
      handlerAt (run w es) service = none) := by
  induction es generalizing w with
  | nil => exact ⟨fun _ => rfl, fun ⟨u, hu, _⟩ => absurd hu List.not_mem_nil⟩
  | cons e es ih =>
    obtain ⟨ch, tidy⟩ := h
    obtain ⟨ch', after, -⟩ := tidy.step e
    obtain ⟨stays, goes⟩ := ih ⟨ch', after⟩ fun u hu => nobody u (.tail _ hu)
    have first := (handlerAt_step tidy e service).2 (nobody ⟨w, e, step w e⟩ (.head _))
    refine ⟨fun none => ?_, fun some => ?_⟩
    · rw [if_neg (none ⟨w, e, step w e⟩ (.head _))] at first
      exact (stays fun u hu => none u (.tail _ hu)).trans first
    · by_cases later : ∃ u ∈ turns (step w e) es, u.event.leaves? u.before = service
      · exact goes later
      · obtain ⟨u, hu, left⟩ := some
        rcases List.mem_cons.mp hu with rfl | hu
        · rw [if_pos left] at first
          exact (stays fun u hu same => later ⟨u, hu, same⟩).trans first
        · exact absurd ⟨u, hu, left⟩ later

/-- Who is heard after the events `es`. -/
structure Heard (es : List Event) : Prop where
  untouched : ∀ t ∈ turns opening es, ∀ service, (∀ c, t.event.registers? t.before ≠ some (service, c)) →
    t.event.leaves? t.before ≠ some service → handlerAt t.after service = handlerAt t.before service
  heard : ∀ before t after service c, turns opening es = before ++ t :: after →
    t.event.registers? t.before = some (service, c) →
    (∀ u ∈ after, ∀ c', u.event.registers? u.before ≠ some (service, c')) →
    (handlerAt (run opening es) service = some c.handler ↔
      ∀ u ∈ after, u.event.leaves? u.before ≠ some service)
  receives : ∀ service (c : Component), handlerAt (run opening es) service = some c.handler →
    ∀ payload, (run opening es).deliver line service payload = c.receive payload (run opening es)
  lost : ∀ service, handlerAt (run opening es) service = none →
    ∀ payload, (run opening es).deliver line service payload = (run opening es, [])

/-- Components that leave take the handler of their service with them, and nothing else. -/
theorem heard_until_namesake_leaves (es : List Event) : Heard es := by
  refine
    { untouched := fun t ht service nobody none => ?_, heard := fun before t after service c split came last => ?_
      receives := fun service c here payload => ?_, lost := fun service nobody payload => ?_ }
  · obtain ⟨before, after, split⟩ := List.append_of_mem ht
    obtain ⟨es₁, es₂, -, turn, -⟩ := Runs.turns_split split
    obtain ⟨ch, tidy⟩ := tidy_run es₁
    rw [turn] at nobody none ⊢
    exact ((handlerAt_step tidy t.event service).2 nobody).trans (if_neg none)
  · obtain ⟨es₁, es₂, -, turn, rfl, rfl⟩ := Runs.turns_split split
    obtain ⟨ch, tidy⟩ := tidy_run es₁
    have installed : handlerAt (run opening (es₁ ++ [t.event])) service = some c.handler := by
      rw [turn] at came
      rw [run, Runs.run_append]
      exact (handlerAt_step tidy t.event service).1 c came
    obtain ⟨_, _⟩ := handlerAt_run (tidy_run (es₁ ++ [t.event])) last
    rw [List.append_cons, run, Runs.run_append]
    grind
  · unfold World.deliver
    unfold handlerAt at here
    rw [here]
    cases c <;> rfl
  · unfold World.deliver
    unfold handlerAt at nobody
    rw [nobody]

/-- Two requesters of one name, of which the first is disposed after the second came. -/
def succession : List Event :=
  [.requester "calls" .abort, .requester "calls" .abort, .dispose (.requester 0)]

/-- The second requester is neither disposed nor dropped, and it was the last to come for its service, but
the responses that it waits for are lost. -/
theorem silenced_by_namesake :
    (Component.requester 1).isActive (run opening succession) = true ∧
      (Component.requester 1).service? (run opening succession) = some (Service.response "calls") ∧
      handlerAt (run opening succession) (Service.response "calls") = none ∧
      ∀ payload, (run opening succession).deliver line (Service.response "calls") payload =
        (run opening succession, []) := by
  have none : handlerAt (run opening succession) (Service.response "calls") = .none := by decide +kernel
  refine ⟨by decide +kernel, by decide +kernel, none, fun payload => ?_⟩
  unfold World.deliver
  unfold handlerAt at none
  rw [none]

end Neighbours

end Switchboard
