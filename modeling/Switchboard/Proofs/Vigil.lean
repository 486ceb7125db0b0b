import Switchboard.Proofs.Exchange
import Switchboard.Proofs.Pinging

/-!
# The life of a pinger

One pinger watches a channel. Anything may come in on the channel, sending may fail for a while, time
passes, and anybody may close the channel or stop the pinger; others listen on the channel too and are
told when it is closed. What a callback does is a matter of the events that come before the rest of the
agenda.

`Fit` says how a pinger hangs on its channel, `View` is what matters of both, and `Next` lists once what an
event can do to it. A pinger stops for the first cause there is, and only for some of them does it close the
channel itself.
-/

namespace Switchboard

open World

def PingerStop.isOwn : PingerStop → Bool
  | .timedOut => true
  | .channelIdMismatch => true
  | .malformedPong => true
  | .channelClosed => false
  | .explicit => false

namespace Vigil

abbrev line : Nat := 0

abbrev watcher : Nat := 0

/-- What can happen. -/
inductive Event where
  /-- A message is handed over. -/
  | hear (service : String) (payload : Json)
  | poll (task : Nat)
  /-- Time passes. -/
  | tick (ms : Nat)
  | postPing
  /-- Somebody closes the channel. -/
  | close
  /-- The pinger is stopped by its owner. -/
  | dispose
  /-- The owner of the pinger is gone. -/
  | drop
  | listen (service name : String)
  /-- Somebody else wants to hear of the closing. -/
  | heed (name : String)
  /-- Sending fails with a fault from now on, or no longer fails. -/
  | jam (fault : Option Fault)
  /-- The next action of the agenda is carried out. -/
  | proceed

def Event.apply (e : Event) (w : World) : World × List Action :=
  match e with
  | .hear service payload => w.deliver line service payload
  | .postPing => (w.postPing watcher, [])
  | .close => (w, [.closeChannel line])
  | .dispose => (w.disposePinger watcher .explicit, [])
  | .drop => (w.release (.pinger watcher), [])
  | .listen service name =>
    (if service = Service.pong then w else w.register line service (.observer "line" name []), [])
  | .heed name => w.guardChannel line (.observer "line" name [])
  | .jam fault =>
    ({ w with channels := w.channels.modify line fun ch => { ch with transport := .recorder fault } },
      [])
  | _ => (w, [])

/-- Let an event happen. Tasks go on, and time passes, only when the agenda is empty. -/
def step (x : Exchange) : Event → Exchange
  | .proceed =>
    match x.agenda with
    | [] => x
    | a :: rest => ⟨(x.world.perform a).1, (x.world.perform a).2 ++ rest⟩
  | .poll t =>
    match x.agenda with
    | [] => ⟨(x.world.poll t).1, (x.world.poll t).2⟩
    | _ => x
  | .tick ms =>
    match x.agenda with
    | [] => ⟨{ x.world with clock := x.world.clock + ms }, []⟩
    | _ => x
  | e => ⟨(e.apply x.world).1, (e.apply x.world).2 ++ x.agenda⟩

def opening : Exchange :=
  ⟨{ script := Script.echo,
     channels := ({} : Table Channel).push { label := "line", transport := .recorder none } }, []⟩

def watch (label : String) (interval timeout : Nat) (callback : Bool) (x : Exchange) : Exchange :=
  ⟨(x.world.newPinger label line interval timeout (if callback then some [] else none)).1, x.agenda⟩

abbrev Turn := Runs.Turn Exchange Event

abbrev turn (x : Exchange) (e : Event) : Turn := ⟨x, e, step x e⟩

abbrev run (x : Exchange) (es : List Event) : Exchange := Runs.run step x es

abbrev turns (x : Exchange) (es : List Event) : List Turn := Runs.turns step x es

/-! ## What a turn shows -/

def coreOf (x : Exchange) : Pinger := ((x.world.pingers.get? watcher).map (·.core)).getD {}

def isOverdue (x : Exchange) : Bool :=
  (x.world.pingers.get? watcher).any fun cell =>
    cell.loop = .running && cell.watch.deadline ≤ x.world.clock

namespace Turn

def heard? (t : Turn) : Option Json :=
  match t.event with
  | .hear service payload =>
    if service = Service.pong ∧ t.before.world.isOpen line = true ∧
        (coreOf t.before).isDisposed = false then some payload
    else none
  | _ => none

/-- The identifier of the pong that is received, before the pinger has stopped. -/
def pong? (t : Turn) : Option Nat := t.heard?.bind Pinger.pongId?

def cause? (t : Turn) : Option PingerStop :=
  match t.event, t.before.agenda with
  | .hear _ _, _ => t.heard?.bind fun payload =>
    match Pinger.pongId? payload with
    | none => some .malformedPong
    | some id =>
      if (coreOf t.before).remote.any (· != id) then some .channelIdMismatch else none
  | .dispose, _ => some .explicit
  | .drop, _ => some .explicit
  | .proceed, .runHook (.pinger _) :: _ => some .channelClosed
  | .proceed, .pingNext _ :: _ => if isOverdue t.before then some .timedOut else none
  | _, _ => none

def logged (t : Turn) : List Switchboard.Event :=
  (t.after.world.events.drop t.before.world.events.length).map Logged.event

def callbacks (t : Turn) : Nat :=
  t.logged.countP fun
    | .established _ => true
    | _ => false

def pings (t : Turn) : Nat :=
  t.logged.countP fun
    | .sent _ service _ => service == Service.ping
    | _ => false

end Turn

def closings (agenda : List Action) : Nat :=
  agenda.countP fun
    | .closeChannel _ => true
    | _ => false

def Turn.orders (t : Turn) : Prop := closings t.before.agenda < closings t.after.agenda

/-! ## How a pinger hangs on its channel -/

def Handler.IsOther (handler : Handler) : Prop := ∃ owner name, handler = .observer owner name []

def Hook.IsOther (hook : Hook) : Prop := ∃ owner name, hook = .observer owner name []

/-- What may be on the agenda. -/
inductive Chore : Action → Prop
  | closeChannel : Chore (.closeChannel line)
  | closeCore : Chore (.closeCore line)
  | told : Chore (.runHook (.pinger watcher))
  | other {hook : Hook} (h : Hook.IsOther hook) : Chore (.runHook hook)
  | pingNext : Chore (.pingNext watcher)

/-- How a channel and its pinger fit. -/
structure Fit (callback : Bool) (ch : Channel) (cell : PingerCell) : Prop where
  recorder : ∃ fault, ch.transport = .recorder fault
  mine : cell.channel = line
  pongs : ch.core.services.lookup Service.pong =
    if cell.core.isDisposed || ch.core.disposed then none else some (.pongs watcher)
  others : ∀ service handler, service ≠ Service.pong → ch.core.services.lookup service = some handler →
    Handler.IsOther handler
  hooks : ∀ e ∈ ch.core.hooks, e.2 = .pinger watcher ∧ cell.hook = some e.1 ∨ Hook.IsOther e.2
  hooked : cell.core.isDisposed = false → ch.core.disposed = false →
    ∃ key, (key, .pinger watcher) ∈ ch.core.hooks
  emptied : ch.core.disposed = true → ch.core.services = [] ∧ ch.core.hooks = []
  idle : cell.core.isDisposed = true → cell.hook = none ∧ cell.loop = .stopped
  matched : cell.core.isDisposed = false →
    cell.core.state = if cell.core.remote.isSome then .established else .awaitingFirstPong
  callback : cell.core.isDisposed = false → cell.core.remote = none →
    cell.onEstablished = if callback then some [] else none

def shutDown (ch : Channel) : Channel :=
  { ch with core := { ch.core with disposed := true, services := [], hooks := [] } }

section Unwatched

variable (key : Option Nat) (ch : Channel)

theorem services_unwatched : (unwatched key ch).core.services = Assoc.erase Service.pong ch.core.services := by
  cases key <;> rfl

theorem disposed_unwatched : (unwatched key ch).core.disposed = ch.core.disposed := by
  cases key <;> rfl

theorem mem_hooks_unwatched {e : Nat × Hook} (h : e ∈ (unwatched key ch).core.hooks) :
    e ∈ ch.core.hooks ∧ key ≠ some e.1 := by
  cases key with
  | none => exact ⟨h, nofun⟩
  | some =>
    obtain ⟨he, other⟩ := List.mem_filter.mp h
    refine ⟨he, fun same => ?_⟩
    rw [Option.some.inj same] at other
    simp at other

end Unwatched

namespace Fit

variable {callback : Bool} {ch : Channel} {cell : PingerCell}

variable (h : Fit callback ch cell)
include h

theorem stop (reason : PingerStop) : Fit callback (unwatched cell.hook ch) (stopped reason cell) where
  recorder := h.recorder
  mine := h.mine
  pongs := by
    rw [services_unwatched, Assoc.lookup_erase, if_pos (beq_self_eq_true _)]
    rfl
  others service handler other found := by
    rw [services_unwatched, Assoc.lookup_erase, if_neg (by simpa using other)] at found
    exact h.others service handler other found
  hooks e he := by
    obtain ⟨he, other⟩ := mem_hooks_unwatched _ _ he
    exact .inr ((h.hooks e he).resolve_left fun mine => other mine.2)
  hooked live := absurd live nofun
  emptied closed := by
    rw [disposed_unwatched] at closed
    obtain ⟨services, hooks⟩ := h.emptied closed
    refine ⟨by rw [services_unwatched, services]; rfl, List.eq_nil_iff_forall_not_mem.mpr fun e he => ?_⟩
    exact absurd (mem_hooks_unwatched _ _ he).1 (by rw [hooks]; exact List.not_mem_nil)
  idle _ := ⟨rfl, rfl⟩
  matched live := absurd live nofun
  callback live := absurd live nofun

theorem acquainted (live : cell.core.isDisposed = false) (id : Nat) :
    Fit callback ch (World.acquainted id cell) :=
  { h with
    pongs := by have pongs := h.pongs; rwa [live] at pongs
    hooked := fun _ => h.hooked live, idle := nofun, matched := fun _ => rfl, callback := nofun }

theorem shut : Fit callback (shutDown ch) cell :=
  { h with
    pongs := by rw [if_pos (by simp [shutDown])]; rfl
    others := nofun, hooks := nofun, hooked := nofun, emptied := fun _ => ⟨rfl, rfl⟩ }

theorem listen {service : String} (hs : service ≠ Service.pong) (name : String) :
    Fit callback { ch with core := ch.core.register service (.observer "line" name []) } cell := by
  unfold ChannelCore.register
  split
  · exact h
  · next isOpen =>
    refine { h with pongs := ?_, others := fun service' handler other found => ?_, emptied := (absurd · isOpen) }
    · exact (Assoc.lookup_set ..).trans ((if_neg (by simpa using Ne.symm hs)).trans h.pongs)
    · rw [Assoc.lookup_set] at found
      split at found
      · exact ⟨_, _, (Option.some.inj found).symm⟩
      · exact h.others service' handler other found

theorem heed (name : String) :
    Fit callback { ch with core := ch.core.addHook (.observer "line" name []) } cell := by
  unfold ChannelCore.addHook
  split
  · exact { h with }
  · next isOpen =>
    refine { h with
      hooks := fun e he => ?_, emptied := (absurd · isOpen)
      hooked := fun live ho => (h.hooked live ho).imp fun _ => List.mem_append_left _ }
    rcases List.mem_append.mp he with he | he
    · exact h.hooks e he
    · rw [List.mem_singleton.mp he]
      exact .inr ⟨_, _, rfl⟩

/-- The handlers that a message can reach. -/
theorem handler_cases (service : String) : (ch.core.handler? service = none ∧
      (cell.core.isDisposed = false → service = Service.pong → ch.core.disposed = true)) ∨
      (∃ owner name, ch.core.handler? service = some (.observer owner name []) ∧ service ≠ Service.pong) ∨
      ch.core.handler? service = some (.pongs watcher) ∧ service = Service.pong ∧ ch.core.disposed = false ∧
        cell.core.isDisposed = false := by
  unfold ChannelCore.handler?
  split
  · next closed => exact .inl ⟨rfl, fun _ _ => closed⟩
  · next isOpen =>
    have isOpen := Bool.eq_false_iff.mpr isOpen
    by_cases pong : service = Service.pong
    · subst pong
      rw [h.pongs, isOpen]
      cases cell.core.isDisposed <;> simp
    · cases found : ch.core.services.lookup service with
      | none => exact .inl ⟨rfl, fun _ same => absurd same pong⟩
      | some handler =>
        obtain ⟨owner, name, rfl⟩ := h.others service handler pong found
        exact .inr (.inl ⟨owner, name, rfl, pong⟩)

end Fit

/-! ## What matters -/

abbrev tells : Action := .runHook (.pinger watcher)

def isVital : Action → Bool
  | .closeChannel _ => true
  | .closeCore _ => true
  | .runHook (.pinger _) => true
  | _ => false

/-- What matters of a channel with a pinger. -/
structure View where
  core : Pinger
  closed : Bool
  /-- What is left to do that bears on the pinger. -/
  duties : List Action

def view (ch : Channel) (cell : PingerCell) (agenda : List Action) : View :=
  ⟨cell.core, ch.core.disposed, agenda.filter isVital⟩

/-- What is reported is neither the callback nor, once the pinger has stopped, a ping. -/
def Reports (core : Pinger) (old new : List Logged) : Prop :=
  ∃ more, new = old ++ more ∧ ∀ l ∈ more, (∀ label, l.event ≠ .established label) ∧
    (core.isDisposed = true → ∀ c v, l.event ≠ .sent c Service.ping v)

theorem Reports.none {core : Pinger} (old : List Logged) : Reports core old old :=
  ⟨[], (List.append_nil _).symm, List.forall_mem_nil _⟩

theorem Reports.log {core : Pinger} (old : List Logged) {time : Nat} {event : Switchboard.Event}
    (silent : ∀ label, event ≠ .established label)
    (pings : core.isDisposed = true → ∀ c v, event ≠ .sent c Service.ping v) :
    Reports core old (old ++ [⟨time, event⟩]) :=
  ⟨_, rfl, List.forall_mem_singleton.mpr ⟨silent, pings⟩⟩

/-- What becomes of the channel in an event that does nothing to the pinger. -/
inductive Moves (e : Event) (v : View) : View → Prop
  | stay : Moves e v v
  | ordered (asked : e = .close) : Moves e v { v with duties := .closeChannel line :: v.duties }
  | closing {rest} (first : v.duties = .closeChannel line :: rest) :
      Moves e v { v with duties := .closeCore line :: rest }
  | shut {news rest} (first : v.duties = .closeCore line :: rest) (told : ∀ a ∈ news, a = tells)
      (all : v.core.isDisposed = false → v.closed = false → tells ∈ news) :
      Moves e v { v with closed := true, duties := news ++ rest }
  /-- A pinger that has stopped hears that the channel is closed. -/
  | told {rest} (first : v.duties = tells :: rest) (gone : v.core.isDisposed = true) :
      Moves e v { v with duties := rest }

/-- What an event can do. -/
inductive Next (callback : Bool) (t : Turn) (v : View) : View → Prop
  | calm {v'} (moves : Moves t.event v v') (cause : v.core.isDisposed = false → t.cause? = none)
      (pong : v.core.isDisposed = false → t.pong?.isSome = true → v.core.remote ≠ none)
      (reports : Reports v.core t.before.world.events t.after.world.events) : Next callback t v v'
  | stopped {reason duties} (live : v.core.isDisposed = false) (cause : t.cause? = some reason)
      (pong : t.pong?.isSome = true → v.core.remote ≠ none)
      (events : t.after.world.events = t.before.world.events)
      (orders : reason.isOwn = true → duties = .closeChannel line :: v.duties)
      (leaves : reason.isOwn = false → v.duties = duties ∨ v.duties = tells :: duties) :
      Next callback t v ⟨{ v.core with state := .disposed reason }, v.closed, duties⟩
  | met {id time label} (live : v.core.isDisposed = false) (unknown : v.core.remote = none)
      (cause : t.cause? = none) (pong : t.pong? = some id)
      (events : t.after.world.events =
        t.before.world.events ++ if callback then [⟨time, .established label⟩] else []) :
      Next callback t v { v with core := ⟨.established, some id⟩ }

def View.Shut (v : View) : Prop := v.closed = true ∨ .closeChannel line ∈ v.duties ∨ .closeCore line ∈ v.duties

/-- A pinger that has not stopped will hear that the channel is closed, and one that has stopped by itself has
the channel closed. -/
structure Sane (v : View) : Prop where
  told : v.core.isDisposed = false → v.closed = true → tells ∈ v.duties
  ended : ∀ reason, v.core.state = .disposed reason → reason.isOwn = true → v.Shut

section Next

variable {callback : Bool} {t : Turn} {e : Event} {v v' : View}

theorem Moves.core (m : Moves e v v') : v'.core = v.core := by
  cases m <;> rfl

theorem Moves.sane (m : Moves e v v') (sane : Sane v) : Sane v' := by
  obtain ⟨told, ended⟩ := sane
  cases m with
  | stay => exact ⟨told, ended⟩
  | ordered => exact ⟨fun live closed => .tail _ (told live closed), fun _ _ _ => .inr (.inl (.head _))⟩
  | closing first =>
    refine ⟨fun live closed => ?_, fun _ _ _ => .inr (.inr (.head _))⟩
    grind
  | shut _ _ _ =>
    refine ⟨fun live _ => ?_, fun _ _ _ => .inl rfl⟩
    grind
  | told first gone =>
    refine ⟨fun live => absurd (gone.symm.trans live) nofun, fun reason stopped own => ?_⟩
    have ended := ended reason stopped own
    simpa [View.Shut, first] using ended

theorem Next.sane (n : Next callback t v v') (sane : Sane v) : Sane v' := by
  cases n with
  | calm moves => exact moves.sane sane
  | stopped _ _ _ _ orders =>
    refine ⟨nofun, fun _ stopped _ => .inr (.inl ?_)⟩
    rw [orders (by rwa [PingerState.disposed.inj stopped])]
    exact .head _
  | met live => exact ⟨fun _ => sane.told live, nofun⟩

/-- The channel is closed because somebody wants it to be, or because the pinger stops. -/
theorem Next.shut (n : Next callback t v v') (shut : v'.Shut) :
    t.event = .close ∨ v.Shut ∨ ∃ reason, v'.core.state = .disposed reason ∧ reason.isOwn = true := by
  cases n with
  | calm moves =>
    cases moves with
    | stay => exact .inr (.inl shut)
    | ordered asked => exact .inl asked
    | closing first => exact .inr (.inl (.inr (.inl (by rw [first]; exact .head _))))
    | shut first => exact .inr (.inl (.inr (.inr (by rw [first]; exact .head _))))
    | told first =>
      refine .inr (.inl (shut.imp_right (Or.imp ?_ ?_))) <;>
      · intro ha
        rw [first]
        exact .tail _ ha
  | @stopped reason duties _ _ _ _ _ _ =>
    cases own : reason.isOwn with
    | true => exact .inr (.inr ⟨reason, rfl, own⟩)
    | false =>
      have kept : duties ⊆ v.duties := by
        grind
      exact .inr (.inl (shut.imp_right (Or.imp (fun ha => kept ha) fun ha => kept ha)))
  | met => exact .inr (.inl shut)

def succ (core : Pinger) (cause : Option PingerStop) (pong : Option Nat) : Pinger :=
  if core.isDisposed then core
  else
    match cause, core.remote, pong with
    | some reason, _, _ => { core with state := .disposed reason }
    | none, none, some id => ⟨.established, some id⟩
    | none, _, _ => core

theorem Next.core (n : Next callback t v v') : v'.core = succ v.core t.cause? t.pong? := by
  cases n with
  | calm moves =>
    rw [moves.core]
    unfold succ
    split
    · rfl
    · grind
  | stopped live cause => simp only [succ, live, cause, Bool.false_eq_true, if_false]
  | met live unknown cause pong => simp only [succ, live, unknown, cause, pong, Bool.false_eq_true, if_false]

theorem Turn.logged_of_append {new : List Logged} (h : t.after.world.events = t.before.world.events ++ new) :
    t.logged = new.map Logged.event := by
  rw [logged, h, List.drop_left]

theorem Turn.logged_of_same (h : t.after.world.events = t.before.world.events) : t.logged = [] :=
  logged_of_append (h.trans (List.append_nil _).symm)

/-- The callback is called in the turn in which the peer is heard for the first time. -/
theorem Next.callbacks (n : Next callback t v v') (heard : t.pong?.isSome = true → v.core.isDisposed = false) :
    t.callbacks =
      if callback = true ∧ t.pong?.isSome = true ∧ v.core.remote = none then 1 else 0 := by
  cases n with
  | calm _ _ pong reports =>
    obtain ⟨_, events, _⟩ := reports
    rw [if_neg fun h => pong (heard h.2.1) h.2.1 h.2.2, Turn.callbacks, Turn.logged_of_append events,
      List.countP_eq_zero]
    grind
  | stopped _ _ pong events =>
    rw [if_neg fun h => pong h.2.1 h.2.2, Turn.callbacks, Turn.logged_of_same events]
    rfl
  | met _ unknown _ pong events =>
    rw [Turn.callbacks, Turn.logged_of_append events, pong, unknown]
    cases callback <;> rfl

/-- A pinger that has stopped sends no ping. -/
theorem Next.pings (n : Next callback t v v') (gone : v.core.isDisposed = true) : t.pings = 0 := by
  cases n with
  | calm _ _ _ reports =>
    obtain ⟨_, events, _⟩ := reports
    rw [Turn.pings, Turn.logged_of_append events, List.countP_eq_zero]
    intro _ _
    split
    · grind
    · exact Bool.false_ne_true
  | stopped live | met live => cases gone.symm.trans live

theorem closings_vital (agenda : List Action) : closings (agenda.filter isVital) = closings agenda := by
  unfold closings
  rw [List.countP_filter]
  refine List.countP_congr fun a _ => ?_
  cases a <;> simp [isVital]

/-- The pinger has the channel closed when it stops by itself, and at no other time. -/
theorem Next.orders (n : Next callback t v v') (other : t.event ≠ .close) :
    closings v.duties < closings v'.duties ↔
      v.core.isDisposed = false ∧ ∃ reason, t.cause? = some reason ∧ reason.isOwn = true := by
  cases n with
  | calm moves cause =>
    refine ⟨fun more => absurd more (Nat.not_lt.mpr ?_), fun ⟨live, _, stop, _⟩ => ?_⟩
    · cases moves with
      | stay => exact Nat.le_refl _
      | ordered asked => exact absurd asked other
      | closing first | told first => simp [first, closings]
      | @shut news rest first told =>
        have none : closings news = 0 := List.countP_eq_zero.mpr fun a ha => by rw [told a ha]; nofun
        have split : closings (news ++ rest) = closings news + closings rest := List.countP_append
        rw [split, none, first, Nat.zero_add]
        exact (List.sublist_cons_self _ _).countP_le
    · exact absurd ((cause live).symm.trans stop) nofun
  | @stopped reason duties live cause _ _ orders leaves =>
    rw [cause]
    cases own : reason.isOwn with
    | true =>
      rw [orders own]
      simp [closings, live, own]
    | false =>
      have same : closings duties = closings v.duties := by
        rcases leaves own with same | same <;> rw [same]
        exact (List.countP_cons_of_neg Bool.false_ne_true).symm
      simp [same, own]
  | met _ _ cause => simp [cause]

end Next

end Vigil

end Switchboard
