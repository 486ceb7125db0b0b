import Switchboard.Proofs.Exchange
import Switchboard.Proofs.Pinging
import Switchboard.Proofs.Runs
import Switchboard.Proofs.Waking

/-!
# A pinger and the clock

A pinger watches a channel on which pongs of one peer come in, at any time and in any number. Time passes
only when nothing is left to do, and never beyond the next timer.

`Face` is what matters of such a world, and `Next` lists once what an event can do to it.
-/

namespace Switchboard

open World

namespace Deadline

/-! ## The system -/

abbrev line : Nat := 0

abbrev pinger : Nat := 0

abbrev beat : Nat := 0

/-- How the pinger is set up. -/
structure Setting where
  /-- When it is put on the channel. -/
  start : Nat
  interval : Nat
  timeout : Nat
  /-- The identifier of the peer. -/
  id : Nat
  /-- Whether somebody is told when the peer is established. -/
  callback : Bool
  valid : (LivenessConfig.mk (.ofMillis interval) (.ofMillis timeout)).validate = .ok ()

theorem Setting.asks (s : Setting) : 0 < s.interval ∧ s.interval < s.timeout :=
  LivenessConfig.validate_ofMillis s.valid

def vacant : Channel := { label := "line", transport := .recorder none }

def opening (s : Setting) : Exchange :=
  ⟨(({ script := Script.echo, clock := s.start, channels := ({} : Table Channel).push vacant } : World).newPinger
    "pinger" line s.interval s.timeout (if s.callback then some [] else none)).1, []⟩

/-- What can happen. -/
inductive Event where
  /-- The next action of the agenda is carried out. -/
  | proceed
  | poll (task : Nat)
  | pong (payload : Json)
  | postPing
  | wait (time : Nat)

def Setting.hears (s : Setting) : Event → Bool
  | .pong payload => Pinger.pongId? payload == some s.id
  | _ => false

/-- Nothing is left to do before a timer. -/
def AtRest (x : Exchange) : Prop := x.agenda = [] ∧ x.world.queue = []

def turn (x : Exchange) (t : Nat) : World := { x.world with queue := x.world.queue.erase t }

/-- Let an event happen. Tasks go on only when the agenda is empty. Time passes only when nothing else can
happen, and until the next timer at most. -/
def step (s : Setting) (x : Exchange) : Event → Exchange
  | .proceed =>
    match x.agenda with
    | [] => x
    | a :: rest => ⟨(x.world.perform a).1, (x.world.perform a).2 ++ rest⟩
  | .poll t =>
    if x.agenda = [] then
      let (w, more) := (turn x t).poll t
      ⟨w, more⟩
    else x
  | .pong payload =>
    if s.hears (.pong payload) then
      let (w, more) := x.world.deliver line Service.pong payload
      ⟨w, more ++ x.agenda⟩
    else x
  | .postPing => ⟨x.world.postPing pinger, x.agenda⟩
  | .wait time =>
    if (x.agenda = [] ∧ x.world.queue = []) ∧ x.world.clock ≤ time ∧ ∀ t ∈ x.world.timers, time ≤ t.1 then
      ⟨x.world.wakeDue time, []⟩
    else x

/-! ## What matters -/

def ping? (l : Logged) : Option Nat :=
  match l.event with
  | .sent _ service _ => if service = Service.ping then some l.time else none
  | _ => none

/-- What matters of a world with a pinger. -/
structure Face where
  agenda : List Action
  queue : List Nat
  clock : Nat
  core : Pinger
  watch : Watch
  loop : PingLoop
  closed : Bool
  pings : List Nat

def faceOf (agenda : List Action) (w : World) (cell : PingerCell) : Face where
  agenda := agenda
  queue := w.queue
  clock := w.clock
  core := cell.core
  watch := cell.watch
  loop := cell.loop
  closed := !w.isOpen line
  pings := w.events.filterMap ping?

def face (x : Exchange) : Face := faceOf x.agenda x.world ((x.world.pingers.get? pinger).getD default)

/-- What an event can do. -/
inductive Next (s : Setting) (v : Face) : Event → Face → Prop
  | still {e} (deaf : v.core.isDisposed = true ∨ s.hears e = false) : Next s v e v
  | asked (live : v.core.isDisposed = false) : Next s v .postPing { v with pings := v.pings ++ [v.clock] }
  | met {payload} (hears : s.hears (.pong payload) = true) (live : v.core.isDisposed = false)
      (unknown : v.core.remote = none) : Next s v (.pong payload) { v with core := ⟨.established, some s.id⟩ }
  | reassured {payload q} (hears : s.hears (.pong payload) = true) (live : v.core.isDisposed = false)
      (known : v.core.remote = some s.id) (more : v.queue ⊆ q) (woken : beat ∈ q) :
      Next s v (.pong payload) { v with watch := { v.watch with signs := v.watch.signs + 1 }, queue := q }
  /-- A task goes on that is not there. -/
  | forgot {t} (other : t ≠ beat) : Next s v (.poll t) { v with queue := v.queue.erase t }
  /-- The pinger's task lets the others go first. -/
  | yielded {q} (fresh : v.loop = .fresh) (woken : beat ∈ q) :
      Next s v (.poll beat) { v with loop := .starting, queue := q }
  | looked (idle : v.agenda = []) (begun : v.loop ≠ .fresh) :
      Next s v (.poll beat) { v with queue := v.queue.erase beat, agenda := [.pingNext pinger] }
  | begun {rest} (first : v.agenda = .pingNext pinger :: rest) (starting : v.loop = .starting) :
      Next s v .proceed
        { v with
          loop := .running, watch := { v.watch with nextTick := v.clock + v.watch.interval }
          pings := v.pings ++ [v.clock] }
  | ticked {rest} (first : v.agenda = .pingNext pinger :: rest) (running : v.loop = .running)
      (due : v.watch.duty v.clock = .ping) :
      Next s v .proceed { v with watch := v.watch.tick v.clock, pings := v.pings ++ [v.clock] }
  | postponed {rest} (first : v.agenda = .pingNext pinger :: rest) (running : v.loop = .running)
      (due : v.watch.duty v.clock = .postpone) : Next s v .proceed { v with watch := v.watch.postpone v.clock }
  | gaveUp {rest} (first : v.agenda = .pingNext pinger :: rest) (running : v.loop = .running)
      (due : v.watch.duty v.clock = .giveUp) :
      Next s v .proceed
        { v with
          agenda := .closeChannel line :: rest, core := { v.core with state := .disposed .timedOut }
          loop := .stopped }
  | rested {rest} (first : v.agenda = .pingNext pinger :: rest)
      (idle : v.loop = .fresh ∨ v.loop = .stopped ∨ v.loop = .running ∧ v.watch.duty v.clock = .rest) :
      Next s v .proceed { v with agenda := rest }
  | closing {rest} (first : v.agenda = .closeChannel line :: rest) :
      Next s v .proceed { v with agenda := .closeCore line :: rest }
  | closed {rest} (first : v.agenda = .closeCore line :: rest) :
      Next s v .proceed { v with agenda := rest, closed := true }
  | waited {time q} (idle : v.agenda = []) (settled : v.queue = []) (later : v.clock ≤ time)
      (early : v.loop = .running → time ≤ v.watch.nextTime)
      (woken : v.loop = .running → v.watch.nextTime ≤ time → beat ∈ q) :
      Next s v (.wait time) { v with clock := time, queue := q }

/-! ## Where things stand -/

/-- What the pinger and its agenda can be. -/
structure Sane (s : Setting) (v : Face) : Prop where
  core : v.core.isDisposed = false → v.core.remote = none ∨ v.core.remote = some s.id
  loop : v.loop = .stopped ↔ v.core.isDisposed = true
  chores : ∀ a ∈ v.agenda, a = .pingNext pinger ∨
    v.core.isDisposed = true ∧ (a = .closeChannel line ∨ a = .closeCore line)

def occupied : Channel := watched pinger vacant

def deserted : Channel := unwatched (some 0) occupied

def shut : Channel := { deserted with core := { deserted.core with disposed := true } }

/-- The pinger in the world. -/
structure Held (x : Exchange) (cell : PingerCell) : Prop where
  here : x.world.pingers.get? pinger = some cell
  mine : cell.channel = line
  tasks : x.world.tasks = ({} : Table Task).push (.pingLoop pinger)
  callback : cell.onEstablished = none ∨ cell.onEstablished = some []
  live : cell.core.isDisposed = false → x.world.channels.get? line = some occupied ∧ cell.hook = some 0
  dead : cell.core.isDisposed = true →
    x.world.channels.get? line = some deserted ∨ x.world.channels.get? line = some shut

def Leads (s : Setting) (x : Exchange) (e : Event) : Prop :=
  (∃ cell, Held (step s x e) cell) ∧ Next s (face x) e (face (step s x e))

section Events

variable {s : Setting} {x : Exchange} {cell : PingerCell}

section

variable (h : Held x cell)
include h

theorem Held.face : face x = faceOf x.agenda x.world cell := by
  rw [Deadline.face, h.here]
  rfl

variable {y : Exchange} {d : PingerCell}

theorem Held.alter (here : y.world.pingers.get? pinger = some d) (tasks : y.world.tasks = x.world.tasks)
    (channels : y.world.channels = x.world.channels) (mine : d.channel = cell.channel)
    (callback : d.onEstablished = none ∨ d.onEstablished = cell.onEstablished)
    (core : d.core.isDisposed = cell.core.isDisposed) (hook : d.hook = cell.hook) : Held y d where
  here := here
  mine := mine.trans h.mine
  tasks := tasks.trans h.tasks
  callback := callback.elim .inl fun same => same ▸ h.callback
  live live := by rw [channels, hook]; exact h.live (core ▸ live)
  dead dead := by rw [channels]; exact h.dead (core ▸ dead)

variable {e : Event}

theorem Leads.of (after : step s x e = y)
    (h' : Held y d) (next : Next s (faceOf x.agenda x.world cell) e (faceOf y.agenda y.world d)) :
    Leads s x e := by
  unfold Leads
  rw [after, h.face, h'.face]
  exact ⟨⟨d, h'⟩, next⟩

theorem Leads.still (same : step s x e = x)
    (deaf : cell.core.isDisposed = true ∨ s.hears e = false) : Leads s x e :=
  .of h same h (.still deaf)

/-- Sending a ping is reported. -/
theorem Held.postPing (live : cell.core.isDisposed = false) :
    x.world.postPing pinger = x.world.log (.sent "line" Service.ping (.obj [])) := by
  unfold World.postPing
  rw [h.here]
  simp only [live, Bool.false_eq_true, if_false, h.mine, sendQuietly, World.send, (h.live live).1]
  rfl

end

theorem faceOf_sent (agenda : List Action) (w : World) (cell : PingerCell) :
    faceOf agenda (w.log (.sent "line" Service.ping (.obj []))) cell =
      { faceOf agenda w cell with pings := (faceOf agenda w cell).pings ++ [w.clock] } := by
  simp [faceOf, World.log, World.isOpen, ping?]

theorem faceOf_established (agenda : List Action) (w : World) (cell : PingerCell) (label : String) :
    faceOf agenda (w.log (.established label)) cell = faceOf agenda w cell := by
  simp [faceOf, World.log, World.isOpen, ping?]

variable (h : Held x cell)
include h

theorem leads_postPing : Leads s x .postPing := by
  cases live : cell.core.isDisposed with
  | true =>
    have same : x.world.postPing pinger = x.world := by simp [World.postPing, h.here, live]
    exact .still h (by rw [step, same]) (.inr rfl)
  | false =>
    have after : step s x .postPing = ⟨x.world.log (.sent "line" Service.ping (.obj [])), x.agenda⟩ := by
      rw [step, h.postPing live]
    refine .of h after (h.alter h.here rfl rfl rfl (.inr rfl) rfl rfl) ?_
    rw [faceOf_sent]
    exact .asked live

theorem leads_pong (sane : Sane s (face x)) (payload : Json) : Leads s x (.pong payload) := by
  cases hears : s.hears (.pong payload) with
  | false => exact .still h (if_neg (by rw [hears]; nofun)) (.inr hears)
  | true =>
    have after : step s x (.pong payload) =
        ⟨(x.world.deliver line Service.pong payload).1, (x.world.deliver line Service.pong payload).2 ++ x.agenda⟩ :=
      if_pos hears
    have id : Pinger.pongId? payload = some s.id := by simpa [Setting.hears] using hears
    cases live : cell.core.isDisposed with
    | true =>
      have lost : x.world.deliver line Service.pong payload = (x.world, []) := by
        unfold World.deliver
        rcases h.dead live with there | there <;> rw [there] <;> rfl
      rw [lost] at after
      exact .still h after (.inl live)
    | false =>
      have heard : x.world.deliver line Service.pong payload = x.world.onPong pinger payload := by
        unfold World.deliver
        rw [(h.live live).1]
        rfl
      rw [heard] at after
      have core := sane.core
      rw [h.face] at core
      rcases core live with unknown | known
      · rw [onPong_first h.here live id unknown] at after
        have here : (x.world.pingers.modify pinger (acquainted s.id)).get? pinger = some (acquainted s.id cell) := by
          simp [h.here]
        rcases h.callback with none | some
        · rw [none] at after
          exact .of h after (h.alter here rfl rfl rfl (.inl rfl) (by rw [live]; rfl) rfl)
            (.met hears live unknown)
        · rw [some] at after
          refine .of h after (h.alter here rfl rfl rfl (.inl rfl) (by rw [live]; rfl) rfl) ?_
          rw [faceOf_established]
          exact .met hears live unknown
      · obtain ⟨_, heq, more, woken⟩ := wake_spec (.pinger pinger)
          { x.world with pingers := x.world.pingers.modify pinger reassured }
        rw [onPong_alive h.here live id known, heq] at after
        refine .of h after (h.alter (d := reassured cell) (by simp [h.here]) rfl rfl rfl (.inr rfl) rfl rfl) ?_
        refine .reassured hears live known more (woken beat (.pingLoop pinger) ?_ rfl)
        exact Table.mem_entries.mpr (by rw [h.tasks]; rfl)

/-! Tasks -/

theorem leads_poll (t : Nat) : Leads s x (.poll t) := by
  by_cases idle : x.agenda = []
  · have after : step s x (.poll t) = ⟨((turn x t).poll t).1, ((turn x t).poll t).2⟩ := if_pos idle
    by_cases mine : t = beat
    · subst mine
      have task : (turn x beat).tasks.get? beat = some (.pingLoop pinger) := by
        rw [show (turn x beat).tasks = x.world.tasks from rfl, h.tasks]
        rfl
      have here : (turn x beat).pingers.get? pinger = some cell := h.here
      rw [poll_pingLoop task here] at after
      by_cases fresh : cell.loop = .fresh
      · obtain ⟨_, heq, -, woken⟩ := schedule_spec beat ((turn x beat).setLoop pinger .starting)
        rw [if_pos fresh, heq] at after
        refine .of h after (h.alter (d := { cell with loop := .starting }) (by simp [setLoop, here]) rfl rfl rfl
          (.inr rfl) rfl rfl) ?_
        rw [idle]
        exact .yielded fresh woken
      · rw [if_neg fresh] at after
        exact .of h after (h.alter h.here rfl rfl rfl (.inr rfl) rfl rfl) (.looked idle fresh)
    · have gone : x.world.tasks.get? t = none := by
        rw [h.tasks, Table.get?_push, if_neg (by exact mine)]
        rfl
      have polled : (turn x t).poll t = (turn x t, []) := by
        unfold World.poll
        rw [show (turn x t).tasks.get? t = none from gone]
      rw [polled] at after
      refine .of h after (h.alter h.here rfl rfl rfl (.inr rfl) rfl rfl) ?_
      rw [idle]
      exact .forgot mine
  · exact .still h (if_neg idle) (.inr rfl)

/-! Time -/

theorem Held.timers :
    x.world.timers = if cell.loop = .running then [(cell.watch.nextTime, beat)] else [] := by
  unfold World.timers
  rw [h.tasks]
  have entries : (({} : Table Task).push (.pingLoop pinger)).entries = [(beat, .pingLoop pinger)] := rfl
  rw [entries]
  by_cases running : cell.loop = .running <;> simp [dueTime, h.here, running]

theorem leads_wait (time : Nat) : Leads s x (.wait time) := by
  by_cases passes : (x.agenda = [] ∧ x.world.queue = []) ∧ x.world.clock ≤ time ∧ ∀ t ∈ x.world.timers, time ≤ t.1
  · obtain ⟨⟨idle, settled⟩, later, early⟩ := passes
    have after : step s x (.wait time) = ⟨x.world.wakeDue time, []⟩ := if_pos ⟨⟨idle, settled⟩, later, early⟩
    obtain ⟨_, heq, -, woken⟩ := wakeDue_spec time x.world
    rw [heq] at after
    refine .of h after (h.alter h.here rfl rfl rfl (.inr rfl) rfl rfl) ?_
    rw [idle]
    refine .waited rfl settled later (fun running => ?_) fun running late => ?_
    · exact early (cell.watch.nextTime, beat) (by rw [h.timers, if_pos (by exact running)]; exact .head _)
    · refine woken beat (.pingLoop pinger) cell.watch.nextTime (by rw [h.tasks]; rfl) ?_ late
      simp only [dueTime, h.here, if_pos (show cell.loop = .running from running)]
  · exact .still h (if_neg passes) (.inr rfl)

/-! Actions -/

variable {rest : List Action}

theorem leads_pingNext (sane : Sane s (face x))
    (first : x.agenda = .pingNext pinger :: rest) : Leads s x .proceed := by
  have after : step s x .proceed = ⟨(x.world.pingNext pinger).1, (x.world.pingNext pinger).2 ++ rest⟩ := by
    simp only [step, first]
    rfl
  have halted := sane.loop
  rw [h.face] at halted
  have live : cell.loop ≠ .stopped → cell.core.isDisposed = false := fun going =>
    Bool.eq_false_iff.mpr fun dead => going (halted.mpr dead)
  have alter : ∀ f, (x.world.pingers.modify pinger f).get? pinger = some (f cell) := fun f => by simp [h.here]
  unfold World.pingNext at after
  rw [h.here] at after
  cases loop : cell.loop with
  | stopped | fresh =>
    simp only [loop] at after
    exact .of h after (h.alter h.here rfl rfl rfl (.inr rfl) rfl rfl) (.rested first (by simp [faceOf, loop]))
  | starting =>
    have live := live (by rw [loop]; nofun)
    simp only [loop, h.postPing live] at after
    refine .of h after (h.alter (d := { cell with
      watch := { cell.watch with nextTick := x.world.clock + cell.watch.interval }, loop := .running }) ?_ rfl rfl rfl
      (.inr rfl) rfl rfl) ?_
    · simp only [setWatch, setLoop, Table.modify_modify]
      exact alter _
    · show Next s _ .proceed (faceOf _ (x.world.log _) _)
      rw [faceOf_sent]
      refine cast ?_ (Next.begun (s := s) (v := faceOf x.agenda x.world cell) first loop)
      rw [faceOf, first]
      rfl
  | running =>
    have live := live (by rw [loop]; nofun)
    simp only [loop] at after
    rcases cell.watch.duty_cases x.world.clock with ⟨duty, -⟩ | ⟨-, ⟨duty, -⟩ | ⟨-, ⟨duty, -⟩ | ⟨duty, -⟩⟩⟩
    · simp only [duty, disposePinger_of_live h.here live, h.mine, (h.live live).2] at after
      have there : (x.world.channels.modify line (unwatched (some 0))).get? line = some deserted := by
        rw [Table.get?_modify_self, (h.live live).1]
        rfl
      refine .of h after (d := stopped .timedOut cell) ?_ ?_
      · exact
          { here := alter _, mine := h.mine, tasks := h.tasks, callback := .inl rfl, live := nofun
            dead := fun _ => .inl there }
      · have next := Next.gaveUp (s := s) (v := faceOf x.agenda x.world cell) first loop duty
        convert next using 1
        simp only [faceOf, World.isOpen, there, (h.live live).1]
        rfl
    · simp only [duty] at after
      refine .of h after (h.alter (alter _) rfl rfl rfl (.inr rfl) rfl rfl) ?_
      refine cast ?_ (Next.postponed (s := s) (v := faceOf x.agenda x.world cell) first loop duty)
      rw [faceOf, first]
      rfl
    · simp only [duty, h.postPing live] at after
      refine .of h after (h.alter (alter _) rfl rfl rfl (.inr rfl) rfl rfl) ?_
      show Next s _ .proceed (faceOf _ (x.world.log _) _)
      rw [faceOf_sent]
      refine cast ?_ (Next.ticked (s := s) (v := faceOf x.agenda x.world cell) first loop duty)
      rw [faceOf, first]
      rfl
    · simp only [duty] at after
      exact .of h after (h.alter h.here rfl rfl rfl (.inr rfl) rfl rfl) (.rested first (.inr (.inr ⟨loop, duty⟩)))

theorem leads_closing (first : x.agenda = .closeChannel line :: rest)
    (dead : cell.core.isDisposed = true) : Leads s x .proceed := by
  have after : step s x .proceed = ⟨(x.world.closeChannel line).1, (x.world.closeChannel line).2 ++ rest⟩ := by
    simp only [step, first]
    rfl
  have orders : x.world.closeChannel line = (x.world, [.closeCore line]) := by
    unfold World.closeChannel
    rcases h.dead dead with there | there <;> rw [there] <;> rfl
  rw [orders] at after
  exact .of h after (h.alter h.here rfl rfl rfl (.inr rfl) rfl rfl) (.closing first)

theorem leads_closed (first : x.agenda = .closeCore line :: rest)
    (dead : cell.core.isDisposed = true) : Leads s x .proceed := by
  have after : step s x .proceed = ⟨(x.world.closeCore line).1, (x.world.closeCore line).2 ++ rest⟩ := by
    simp only [step, first]
    rfl
  have next := Next.closed (s := s) (v := faceOf x.agenda x.world cell) first
  rcases h.dead dead with there | there
  · have closes : x.world.closeCore line = (x.world.modifyChannel line fun _ => shut.core, []) := by
      unfold World.closeCore
      rw [there]
      rfl
    have here : (x.world.modifyChannel line fun _ => shut.core).channels.get? line = some shut := by
      simp only [modifyChannel, Table.get?_modify_self, there]
      rfl
    rw [closes] at after
    refine .of h after (d := cell) ?_ ?_
    · exact { h with live := fun live => (by cases dead.symm.trans live), dead := fun _ => .inr here }
    · convert next using 1
      simp only [faceOf, World.isOpen, here]
      rfl
  · have closes : x.world.closeCore line = (x.world, []) := by
      unfold World.closeCore
      rw [there]
      rfl
    rw [closes] at after
    refine .of h after (h.alter h.here rfl rfl rfl (.inr rfl) rfl rfl) ?_
    convert next using 1
    simp only [faceOf, World.isOpen, there]
    rfl

theorem leads (sane : Sane s (face x)) (e : Event) : Leads s x e := by
  cases e with
  | proceed =>
    cases agenda : x.agenda with
    | nil => exact .still h (by simp only [step, agenda]) (.inr rfl)
    | cons a =>
      have chore := sane.chores a (by rw [show (face x).agenda = x.agenda from rfl, agenda]; exact .head _)
      rw [h.face] at chore
      rcases chore with rfl | ⟨dead, rfl | rfl⟩
      · exact leads_pingNext h sane agenda
      · exact leads_closing h agenda dead
      · exact leads_closed h agenda dead
  | poll t => exact leads_poll h t
  | pong payload => exact leads_pong h sane payload
  | postPing => exact leads_postPing h
  | wait time => exact leads_wait h time

end Events

end Deadline

end Switchboard
