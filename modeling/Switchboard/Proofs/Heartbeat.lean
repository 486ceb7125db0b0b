import Switchboard.Proofs.Exchange
import Switchboard.Proofs.Pinging
import Switchboard.Proofs.WireFormat
import Switchboard.World.Run

/-!
# A pinger and its responder

A pinger at one end of a pair and a responder at the other are put there at the same time, in any order.
Others may send what they like on the pair, except that nobody forges a pong. Messages take no time:
time passes only when nothing is left to do, and never beyond the next timer.

`Pulse` is what matters of such a world, and `Next` lists once what a move can do to it. A peer that
answers is not declared dead because of `Sound.ahead`: the next ping comes before the deadline unless
something is still under way that will postpone the deadline before time can pass.
-/

namespace Switchboard

open World

/-! ## Messages on their way -/

namespace Pair

def toward (p : Pair) (second : Bool) : List (String × Json) := if second then p.toSecond else p.toFirst

theorem toward_enqueue (p : Pair) (b second : Bool) (m : String × Json) :
    (p.enqueue b m).toward second = p.toward second ++ if second = !b then [m] else [] := by
  cases b <;> cases second <;> simp [toward, enqueue]

theorem cancelled_enqueue (p : Pair) (b : Bool) (m : String × Json) :
    (p.enqueue b m).cancelled = p.cancelled := by
  cases b <;> rfl

/-- A message that is fetched was the next one to its end. -/
theorem of_next? {p rest : Pair} {second : Bool} {m : String × Json} (h : p.next? second = some (m, rest)) :
    (∀ b, p.toward b = (if b = second then [m] else []) ++ rest.toward b) ∧ rest.first = p.first ∧
      rest.second = p.second ∧ rest.cancelled = p.cancelled := by
  obtain ⟨_, _, toFirst, toSecond, _⟩ := p
  unfold next? at h
  split at h
  · exact absurd h nofun
  · cases second
    · cases toFirst with
      | nil => exact absurd h nofun
      | cons =>
        obtain ⟨rfl, rfl⟩ := Prod.mk.inj (Option.some.inj h)
        exact ⟨fun b => by cases b <;> rfl, rfl, rfl, rfl⟩
    · cases toSecond with
      | nil => exact absurd h nofun
      | cons =>
        obtain ⟨rfl, rfl⟩ := Prod.mk.inj (Option.some.inj h)
        exact ⟨fun b => by cases b <;> rfl, rfl, rfl, rfl⟩

theorem toward_of_next? {p : Pair} {second : Bool} (h : p.next? second = none) (open' : p.cancelled = false) :
    p.toward second = [] := by
  cases second <;> simp_all [next?, toward] <;> split at h <;> simp_all

end Pair

namespace Heartbeat

/-! ## The system -/

/-- How a pinger and its responder are set up. -/
structure Setting where
  /-- The end of the pair that the pinger is at. -/
  side : Bool
  /-- The time at which they are put there. -/
  start : Nat
  interval : Nat
  timeout : Nat
  /-- The identifier of the responder. -/
  id : Nat
  /-- Whether the pinger is there before the responder. -/
  first : Bool
  /-- Whether somebody is told when the peer is established. -/
  callback : Bool
  /-- Whether somebody is told of pings. -/
  listener : Bool
  valid : (LivenessConfig.mk (.ofMillis interval) (.ofMillis timeout)).validate = .ok ()
  small : id < Json.idLimit

namespace Setting

variable (s : Setting)

theorem asks : 0 < s.interval ∧ s.interval < s.timeout := LivenessConfig.validate_ofMillis s.valid

def near : Nat := if s.side then 1 else 0

def far : Nat := if s.side then 0 else 1

def channel (b : Bool) : Nat := if b then 1 else 0

def pong : Json := .obj [(Key.channelId, .ofNat s.id)]

theorem pongId?_pong : Pinger.pongId? s.pong = some s.id := by
  have field : s.pong.field? Key.channelId = some (.ofNat s.id) := by
    show List.lookup Key.channelId [(Key.channelId, _)] = _
    exact List.lookup_cons_self
  rw [Pinger.pongId?, field, Option.bind_some, Json.asId?_ofNat, if_pos s.small]

end Setting

abbrev pinger : Nat := 0

def pump (second : Bool) : Nat := if second then 0 else 1

abbrev beat : Nat := 2

def opening (s : Setting) : Exchange :=
  let w := (({ script := Script.echo, clock := s.start } : World).newPair "first" "second").1
  let script (b : Bool) : Option (List Command) := if b then some [] else none
  let watch (w : World) := (w.newPinger "pinger" s.near s.interval s.timeout (script s.callback)).1
  let attend (w : World) := (w.newResponder "responder" s.far s.id (script s.listener)).1
  ⟨if s.first then attend (watch w) else watch (attend w), []⟩

/-- What can happen. -/
inductive Move where
  /-- The next action of the agenda is carried out. -/
  | proceed
  | poll (task : Nat)
  | postPing
  /-- Somebody else sends a message. -/
  | say (channel : Nat) (service : String) (payload : Json)
  | wait (time : Nat)

/-- Nothing is left to do before a timer. -/
def AtRest (x : Exchange) : Prop := x.agenda = [] ∧ x.world.queue = []

/-- Make a move. Tasks go on only when the agenda is empty. Time passes only when nothing else can
happen, and until the next timer at most. -/
def step (s : Setting) (x : Exchange) : Move → Exchange
  | .proceed =>
    match x.agenda with
    | [] => x
    | a :: rest => ⟨(x.world.perform a).1, (x.world.perform a).2 ++ rest⟩
  | .poll t =>
    match x.agenda with
    | [] =>
      let (w, actions) := ({ x.world with queue := x.world.queue.erase t }).poll t
      ⟨w, actions⟩
    | _ => x
  | .postPing => ⟨x.world.postPing pinger, x.agenda⟩
  | .say c service payload =>
    if c = s.far ∧ service = Service.pong then x else ⟨x.world.sendQuietly c service payload, x.agenda⟩
  | .wait time =>
    match x.agenda, x.world.queue with
    | [], [] =>
      if x.world.clock ≤ time ∧ ∀ t ∈ x.world.timers, time ≤ t.1 then ⟨x.world.wakeDue time, []⟩ else x
    | _, _ => x

abbrev run (s : Setting) (x : Exchange) (ms : List Move) : Exchange := Runs.run (step s) x ms

/-! ## What matters of a world -/

/-- What matters of a world with a pinger and its responder. -/
structure Pulse where
  pair : Pair
  core : Pinger
  watch : Watch
  loop : PingLoop
  clock : Nat
  queue : List Nat
  agenda : List Action

/-- What a move can do. -/
inductive Next (s : Setting) : Pulse → Pulse → Prop
  | stay (v : Pulse) : Next s v v
  /-- A task goes on that is not there. -/
  | forget {v : Pulse} (t : Nat) (pumps : ∀ b, t ≠ pump b) (beats : t ≠ beat) :
    Next s v { v with queue := v.queue.erase t }
  /-- A message is sent. -/
  | send {v : Pulse} (b : Bool) (m : String × Json) {queue : List Nat}
      (honest : b ≠ s.side → m.1 = Service.pong → m.2 = s.pong) (kept : v.queue ⊆ queue)
      (woken : ∀ b, pump b ∈ queue) : Next s v { v with pair := v.pair.enqueue b m, queue := queue }
  /-- Messages are to be handed over. -/
  | attend {v : Pulse} (b : Bool) (idle : v.agenda = []) :
    Next s v { v with queue := v.queue.erase (pump b), agenda := [.pumpNext 0 b] }
  | fetch {v : Pulse} {b : Bool} {m : String × Json} {pair : Pair} {rest : List Action}
      (agenda : v.agenda = .pumpNext 0 b :: rest) (next : v.pair.next? b = some (m, pair)) :
    Next s v { v with pair := pair, agenda := .deliver (Setting.channel b) m.1 m.2 :: v.agenda }
  | fetched {v : Pulse} {b : Bool} {rest : List Action} (agenda : v.agenda = .pumpNext 0 b :: rest)
      (none : v.pair.toward b = []) : Next s v { v with agenda := rest }
  /-- A message reaches nobody. -/
  | lose {v : Pulse} {c : Nat} {service : String} {payload : Json} {rest : List Action}
      (agenda : v.agenda = .deliver c service payload :: rest)
      (ping : ¬ (c = s.far ∧ service = Service.ping)) (pong : ¬ (c = s.near ∧ service = Service.pong)) :
    Next s v { v with agenda := rest }
  /-- The responder answers. -/
  | answer {v : Pulse} {payload : Json} {queue : List Nat} {rest : List Action}
      (agenda : v.agenda = .deliver s.far Service.ping payload :: rest) (kept : v.queue ⊆ queue)
      (woken : ∀ b, pump b ∈ queue) :
    Next s v { v with
      pair := v.pair.enqueue (!s.side) (Service.pong, s.pong), queue := queue, agenda := rest }
  /-- The pinger hears its peer for the first time. -/
  | meet {v : Pulse} {payload : Json} {rest : List Action}
      (agenda : v.agenda = .deliver s.near Service.pong payload :: rest) (unknown : v.core.remote = none) :
    Next s v { v with core := ⟨.established, some s.id⟩, agenda := rest }
  /-- The pinger hears its peer again. -/
  | reassure {v : Pulse} {payload : Json} {queue : List Nat} {rest : List Action}
      (agenda : v.agenda = .deliver s.near Service.pong payload :: rest) (known : v.core.remote ≠ none)
      (kept : v.queue ⊆ queue) (woken : beat ∈ queue) :
    Next s v { v with
      watch := { v.watch with signs := v.watch.signs + 1 }, queue := queue, agenda := rest }
  /-- The pinger's task lets the others go first. -/
  | yield {v : Pulse} {queue : List Nat} (fresh : v.loop = .fresh) (kept : v.queue ⊆ queue)
      (woken : beat ∈ queue) : Next s v { v with loop := .starting, queue := queue }
  | look {v : Pulse} (idle : v.agenda = []) (begun : v.loop ≠ .fresh) :
    Next s v { v with queue := v.queue.erase beat, agenda := [.pingNext pinger] }
  | begin {v : Pulse} {queue : List Nat} {rest : List Action} (agenda : v.agenda = .pingNext pinger :: rest)
      (starting : v.loop = .starting) (kept : v.queue ⊆ queue) (woken : ∀ b, pump b ∈ queue) :
    Next s v { v with
      pair := v.pair.enqueue s.side (Service.ping, .obj []), loop := .running, queue := queue
      watch := { v.watch with nextTick := v.clock + v.watch.interval } }
  | tick {v : Pulse} {queue : List Nat} {rest : List Action} (agenda : v.agenda = .pingNext pinger :: rest)
      (running : v.loop = .running) (due : v.watch.duty v.clock = .ping) (kept : v.queue ⊆ queue)
      (woken : ∀ b, pump b ∈ queue) :
    Next s v { v with
      pair := v.pair.enqueue s.side (Service.ping, .obj []), queue := queue
      watch := v.watch.tick v.clock }
  | postpone {v : Pulse} {rest : List Action} (agenda : v.agenda = .pingNext pinger :: rest)
      (running : v.loop = .running) (due : v.watch.duty v.clock = .postpone) :
    Next s v { v with watch := v.watch.postpone v.clock }
  | rest {v : Pulse} {rest : List Action} (agenda : v.agenda = .pingNext pinger :: rest)
      (idle : v.loop = .fresh ∨ v.loop = .running ∧ v.watch.duty v.clock = .rest) :
    Next s v { v with agenda := rest }
  | wait {v : Pulse} {time : Nat} {queue : List Nat} (idle : v.agenda = []) (settled : v.queue = [])
      (later : v.clock ≤ time) (early : v.loop = .running → time ≤ v.watch.nextTime)
      (woken : v.loop = .running → v.watch.nextTime ≤ time → beat ∈ queue) :
    Next s v { v with clock := time, queue := queue }

/-! ## Soundness -/

/-- What may be on the agenda. -/
inductive Chore (s : Setting) : Action → Prop
  | pumpNext (b : Bool) : Chore s (.pumpNext 0 b)
  | pingNext : Chore s (.pingNext pinger)
  | deliver {c : Nat} {service : String} {payload : Json}
      (honest : c = s.near → service = Service.pong → payload = s.pong) : Chore s (.deliver c service payload)

def Afoot (s : Setting) (v : Pulse) : Prop :=
  0 < v.watch.signs ∨ (∃ m ∈ v.pair.toward (!s.side), m.1 = Service.ping) ∨
    (∃ m ∈ v.pair.toward s.side, m.1 = Service.pong) ∨
    (∃ payload, .deliver s.far Service.ping payload ∈ v.agenda) ∨
    (∃ payload, .deliver s.near Service.pong payload ∈ v.agenda)

/-- What holds at all times. -/
structure Sound (s : Setting) (v : Pulse) : Prop where
  core : v.core = {} ∨ v.core = ⟨.established, some s.id⟩
  interval : v.watch.interval = s.interval
  timeout : v.watch.timeout = s.timeout
  honest : ∀ m ∈ v.pair.toward s.side, m.1 = Service.pong → m.2 = s.pong
  chores : ∀ a ∈ v.agenda, Chore s a
  loop : v.loop ≠ .stopped
  signed : 0 < v.watch.signs → v.core.remote ≠ none
  /-- No time passes until the pinger has heard of its peer. -/
  early : v.loop ≠ .running ∨ v.core.remote = none →
    v.clock = s.start ∧ v.watch.deadline = s.start + s.timeout
  alive : v.clock < v.watch.deadline
  ticking : v.loop = .running → v.clock ≤ v.watch.nextTick ∧ v.watch.nextTick ≤ v.clock + s.interval
  ahead : v.loop = .running → v.watch.nextTick < v.watch.deadline ∨ Afoot s v
  asking : v.loop = .running → v.core.remote = none → Afoot s v
  /-- Messages do not wait for nobody. -/
  fetching : ∀ b, v.pair.toward b ≠ [] → pump b ∈ v.queue ∨ .pumpNext 0 b ∈ v.agenda
  fresh : v.loop = .fresh → beat ∈ v.queue
  beating : v.loop = .starting ∨ v.loop = .running ∧ (0 < v.watch.signs ∨ v.watch.nextTick ≤ v.clock) →
    beat ∈ v.queue ∨ .pingNext pinger ∈ v.agenda

theorem Afoot.send {s : Setting} {v : Pulse} (h : Afoot s v) (b : Bool) (m : String × Json)
    (queue : List Nat) : Afoot s { v with pair := v.pair.enqueue b m, queue := queue } := by
  have more : ∀ (b' : Bool) (m' : String × Json), m' ∈ v.pair.toward b' → m' ∈ (v.pair.enqueue b m).toward b' :=
    fun b' m' hm => by rw [Pair.toward_enqueue]; exact List.mem_append_left _ hm
  refine h.imp_right (Or.imp ?_ (Or.imp_left ?_))
  · exact fun ⟨m', hm, hp⟩ => ⟨m', more _ m' hm, hp⟩
  · exact fun ⟨m', hm, hp⟩ => ⟨m', more _ m' hm, hp⟩

namespace Sound

variable {s : Setting} {v : Pulse}

variable {queue : List Nat}

section

variable (h : Sound s v)
include h

/-- A message is sent. -/
theorem send (b : Bool) (m : String × Json)
    (honest : b ≠ s.side → m.1 = Service.pong → m.2 = s.pong) (kept : v.queue ⊆ queue)
    (woken : ∀ b, pump b ∈ queue) : Sound s { v with pair := v.pair.enqueue b m, queue := queue } :=
  { h with
    honest := fun m' hm' hp => by
      rw [Pair.toward_enqueue] at hm'
      rcases List.mem_append.mp hm' with hm' | hm'
      · exact h.honest m' hm' hp
      · split at hm'
        · next hb =>
          obtain rfl := List.mem_singleton.mp hm'
          exact honest (by rw [hb]; cases b <;> exact nofun) hp
        · exact absurd hm' List.not_mem_nil
    ahead := fun running => (h.ahead running).imp_right fun afoot => afoot.send b m queue
    asking := fun running unknown => (h.asking running unknown).send b m queue
    fetching := fun b _ => .inl (woken b)
    fresh := fun hf => kept (h.fresh hf)
    beating := fun due => (h.beating due).imp_left fun hq => kept hq }

theorem attend (b : Bool) (idle : v.agenda = []) :
    Sound s { v with queue := v.queue.erase (pump b), agenda := [.pumpNext 0 b] } := by
  have other : ∀ t, t ≠ pump b → t ∈ v.queue → t ∈ v.queue.erase (pump b) := fun t hne ht =>
    (List.mem_erase_of_ne hne).mpr ht
  have none : ∀ {a}, a ∉ v.agenda := fun ha => absurd (idle ▸ ha) List.not_mem_nil
  have afoot : Afoot s v → Afoot s { v with queue := v.queue.erase (pump b), agenda := [.pumpNext 0 b] } :=
    Or.imp_right (Or.imp_right (Or.imp_right (Or.imp (fun ⟨_, ha⟩ => absurd ha none)
      fun ⟨_, ha⟩ => absurd ha none)))
  exact { h with
    chores := List.forall_mem_singleton.mpr (.pumpNext b)
    ahead := fun running => (h.ahead running).imp_right afoot
    asking := fun running unknown => afoot (h.asking running unknown)
    fetching := fun b' _ => by
      by_cases same : b' = b
      · exact .inr (same ▸ (.head _))
      · grind [h.fetching, pump]
    fresh := fun hf => other _ (by cases b <;> decide) (h.fresh hf)
    beating := fun due => .inl (other _ (by cases b <;> decide) ((h.beating due).resolve_right none)) }

theorem fetch {b : Bool} {m : String × Json} {pair : Pair} {rest : List Action}
    (agenda : v.agenda = .pumpNext 0 b :: rest) (next : v.pair.next? b = some (m, pair)) :
    Sound s { v with pair := pair, agenda := .deliver (Setting.channel b) m.1 m.2 :: v.agenda } := by
  obtain ⟨toward, -⟩ := Pair.of_next? next
  have taken : ∀ b' m', m' ∈ v.pair.toward b' → (b' = b ∧ m' = m) ∨ m' ∈ pair.toward b' := by
    grind
  have left : ∀ b' m', m' ∈ pair.toward b' → m' ∈ v.pair.toward b' := fun b' m' hm => by
    rw [toward]
    exact List.mem_append_right _ hm
  have mine : m ∈ v.pair.toward b := by
    rw [toward, if_pos rfl]
    exact List.mem_append_left _ (.head _)
  have near : Setting.channel s.side = s.near := rfl
  have far : Setting.channel (!s.side) = s.far := by
    unfold Setting.channel Setting.far
    cases s.side <;> rfl
  have afoot : Afoot s v → Afoot s
      { v with pair := pair, agenda := .deliver (Setting.channel b) m.1 m.2 :: v.agenda } := by
    rintro (signs | ⟨m', hm, hp⟩ | ⟨m', hm, hp⟩ | ⟨p, ha⟩ | ⟨p, ha⟩)
    · exact .inl signs
    · rcases taken _ _ hm with ⟨rfl, rfl⟩ | hm
      · refine .inr (.inr (.inr (.inl ⟨m'.2, ?_⟩)))
        rw [far, hp]
        exact .head _
      · exact .inr (.inl ⟨m', hm, hp⟩)
    · rcases taken _ _ hm with ⟨rfl, rfl⟩ | hm
      · refine .inr (.inr (.inr (.inr ⟨m'.2, ?_⟩)))
        rw [near, hp]
        exact .head _
      · exact .inr (.inr (.inl ⟨m', hm, hp⟩))
    · exact .inr (.inr (.inr (.inl ⟨p, .tail _ ha⟩)))
    · exact .inr (.inr (.inr (.inr ⟨p, .tail _ ha⟩)))
  exact { h with
    honest := fun m' hm => h.honest m' (left _ _ hm)
    chores := fun a ha => by
      rcases List.mem_cons.mp ha with rfl | ha
      · refine .deliver fun here pong => ?_
        have same : b = s.side := by
          unfold Setting.channel Setting.near at here
          cases b <;> cases hs : s.side <;> simp_all
        exact h.honest m (same ▸ mine) pong
      · exact h.chores a ha
    ahead := fun running => (h.ahead running).imp_right afoot
    asking := fun running unknown => afoot (h.asking running unknown)
    fetching := fun b' hm => by
      refine (h.fetching b' ?_).imp_right (.tail _)
      obtain ⟨m', hm⟩ := List.exists_mem_of_ne_nil _ hm
      exact List.ne_nil_of_mem (left _ _ hm)
    beating := fun due => (h.beating due).imp_right (.tail _) }

/-- An action is done that nothing depends on. -/
theorem done {a : Action} {rest : List Action} (agenda : v.agenda = a :: rest)
    (fetched : ∀ b, a = .pumpNext 0 b → v.pair.toward b = [])
    (ping : ∀ payload, a ≠ .deliver s.far Service.ping payload)
    (pong : ∀ payload, a ≠ .deliver s.near Service.pong payload)
    (rested : a = .pingNext pinger → ¬ (v.loop = .starting ∨
      v.loop = .running ∧ (0 < v.watch.signs ∨ v.watch.nextTick ≤ v.clock))) :
    Sound s { v with agenda := rest } := by
  have onward : ∀ {b}, b ∈ v.agenda → b = a ∨ b ∈ rest := fun hb => List.mem_cons.mp (agenda ▸ hb)
  have afoot : Afoot s v → Afoot s { v with agenda := rest } := by
    refine Or.imp_right (Or.imp_right (Or.imp_right (Or.imp ?_ ?_)))
    · exact fun ⟨p, ha⟩ => ⟨p, (onward ha).resolve_left fun same => ping p same.symm⟩
    · exact fun ⟨p, ha⟩ => ⟨p, (onward ha).resolve_left fun same => pong p same.symm⟩
  exact { h with
    chores := fun b hb => h.chores b (agenda ▸ .tail _ hb)
    ahead := fun running => (h.ahead running).imp_right afoot
    asking := fun running unknown => afoot (h.asking running unknown)
    fetching := fun b hm => (h.fetching b hm).imp_right fun ha =>
      (onward ha).resolve_left fun same => hm (fetched b same.symm)
    beating := fun due => (h.beating due).imp_right fun ha =>
      (onward ha).resolve_left fun same => rested same.symm due }

variable {payload : Json}

theorem answer {rest : List Action}
    (agenda : v.agenda = .deliver s.far Service.ping payload :: rest) (kept : v.queue ⊆ queue)
    (woken : ∀ b, pump b ∈ queue) : Sound s { v with
      pair := v.pair.enqueue (!s.side) (Service.pong, s.pong), queue := queue, agenda := rest } := by
  have afoot : Afoot s { v with
      pair := v.pair.enqueue (!s.side) (Service.pong, s.pong), queue := queue, agenda := rest } := by
    refine .inr (.inr (.inl ⟨(Service.pong, s.pong), ?_, rfl⟩))
    rw [Pair.toward_enqueue, if_pos (Bool.not_not _).symm]
    exact List.mem_append_right _ (.head _)
  have sent := h.send (!s.side) (Service.pong, s.pong) (fun _ _ => rfl) kept woken
  have onward : ∀ {b}, b ∈ v.agenda → b = _ ∨ b ∈ rest := fun hb => List.mem_cons.mp (agenda ▸ hb)
  exact { sent with
    chores := fun b hb => h.chores b (agenda ▸ .tail _ hb)
    ahead := fun _ => .inr afoot
    asking := fun _ _ => afoot
    fetching := fun b _ => .inl (woken b)
    beating := fun due => (sent.beating due).imp_right fun ha => (onward ha).resolve_left nofun }

end

section

variable (h : Sound s v) {rest : List Action} (agenda : v.agenda = .deliver s.near Service.pong payload :: rest)
include h agenda

theorem meet (unknown : v.core.remote = none) :
    Sound s { v with core := ⟨.established, some s.id⟩, agenda := rest } := by
  have onward : ∀ {b}, b ∈ v.agenda → b = _ ∨ b ∈ rest := fun hb => List.mem_cons.mp (agenda ▸ hb)
  have early := h.early (.inr unknown)
  exact { h with
    core := .inr rfl
    chores := fun b hb => h.chores b (agenda ▸ .tail _ hb)
    signed := fun _ => nofun
    early := fun _ => early
    ahead := fun running => .inl (by
      have := h.ticking running
      have := s.asks
      show v.watch.nextTick < v.watch.deadline
      omega)
    asking := fun _ known => absurd known nofun
    fetching := fun b hm => (h.fetching b hm).imp_right fun ha => (onward ha).resolve_left nofun
    beating := fun due => (h.beating due).imp_right fun ha => (onward ha).resolve_left nofun }

theorem reassure (known : v.core.remote ≠ none) (kept : v.queue ⊆ queue) (woken : beat ∈ queue) :
    Sound s { v with
      watch := { v.watch with signs := v.watch.signs + 1 }, queue := queue, agenda := rest } := by
  have onward : ∀ {b}, b ∈ v.agenda → b = _ ∨ b ∈ rest := fun hb => List.mem_cons.mp (agenda ▸ hb)
  exact { h with
    chores := fun b hb => h.chores b (agenda ▸ .tail _ hb)
    signed := fun _ => known
    ahead := fun _ => .inr (.inl (Nat.succ_pos _))
    asking := fun _ _ => .inl (Nat.succ_pos _)
    fetching := fun b hm => (h.fetching b hm).imp (fun hq => kept hq) fun ha => (onward ha).resolve_left nofun
    fresh := fun _ => woken
    beating := fun _ => .inl woken }

end

theorem yield (h : Sound s v) (fresh : v.loop = .fresh) (kept : v.queue ⊆ queue)
    (woken : beat ∈ queue) : Sound s { v with loop := .starting, queue := queue } :=
  { h with
    loop := nofun
    early := fun _ => h.early (.inl (by rw [fresh]; exact nofun))
    ticking := nofun
    ahead := nofun
    asking := nofun
    fetching := fun b hm => (h.fetching b hm).imp_left fun hq => kept hq
    fresh := nofun
    beating := fun _ => .inl woken }

theorem look (h : Sound s v) (idle : v.agenda = []) (begun : v.loop ≠ .fresh) :
    Sound s { v with queue := v.queue.erase beat, agenda := [.pingNext pinger] } := by
  have none : ∀ {a}, a ∉ v.agenda := fun ha => absurd (idle ▸ ha) List.not_mem_nil
  have afoot : Afoot s v → Afoot s { v with queue := v.queue.erase beat, agenda := [.pingNext pinger] } :=
    Or.imp_right (Or.imp_right (Or.imp_right (Or.imp (fun ⟨_, ha⟩ => absurd ha none)
      fun ⟨_, ha⟩ => absurd ha none)))
  exact { h with
    chores := List.forall_mem_singleton.mpr .pingNext
    ahead := fun running => (h.ahead running).imp_right afoot
    asking := fun running unknown => afoot (h.asking running unknown)
    fetching := fun b hm => .inl ((List.mem_erase_of_ne (by cases b <;> decide)).mpr
      ((h.fetching b hm).resolve_right none))
    fresh := fun fresh => absurd fresh begun
    beating := fun _ => .inr (.head _) }

theorem afoot_of_ping (v : Pulse) : Afoot s
    { v with pair := v.pair.enqueue s.side (Service.ping, .obj []) } := by
  refine .inr (.inl ⟨(Service.ping, .obj []), ?_, rfl⟩)
  rw [Pair.toward_enqueue, if_pos rfl]
  exact List.mem_append_right _ (.head _)

theorem begin (h : Sound s v) {rest : List Action}
    (agenda : v.agenda = .pingNext pinger :: rest) (starting : v.loop = .starting)
    (kept : v.queue ⊆ queue) (woken : ∀ b, pump b ∈ queue) :
    Sound s { v with
      pair := v.pair.enqueue s.side (Service.ping, .obj []), loop := .running, queue := queue
      watch := { v.watch with nextTick := v.clock + v.watch.interval } } := by
  have early := h.early (.inl (by rw [starting]; exact nofun))
  have interval := h.interval
  have asks := s.asks
  have sent := h.send s.side (Service.ping, .obj []) (fun hne => absurd rfl hne) kept woken
  exact { sent with
    loop := nofun
    early := fun _ => early
    ticking := fun _ => by dsimp only; omega
    ahead := fun _ => .inl (by dsimp only; omega)
    asking := fun _ _ => afoot_of_ping _
    fresh := nofun
    beating := fun _ => .inr (by rw [agenda]; exact .head _) }

theorem tick (h : Sound s v) {rest : List Action}
    (agenda : v.agenda = .pingNext pinger :: rest) (running : v.loop = .running)
    (due : v.watch.duty v.clock = .ping) (kept : v.queue ⊆ queue) (woken : ∀ b, pump b ∈ queue) :
    Sound s { v with
      pair := v.pair.enqueue s.side (Service.ping, .obj []), queue := queue
      watch := v.watch.tick v.clock } := by
  have now : v.watch.nextTick = v.clock := by
    have := (h.ticking running).1
    have := v.watch.duty_cases v.clock
    simp only [due, reduceCtorEq, false_and, true_and, or_false, false_or] at this
    omega
  have ticked : v.watch.tick v.clock = { v.watch with nextTick := v.clock + v.watch.interval } := by
    unfold Watch.tick
    rw [now, if_neg (by omega)]
  have sent := h.send s.side (Service.ping, .obj []) (fun hne => absurd rfl hne) kept woken
  rw [ticked]
  exact { sent with
    ticking := fun _ => ⟨Nat.le_add_right _ _, Nat.le_of_eq (congrArg (v.clock + ·) h.interval)⟩
    ahead := fun _ => .inr (afoot_of_ping _)
    beating := fun _ => .inr (by rw [agenda]; exact .head _) }

theorem postpone (h : Sound s v) {rest : List Action} (agenda : v.agenda = .pingNext pinger :: rest)
    (running : v.loop = .running) (due : v.watch.duty v.clock = .postpone) :
    Sound s { v with watch := v.watch.postpone v.clock } := by
  have signs : 0 < v.watch.signs := by
    have := v.watch.duty_cases v.clock
    grind
  have known := h.signed signs
  have asks := s.asks
  have timeout := h.timeout
  exact { h with
    signed := fun _ => known
    early := fun unknown => (unknown.elim (absurd running) fun none => absurd none known)
    alive := by show v.clock < v.clock + v.watch.timeout; omega
    ahead := fun _ => .inl (by
      have := h.ticking running
      show v.watch.nextTick < v.clock + v.watch.timeout
      omega)
    asking := fun _ unknown => absurd unknown known
    beating := fun _ => .inr (by rw [agenda]; exact .head _) }

theorem rest (h : Sound s v) {rest : List Action} (agenda : v.agenda = .pingNext pinger :: rest)
    (idle : v.loop = .fresh ∨ v.loop = .running ∧ v.watch.duty v.clock = .rest) :
    Sound s { v with agenda := rest } := by
  refine h.done agenda nofun nofun nofun fun _ => ?_
  rcases idle with _ | ⟨_, _⟩
  · grind
  · have := v.watch.duty_cases v.clock
    grind

/-- A pulse at rest: the peer is known, and the next ping comes before the deadline. -/
theorem atRest (h : Sound s v) (idle : v.agenda = []) (settled : v.queue = []) :
    v.loop = .running ∧ v.core = ⟨.established, some s.id⟩ ∧ v.clock < v.watch.nextTick ∧
      v.watch.nextTick < v.watch.deadline := by
  have nobody : ∀ {t}, t ∉ v.queue := fun ht => absurd (settled ▸ ht) List.not_mem_nil
  have nothing : ∀ {a}, a ∉ v.agenda := fun ha => absurd (idle ▸ ha) List.not_mem_nil
  have empty : ∀ b, v.pair.toward b = [] := fun b => by
    by_contra hm
    exact (h.fetching b hm).elim nobody nothing
  have quiet : ¬ (v.loop = .starting ∨ v.loop = .running ∧ (0 < v.watch.signs ∨ v.watch.nextTick ≤ v.clock)) :=
    fun due => (h.beating due).elim nobody nothing
  have running : v.loop = .running := by
    cases loop : v.loop with
    | fresh => exact absurd (h.fresh loop) nobody
    | starting => exact absurd (.inl loop) quiet
    | running => rfl
    | stopped => exact absurd loop h.loop
  have ended : ¬ Afoot s v := by
    rintro (signs | ⟨_, hm, -⟩ | ⟨_, hm, -⟩ | ⟨_, ha⟩ | ⟨_, ha⟩)
    · exact quiet (.inr ⟨running, .inl signs⟩)
    · exact absurd (empty _ ▸ hm) List.not_mem_nil
    · exact absurd (empty _ ▸ hm) List.not_mem_nil
    · exact nothing ha
    · exact nothing ha
  refine ⟨running, h.core.resolve_left fun unknown => ended (h.asking running (by rw [unknown])), ?_,
    (h.ahead running).resolve_right ended⟩
  exact Nat.lt_of_not_le fun late => quiet (.inr ⟨running, .inr late⟩)

theorem wait (h : Sound s v) {time : Nat} (idle : v.agenda = []) (settled : v.queue = [])
    (later : v.clock ≤ time) (early : v.loop = .running → time ≤ v.watch.nextTime)
    (woken : v.loop = .running → v.watch.nextTime ≤ time → beat ∈ queue) :
    Sound s { v with clock := time, queue := queue } := by
  obtain ⟨running, known, -, ahead⟩ := h.atRest idle settled
  have soon : time ≤ v.watch.nextTick := Nat.le_trans (early running) (Nat.min_le_right _ _)
  have ticking := h.ticking running
  have quiet : ¬ 0 < v.watch.signs := fun signs => by
    refine (h.beating (.inr ⟨running, .inl signs⟩)).elim (fun hq => ?_) fun ha => ?_
    · exact absurd (settled ▸ hq) List.not_mem_nil
    · exact absurd (idle ▸ ha) List.not_mem_nil
  exact { h with
    early := fun unknown => by
      rcases unknown with stopped | unknown
      · exact absurd running stopped
      · exact absurd (known ▸ unknown) nofun
    alive := Nat.lt_of_le_of_lt soon ahead
    ticking := fun _ => ⟨soon, by show v.watch.nextTick ≤ time + s.interval; omega⟩
    ahead := fun _ => .inl ahead
    fetching := fun b hm => by
      refine (h.fetching b hm).elim (fun hq => ?_) fun ha => ?_
      · exact absurd (settled ▸ hq) List.not_mem_nil
      · exact absurd (idle ▸ ha) List.not_mem_nil
    fresh := fun fresh => absurd (running.symm.trans fresh) nofun
    beating := fun due => by
      rcases due with starting | ⟨-, signs | late⟩
      · cases running.symm.trans starting
      · exact absurd signs quiet
      · exact .inl (woken running (Nat.le_trans (Nat.min_le_right _ _) late)) }

/-- What holds is kept by every move. -/
theorem next {v' : Pulse} (h : Sound s v) (n : Next s v v') : Sound s v' := by
  cases n with
  | stay => exact h
  | forget t pumps beats =>
    have kept : ∀ t', t' ≠ t → t' ∈ v.queue → t' ∈ v.queue.erase t := fun t' hne ht =>
      (List.mem_erase_of_ne hne).mpr ht
    exact { h with
      fetching := fun b hm => (h.fetching b hm).imp_left (kept _ (pumps b).symm)
      fresh := fun fresh => kept _ beats.symm (h.fresh fresh)
      beating := fun due => (h.beating due).imp_left (kept _ beats.symm) }
  | send b m honest kept woken => exact h.send b m honest kept woken
  | attend b idle => exact h.attend b idle
  | fetch agenda next => exact h.fetch agenda next
  | fetched agenda none =>
    refine h.done agenda (fun _ same => ?_) nofun nofun nofun
    obtain ⟨-, rfl⟩ := Action.pumpNext.inj same
    exact none
  | lose agenda ping pong =>
    refine h.done agenda nofun (fun p same => ping ?_) (fun p same => pong ?_) nofun
    · exact ⟨(Action.deliver.inj same).1, (Action.deliver.inj same).2.1⟩
    · exact ⟨(Action.deliver.inj same).1, (Action.deliver.inj same).2.1⟩
  | answer agenda kept woken => exact h.answer agenda kept woken
  | meet agenda unknown => exact h.meet agenda unknown
  | reassure agenda known kept woken => exact h.reassure agenda known kept woken
  | yield fresh kept woken => exact h.yield fresh kept woken
  | look idle begun => exact h.look idle begun
  | begin agenda starting kept woken => exact h.begin agenda starting kept woken
  | tick agenda running due kept woken => exact h.tick agenda running due kept woken
  | postpone agenda running due => exact h.postpone agenda running due
  | rest agenda idle => exact h.rest agenda idle
  | wait idle settled later early woken => exact h.wait idle settled later early woken

end Sound

end Heartbeat

end Switchboard
