import Switchboard.Proofs.Heartbeat
import Switchboard.Proofs.Waking

/-!
# A live peer is not declared dead

Every move of a pinger with its responder is one of those that `Next` lists (`Shows.step`), and so what
`Sound` says holds after every run.
-/

namespace Switchboard

open World

namespace Heartbeat

/-! ## What does not change -/

section Tables

variable (s : Setting)

def service (b : Bool) : String × Handler :=
  if b = s.side then (Service.pong, .pongs pinger) else (Service.ping, .pings 0)

def endpoint (b : Bool) : Channel where
  label := if b then "second" else "first"
  transport := .paired 0 b
  core :=
    { services := [service s b]
      hooks := if b = s.side then [(0, .pinger pinger)] else []
      nextKey := if b = s.side then 1 else 0 }

def channels : Table Channel := (({} : Table Channel).push (endpoint s false)).push (endpoint s true)

def responder : ResponderCell where
  label := "responder"
  channel := s.far
  channelId := s.id
  listener := if s.listener then some [] else none

def tasks : Table Task :=
  ((({} : Table Task).push (.pump 0 true)).push (.pump 0 false)).push (.pingLoop pinger)

theorem get?_channels (b : Bool) : (channels s).get? (Setting.channel b) = some (endpoint s b) := by
  cases b <;> rfl

theorem get?_channels_none {c : Nat} (h : ∀ b, c ≠ Setting.channel b) : (channels s).get? c = none := by
  match c with
  | 0 => exact absurd rfl (h false)
  | 1 => exact absurd rfl (h true)
  | c + 2 => rfl

theorem entries_tasks :
    tasks.entries = [(pump true, .pump 0 true), (pump false, .pump 0 false), (beat, .pingLoop pinger)] := rfl

theorem get?_tasks_pump (b : Bool) : tasks.get? (pump b) = some (.pump 0 b) := by
  cases b <;> rfl

theorem get?_tasks_beat : tasks.get? beat = some (.pingLoop pinger) := rfl

theorem get?_tasks_none {t : Nat} (pumps : ∀ b, t ≠ pump b) (beats : t ≠ beat) : tasks.get? t = none := by
  match t with
  | 0 => exact absurd rfl (pumps true)
  | 1 => exact absurd rfl (pumps false)
  | 2 => exact absurd rfl beats
  | t + 3 => rfl

end Tables

theorem Setting.near_eq (s : Setting) : s.near = channel s.side := rfl

theorem Setting.far_eq (s : Setting) : s.far = channel (!s.side) := by
  unfold channel far
  cases s.side <;> rfl

/-! ## What a world shows -/

/-- What matters of a world is `v`. -/
structure Shows (s : Setting) (v : Pulse) (x : Exchange) : Prop where
  channels : x.world.channels = Heartbeat.channels s
  responders : x.world.responders.get? 0 = some (responder s)
  tasks : x.world.tasks = Heartbeat.tasks
  pair : x.world.pairs.get? 0 = some v.pair
  first : v.pair.first = Setting.channel false
  second : v.pair.second = Setting.channel true
  uncancelled : v.pair.cancelled = false
  pinger : ∃ cell, x.world.pingers.get? pinger = some cell ∧ cell.channel = s.near ∧ cell.core = v.core ∧
    cell.watch = v.watch ∧ cell.loop = v.loop ∧ (cell.onEstablished = none ∨ cell.onEstablished = some [])
  clock : x.world.clock = v.clock
  queue : x.world.queue = v.queue
  agenda : x.agenda = v.agenda

namespace Shows

variable {s : Setting} {v : Pulse} {x : Exchange}

section

variable (h : Shows s v x)
include h

theorem send_eq (b : Bool) (name : String) (payload : Json) :
    ∃ q, x.world.sendQuietly (Setting.channel b) name payload =
        { x.world with pairs := x.world.pairs.modify 0 fun p => p.enqueue b (name, payload), queue := q } ∧
      v.queue ⊆ q ∧ ∀ b, pump b ∈ q := by
  have here := get?_channels s b
  rw [← h.channels] at here
  obtain ⟨q, hq, kept, woken⟩ := wake_spec (.pair 0)
    { x.world with pairs := x.world.pairs.modify 0 fun p => p.enqueue b (name, payload) }
  refine ⟨q, ?_, h.queue ▸ kept, fun b' => woken (pump b') (.pump 0 b') ?_ rfl⟩
  · unfold sendQuietly send
    rw [here]
    exact hq
  · rw [h.tasks, entries_tasks]
    cases b' <;> simp

/-- The world after a message was sent. -/
theorem sent (b : Bool) (m : String × Json) (q : List Nat) :
    Shows s { v with pair := v.pair.enqueue b m, queue := q }
      ⟨{ x.world with pairs := x.world.pairs.modify 0 fun p => p.enqueue b m, queue := q }, x.agenda⟩ where
  channels := h.channels
  responders := h.responders
  tasks := h.tasks
  pair := by
    rw [Table.get?_modify_self, h.pair]
    rfl
  first := (Pair.ends_enqueue _ _ _).1.trans h.first
  second := (Pair.ends_enqueue _ _ _).2.trans h.second
  uncancelled := (Pair.cancelled_enqueue _ _ _).trans h.uncancelled
  pinger := h.pinger
  clock := h.clock
  queue := rfl
  agenda := h.agenda

def Onward (s : Setting) (v : Pulse) (x : Exchange) (m : Move) : Prop :=
  ∃ v', Next s v v' ∧ Shows s v' (Heartbeat.step s x m)

theorem still {m : Move} (same : Heartbeat.step s x m = x) : Onward s v x m :=
  ⟨v, .stay v, by rw [same]; exact h⟩

theorem say (c : Nat) (service : String) (payload : Json) : Onward s v x (.say c service payload) := by
  by_cases forged : c = s.far ∧ service = Service.pong
  · exact h.still (if_pos forged)
  · have after : Heartbeat.step s x (.say c service payload) =
        ⟨x.world.sendQuietly c service payload, x.agenda⟩ := if_neg forged
    by_cases here : ∃ b, c = Setting.channel b
    · obtain ⟨b, rfl⟩ := here
      obtain ⟨q, heq, kept, woken⟩ := h.send_eq b service payload
      have elsewhere : b ≠ s.side → Setting.channel b = s.far := fun hne => by
        rw [Setting.far_eq]
        cases b <;> cases hs : s.side <;> first | rfl | exact absurd hs.symm hne
      refine ⟨_, .send b (service, payload) (fun hne pong => absurd ⟨elsewhere hne, pong⟩ forged) kept woken, ?_⟩
      rw [after, heq]
      exact h.sent b (service, payload) q
    · refine h.still (after.trans ?_)
      have none := get?_channels_none s fun b same => here ⟨b, same⟩
      unfold sendQuietly send
      rw [h.channels, none]

theorem postPing_eq (sound : Sound s v) : ∃ q, x.world.postPing Heartbeat.pinger = { x.world with
          pairs := x.world.pairs.modify 0 fun p => p.enqueue s.side (Service.ping, .obj []), queue := q } ∧
      v.queue ⊆ q ∧ ∀ b, pump b ∈ q := by
  obtain ⟨cell, here, mine, core, -⟩ := h.pinger
  obtain ⟨q, heq, facts⟩ := h.send_eq s.side Service.ping (.obj [])
  refine ⟨q, ?_, facts⟩
  have live : ¬ cell.core.isDisposed = true := by
    rw [core]
    rcases sound.core with hc | hc <;> rw [hc] <;> exact nofun
  unfold World.postPing
  rw [here]
  dsimp only
  rw [if_neg live, mine, Setting.near_eq]
  exact heq

theorem postPing (sound : Sound s v) : Onward s v x .postPing := by
  obtain ⟨q, heq, kept, woken⟩ := h.postPing_eq sound
  refine ⟨_, .send s.side (Service.ping, .obj []) (fun hne => absurd rfl hne) kept woken, ?_⟩
  show Shows s _ ⟨x.world.postPing Heartbeat.pinger, x.agenda⟩
  rw [heq]
  exact h.sent s.side _ q

theorem poll (t : Nat) : Onward s v x (.poll t) := by
  cases agenda : x.agenda with
  | cons => exact h.still (by simp only [Heartbeat.step, agenda])
  | nil =>
    have idle : v.agenda = [] := h.agenda.symm.trans agenda
    have after : Heartbeat.step s x (.poll t) =
        ⟨(({ x.world with queue := x.world.queue.erase t }).poll t).1,
          (({ x.world with queue := x.world.queue.erase t }).poll t).2⟩ := by
      simp only [Heartbeat.step, agenda]
    by_cases pumps : ∃ b, t = pump b
    · obtain ⟨b, rfl⟩ := pumps
      refine ⟨_, .attend b idle, ?_⟩
      have polled : ({ x.world with queue := x.world.queue.erase (pump b) }).poll (pump b) =
          ({ x.world with queue := x.world.queue.erase (pump b) }, [.pumpNext 0 b]) := by
        unfold World.poll
        dsimp only
        rw [h.tasks, get?_tasks_pump]
      rw [after, polled]
      exact { h with queue := congrArg (List.erase · _) h.queue, agenda := rfl }
    · by_cases beats : t = beat
      · subst beats
        obtain ⟨cell, here, mine, core, watch, loop, onEstablished⟩ := h.pinger
        have task : ({ x.world with queue := x.world.queue.erase beat }).tasks.get? beat =
            some (.pingLoop Heartbeat.pinger) := by rw [h.tasks, get?_tasks_beat]
        rw [poll_pingLoop task here, loop] at after
        by_cases fresh : v.loop = .fresh
        · obtain ⟨q, heq, kept, woken⟩ := schedule_spec beat
            (({ x.world with queue := x.world.queue.erase beat }).setLoop Heartbeat.pinger .starting)
          have all : v.queue ⊆ q := fun t ht => by
            by_cases beats : t = beat
            · exact beats ▸ woken
            · exact kept ((List.mem_erase_of_ne beats).mpr (h.queue ▸ ht))
          rw [if_pos fresh, heq] at after
          refine ⟨_, .yield fresh all woken, ?_⟩
          rw [after]
          refine { h with queue := rfl, agenda := idle.symm, pinger := ?_ }
          refine ⟨{ cell with loop := .starting }, ?_, mine, core, watch, rfl, onEstablished⟩
          show (x.world.pingers.modify _ _).get? _ = _
          rw [Table.get?_modify_self, here]
          rfl
        · rw [if_neg fresh] at after
          refine ⟨_, .look idle fresh, ?_⟩
          rw [after]
          exact { h with queue := congrArg (List.erase · _) h.queue, agenda := rfl }
      · refine ⟨_, .forget t (fun b same => pumps ⟨b, same⟩) beats, ?_⟩
        have polled : ({ x.world with queue := x.world.queue.erase t }).poll t =
            ({ x.world with queue := x.world.queue.erase t }, []) := by
          unfold World.poll
          rw [h.tasks, get?_tasks_none (fun b same => pumps ⟨b, same⟩) beats]
        rw [after, polled]
        exact { h with queue := congrArg (List.erase · _) h.queue, agenda := idle.symm }

end

/-! ### The agenda -/

section Proceed

variable {rest : List Action}

variable (h : Shows s v x)
include h

theorem step_proceed {a : Action} (agenda : v.agenda = a :: rest) :
    Heartbeat.step s x .proceed = ⟨(x.world.perform a).1, (x.world.perform a).2 ++ rest⟩ := by
  simp only [Heartbeat.step, h.agenda, agenda]

theorem pumping {b : Bool} (agenda : v.agenda = .pumpNext 0 b :: rest) : Onward s v x .proceed := by
  have after : Heartbeat.step s x .proceed = ⟨(x.world.pumpNext 0 b).1, (x.world.pumpNext 0 b).2 ++ rest⟩ :=
    h.step_proceed agenda
  unfold World.pumpNext at after
  rw [h.pair] at after
  cases next : v.pair.next? b with
  | none =>
    simp only [next] at after
    refine ⟨_, .fetched agenda (Pair.toward_of_next? next h.uncancelled), ?_⟩
    rw [after]
    exact { h with agenda := rfl }
  | some _ =>
    simp only [next] at after
    obtain ⟨-, first, second, uncancelled⟩ := Pair.of_next? next
    have channel : v.pair.channel b = Setting.channel b := by
      unfold Pair.channel
      rw [h.first, h.second]
      cases b <;> rfl
    refine ⟨_, .fetch agenda next, ?_⟩
    rw [after]
    refine { h with
      pair := ?_, first := first.trans h.first, second := second.trans h.second
      uncancelled := uncancelled.trans h.uncancelled, agenda := ?_ }
    · rw [Table.get?_modify_self, h.pair]
      rfl
    · rw [agenda, channel]
      rfl

theorem deliver_lost {c : Nat} {name : String} {payload : Json}
    (ping : ¬ (c = s.far ∧ name = Service.ping)) (pong : ¬ (c = s.near ∧ name = Service.pong)) :
    x.world.deliver c name payload = (x.world, []) := by
  unfold World.deliver
  rw [h.channels]
  by_cases here : ∃ b, c = Setting.channel b
  · obtain ⟨b, rfl⟩ := here
    have other : (name == (service s b).1) = false := by
      rw [beq_eq_false_iff_ne]
      unfold service
      split
      · next same => exact fun hp => pong ⟨by rw [same, Setting.near_eq], hp⟩
      · next other =>
        refine fun hp => ping ⟨?_, hp⟩
        rw [Setting.far_eq]
        cases b <;> cases hs : s.side <;> first | rfl | exact absurd hs.symm other
    have unheard : (endpoint s b).core.handler? name = none := by
      show (match name == (service s b).1 with | true => _ | false => _) = _
      rw [other]
      rfl
    rw [get?_channels, Option.bind_some, unheard]
  · rw [get?_channels_none s fun b same => here ⟨b, same⟩]
    rfl

/-- A ping or a pong reaches the one who listens. -/
theorem handler (b : Bool) :
    (x.world.channels.get? (Setting.channel b)).bind (fun ch => ch.core.handler? (service s b).1) =
      some (service s b).2 := by
  rw [h.channels, get?_channels, Option.bind_some]
  exact List.lookup_cons_self

theorem answering {payload : Json}
    (agenda : v.agenda = .deliver s.far Service.ping payload :: rest) : Onward s v x .proceed := by
  have after : Heartbeat.step s x .proceed =
      ⟨(x.world.deliver s.far Service.ping payload).1, (x.world.deliver s.far Service.ping payload).2 ++ rest⟩ :=
    h.step_proceed agenda
  have mine : service s (!s.side) = (Service.ping, .pings 0) := if_neg (by cases s.side <;> exact nofun)
  have reaches : x.world.deliver s.far Service.ping payload = x.world.onPing 0 := by
    have handler := h.handler (!s.side)
    rw [mine] at handler
    unfold World.deliver
    rw [Setting.far_eq, handler]
  obtain ⟨q, heq, kept, woken⟩ := h.send_eq (!s.side) Service.pong s.pong
  have unclosed : x.world.isOpen s.far = true := by
    unfold World.isOpen
    rw [h.channels, Setting.far_eq, get?_channels]
    rfl
  have answered : ∃ events, x.world.onPing 0 =
      ({ x.world with
        pairs := x.world.pairs.modify 0 fun p => p.enqueue (!s.side) (Service.pong, s.pong)
        queue := q, events := events }, []) := by
    unfold World.onPing
    rw [h.responders]
    dsimp only [responder]
    rw [if_neg (by simp [unclosed])]
    rw [Setting.far_eq, show Json.obj [(Key.channelId, .ofNat s.id)] = s.pong from rfl, heq]
    cases s.listener
    · exact ⟨_, rfl⟩
    · exact ⟨_, rfl⟩
  obtain ⟨events, answered⟩ := answered
  refine ⟨_, .answer agenda kept woken, ?_⟩
  rw [after, reaches, answered]
  exact { h.sent (!s.side) (Service.pong, s.pong) q with agenda := rfl }

/-- A pong reaches the pinger, which knows its peer then. -/
theorem hearing (sound : Sound s v) {payload : Json}
    (agenda : v.agenda = .deliver s.near Service.pong payload :: rest) :
    ∃ v', Next s v v' ∧ Shows s v' (Heartbeat.step s x .proceed) ∧ v'.core = ⟨.established, some s.id⟩ := by
  have after : Heartbeat.step s x .proceed =
      ⟨(x.world.deliver s.near Service.pong payload).1, (x.world.deliver s.near Service.pong payload).2 ++ rest⟩ :=
    h.step_proceed agenda
  obtain rfl : payload = s.pong := by
    cases sound.chores _ (agenda ▸ List.mem_cons_self) with
    | deliver honest => exact honest rfl rfl
  have reaches : x.world.deliver s.near Service.pong s.pong = x.world.onPong Heartbeat.pinger s.pong := by
    have handler := h.handler s.side
    rw [show service s s.side = (Service.pong, .pongs Heartbeat.pinger) from if_pos rfl] at handler
    unfold World.deliver
    rw [Setting.near_eq, handler]
  obtain ⟨cell, here, mine, core, watch, loop, onEstablished⟩ := h.pinger
  have live : cell.core.isDisposed = false := by
    rw [core]
    rcases sound.core with hc | hc <;> rw [hc] <;> rfl
  rw [reaches] at after
  rcases sound.core with unknown | known
  · have stranger : cell.core.remote = none := by rw [core, unknown]
    rw [onPong_first here live s.pongId?_pong stranger] at after
    refine ⟨_, .meet agenda (by rw [unknown]), ?_, rfl⟩
    have met : (x.world.pingers.modify Heartbeat.pinger (acquainted s.id)).get? Heartbeat.pinger =
        some (acquainted s.id cell) := by
      rw [Table.get?_modify_self, here]
      rfl
    rw [after]
    rcases onEstablished with hn | hn <;> rw [hn] <;>
      exact { h with agenda := rfl, pinger := ⟨_, met, mine, rfl, watch, loop, .inl rfl⟩ }
  · have friend : cell.core.remote = some s.id := by rw [core, known]
    obtain ⟨_, heq, kept, woken⟩ := wake_spec (.pinger Heartbeat.pinger)
      { x.world with pingers := x.world.pingers.modify Heartbeat.pinger reassured }
    rw [onPong_alive here live s.pongId?_pong friend, heq] at after
    refine ⟨_, .reassure agenda (by rw [known]; exact nofun) (h.queue ▸ kept)
      (woken beat (.pingLoop Heartbeat.pinger) ?_ rfl), ?_, known⟩
    · rw [h.tasks, entries_tasks]
      simp
    · rw [after]
      refine { h with agenda := rfl, queue := rfl, pinger := ⟨reassured cell, ?_, mine, core, ?_, loop, onEstablished⟩ }
      · rw [Table.get?_modify_self, here]
        rfl
      · rw [reassured, watch]

theorem beating (sound : Sound s v) (agenda : v.agenda = .pingNext Heartbeat.pinger :: rest) :
    Onward s v x .proceed := by
  have after : Heartbeat.step s x .proceed =
      ⟨(x.world.pingNext Heartbeat.pinger).1, (x.world.pingNext Heartbeat.pinger).2 ++ rest⟩ :=
    h.step_proceed agenda
  obtain ⟨q, posted, kept, woken⟩ := h.postPing_eq sound
  obtain ⟨cell, here, mine, core, watch, loop, onEstablished⟩ := h.pinger
  have alter : ∀ f, (x.world.pingers.modify Heartbeat.pinger f).get? Heartbeat.pinger = some (f cell) := fun f => by
    rw [Table.get?_modify_self, here]
    rfl
  have sent := h.sent s.side (Service.ping, .obj []) q
  unfold World.pingNext at after
  rw [here] at after
  simp only [loop, watch, h.clock] at after
  cases begun : v.loop with
  | stopped => exact absurd begun sound.loop
  | fresh =>
    simp only [begun] at after
    refine ⟨_, .rest agenda (.inl begun), ?_⟩
    rw [after]
    exact { h with agenda := rfl }
  | starting =>
    simp only [begun, posted] at after
    refine ⟨_, .begin agenda begun kept woken, ?_⟩
    rw [after]
    refine { sent with
      agenda := agenda.symm
      pinger := ⟨{ cell with
        watch := { v.watch with nextTick := v.clock + v.watch.interval }, loop := .running }, ?_, mine, core, rfl,
        rfl, onEstablished⟩ }
    simp only [setWatch, setLoop, Table.modify_modify]
    exact alter _
  | running =>
    simp only [begun] at after
    rcases v.watch.duty_cases v.clock with ⟨-, late⟩ | ⟨-, ⟨duty, -⟩ | ⟨-, ⟨duty, -⟩ | ⟨duty, -⟩⟩⟩
    · exact absurd sound.alive (Nat.not_lt.mpr late)
    · simp only [duty] at after
      refine ⟨_, .postpone agenda begun duty, ?_⟩
      rw [after]
      exact { h with
        agenda := agenda.symm
        pinger := ⟨{ cell with watch := v.watch.postpone v.clock }, alter _, mine, core, rfl, loop, onEstablished⟩ }
    · simp only [duty, posted] at after
      refine ⟨_, .tick agenda begun duty kept woken, ?_⟩
      rw [after]
      exact { sent with
        agenda := agenda.symm
        pinger := ⟨{ cell with watch := v.watch.tick v.clock }, alter _, mine, core, rfl, loop, onEstablished⟩ }
    · simp only [duty] at after
      refine ⟨_, .rest agenda (.inr ⟨begun, duty⟩), ?_⟩
      rw [after]
      exact { h with agenda := rfl }

theorem proceed (sound : Sound s v) : Onward s v x .proceed := by
  cases agenda : v.agenda with
  | nil => exact h.still (by simp only [Heartbeat.step, h.agenda, agenda])
  | cons a rest =>
    cases sound.chores a (agenda ▸ (.head _)) with
    | pumpNext => exact h.pumping agenda
    | pingNext => exact h.beating sound agenda
    | @deliver c name payload _ =>
      by_cases ping : c = s.far ∧ name = Service.ping
      · obtain ⟨rfl, rfl⟩ := ping
        exact h.answering agenda
      · by_cases pong : c = s.near ∧ name = Service.pong
        · obtain ⟨rfl, rfl⟩ := pong
          obtain ⟨v', next, after, -⟩ := h.hearing sound agenda
          exact ⟨v', next, after⟩
        · refine ⟨_, .lose agenda ping pong, ?_⟩
          have after : Heartbeat.step s x .proceed =
              ⟨(x.world.deliver c name payload).1, (x.world.deliver c name payload).2 ++ rest⟩ :=
            h.step_proceed agenda
          rw [after, h.deliver_lost ping pong]
          exact { h with agenda := rfl }

end Proceed

/-! ### Time -/

variable (h : Shows s v x)
include h

theorem timers_eq : x.world.timers = if v.loop = .running then [(v.watch.nextTime, beat)] else [] := by
  obtain ⟨_, here, -, -, watch, loop, -⟩ := h.pinger
  unfold World.timers
  rw [h.tasks, entries_tasks]
  simp only [List.filterMap_cons, List.filterMap_nil, dueTime, Option.map_none, here, loop, watch]
  by_cases running : v.loop = .running <;> simp [running]

theorem wakeDue_eq (time : Nat) : ∃ q, x.world.wakeDue time = { x.world with clock := time, queue := q } ∧
      (v.loop = .running → v.watch.nextTime ≤ time → beat ∈ q) := by
  unfold World.wakeDue
  rw [h.timers_eq]
  by_cases due : v.loop = .running ∧ v.watch.nextTime ≤ time
  · obtain ⟨q, heq, -, woken⟩ := schedule_spec beat { x.world with clock := time }
    refine ⟨q, ?_, fun _ _ => woken⟩
    simpa [due.1, due.2] using heq
  · by_cases running : v.loop = .running
    · have early : ¬ v.watch.nextTime ≤ time := fun late => due ⟨running, late⟩
      simp [running, early]
    · simp [running]

theorem wait (time : Nat) : Onward s v x (.wait time) := by
  cases agenda : x.agenda with
  | cons => exact h.still (by simp only [Heartbeat.step, agenda])
  | nil =>
    cases queue : x.world.queue with
    | cons => exact h.still (by simp only [Heartbeat.step, agenda, queue])
    | nil =>
      by_cases passes : x.world.clock ≤ time ∧ ∀ t ∈ x.world.timers, time ≤ t.1
      · have after : Heartbeat.step s x (.wait time) = ⟨x.world.wakeDue time, []⟩ := by
          simp only [Heartbeat.step, agenda, queue]
          exact if_pos passes
        obtain ⟨_, heq, woken⟩ := h.wakeDue_eq time
        have early : v.loop = .running → time ≤ v.watch.nextTime := fun running =>
          passes.2 (v.watch.nextTime, beat) (by rw [h.timers_eq, if_pos running]; exact .head _)
        refine ⟨_, .wait (h.agenda.symm.trans agenda) (h.queue.symm.trans queue) (h.clock ▸ passes.1) early
          woken, ?_⟩
        rw [after, heq]
        exact { h with clock := rfl, queue := rfl, agenda := h.agenda ▸ agenda.symm }
      · refine h.still ?_
        simp only [Heartbeat.step, agenda, queue]
        exact if_neg passes

/-- Every move is one of those that are listed. -/
theorem step (sound : Sound s v) (m : Move) : Onward s v x m := by
  cases m with
  | proceed => exact h.proceed sound
  | poll t => exact h.poll t
  | postPing => exact h.postPing sound
  | say c service payload => exact h.say c service payload
  | wait time => exact h.wait time

end Shows

/-! ## Runs -/

def firstPulse (s : Setting) : Pulse where
  pair := { first := Setting.channel false, second := Setting.channel true }
  core := {}
  watch := ⟨s.interval, s.timeout, s.start + s.timeout, s.start + s.interval, 0⟩
  loop := .fresh
  clock := s.start
  queue := [pump true, pump false, beat]
  agenda := []

theorem shows_opening (s : Setting) : Shows s (firstPulse s) (opening s) := by
  obtain ⟨side, start, interval, timeout, _, first, callback, _, _, _⟩ := s
  have script : (if callback then some [] else none : Option (List Command)) = none ∨
      (if callback then some [] else none : Option (List Command)) = some [] := by
    cases callback
    · exact .inl rfl
    · exact .inr rfl
  cases side <;> cases first <;> exact
    { channels := rfl, responders := rfl, tasks := rfl, pair := rfl, first := rfl, second := rfl
      uncancelled := rfl, clock := rfl, queue := rfl, agenda := rfl
      pinger := ⟨freshPinger "pinger" _ interval timeout start _ (some 0), rfl, rfl, rfl, rfl, rfl, script⟩ }

theorem sound_firstPulse (s : Setting) : Sound s (firstPulse s) where
  core := .inl rfl
  interval := rfl
  timeout := rfl
  honest := by cases hs : s.side <;> exact List.forall_mem_nil _
  chores := List.forall_mem_nil _
  loop := nofun
  signed := nofun
  early _ := ⟨rfl, rfl⟩
  alive := by
    have := s.asks
    show s.start < s.start + s.timeout
    omega
  ticking := nofun
  ahead := nofun
  asking := nofun
  fetching b hm := by cases b <;> exact absurd rfl hm
  fresh _ := by
    show beat ∈ [pump true, pump false, beat]
    decide
  beating := by
    rintro (starting | ⟨running, -⟩)
    · exact absurd starting nofun
    · exact absurd running nofun

theorem sound_run (s : Setting) (ms : List Move) : ∃ v, Shows s v (run s (opening s) ms) ∧ Sound s v := by
  induction ms using List.reverseRecOn with
  | nil => exact ⟨_, shows_opening s, sound_firstPulse s⟩
  | append_singleton _ m ih =>
    obtain ⟨v, shows', sound⟩ := ih
    obtain ⟨v', next, after⟩ := shows'.step sound m
    rw [run, Runs.run_append]
    exact ⟨v', after, sound.next next⟩

/-- What is known of the peer is not forgotten. -/
theorem Next.established {s : Setting} {v v' : Pulse} (n : Next s v v')
    (h : v.core = ⟨.established, some s.id⟩) : v'.core = ⟨.established, some s.id⟩ := by
  cases n <;> first | exact h | rfl

/-- A pong is handed to the pinger next. -/
def HearsPong (s : Setting) (x : Exchange) : Prop :=
  ∃ payload rest, x.agenda = .deliver s.near Service.pong payload :: rest

/-- The pinger knows the identifier of its peer. -/
def Acquainted (s : Setting) (x : Exchange) : Prop :=
  ∃ cell, x.world.pingers.get? pinger = some cell ∧ cell.core = ⟨.established, some s.id⟩

theorem Shows.acquainted_iff {s : Setting} {v : Pulse} {x : Exchange} (h : Shows s v x) :
    Acquainted s x ↔ v.core = ⟨.established, some s.id⟩ := by
  obtain ⟨cell, here, -, core, -⟩ := h.pinger
  constructor
  · rintro ⟨_, here', known⟩
    cases here.symm.trans here'
    rw [← core, known]
  · exact fun known => ⟨cell, here, core.trans known⟩

theorem acquainted_append {s : Setting} (ms ms' : List Move) (h : Acquainted s (run s (opening s) ms)) :
    Acquainted s (run s (opening s) (ms ++ ms')) := by
  induction ms' using List.reverseRecOn with
  | nil => rwa [List.append_nil]
  | append_singleton ms' m ih =>
    obtain ⟨_, shows', sound⟩ := sound_run s (ms ++ ms')
    obtain ⟨_, next, after⟩ := shows'.step sound m
    rw [← List.append_assoc, run, Runs.run_append]
    exact after.acquainted_iff.mpr (next.established (shows'.acquainted_iff.mp ih))

theorem acquainted_of_pong {s : Setting} (ms : List Move) (h : HearsPong s (run s (opening s) ms)) :
    Acquainted s (run s (opening s) (ms ++ [.proceed])) := by
  obtain ⟨_, shows', sound⟩ := sound_run s ms
  obtain ⟨_, _, agenda⟩ := h
  obtain ⟨_, -, after, known⟩ := shows'.hearing sound (shows'.agenda.symm.trans agenda)
  rw [run, Runs.run_append]
  exact after.acquainted_iff.mpr known

/-- The pinger has not given up its peer after the moves `ms`. -/
structure Alive (s : Setting) (ms : List Move) : Prop where
  live : ∃ cell, (run s (opening s) ms).world.pingers.get? pinger = some cell ∧
    cell.core.isDisposed = false ∧ (run s (opening s) ms).world.clock < cell.watch.deadline
  /-- Once a pong has come, the peer is known for ever. -/
  met : ∀ before after, ms = before ++ .proceed :: after → HearsPong s (run s (opening s) before) →
    Acquainted s (run s (opening s) ms)
  /-- When nothing is left to do, a pong has come. -/
  rested : AtRest (run s (opening s) ms) → Acquainted s (run s (opening s) ms)
  /-- Without a pong no time passes. -/
  prompt : s.start < (run s (opening s) ms).world.clock → Acquainted s (run s (opening s) ms)

/-- A pinger whose peer answers never gives it up, whatever the timing and the order of events. -/
theorem live_peer (s : Setting) (ms : List Move) : Alive s ms := by
  obtain ⟨_, shows', sound⟩ := sound_run s ms
  obtain ⟨cell, here, -, core, watch, -⟩ := shows'.pinger
  have known := shows'.acquainted_iff
  refine ⟨⟨cell, here, ?_, ?_⟩, fun before _ split hears => ?_, fun ⟨idle, settled⟩ => ?_, fun _ => ?_⟩
  · rw [core]
    rcases sound.core with hc | hc <;> rw [hc] <;> rfl
  · rw [shows'.clock, watch]
    exact sound.alive
  · rw [split, List.append_cons]
    exact acquainted_append _ _ (acquainted_of_pong before hears)
  · exact known.mpr (sound.atRest (shows'.agenda ▸ idle) (shows'.queue ▸ settled)).2.1
  · grind [sound.core.resolve_left, sound.early, shows'.clock]

/-- A ping every two milliseconds, and a peer that is given up after five. -/
def brisk : Setting where
  side := false
  start := 0
  interval := 2
  timeout := 5
  id := 7
  first := true
  callback := false
  listener := false
  valid := rfl
  small := by decide

/-- Four pings are answered. -/
def rounds : List Move :=
  [0, 2, 4, 6].flatMap fun time => .wait time ::
    [2, 2, 0, 1, 0, 2].flatMap fun task => .poll task :: List.replicate 3 .proceed

/-- The peer is there after a time that it would not have been given without its answers. -/
theorem live_peer_rounds : brisk.start + brisk.timeout < (run brisk (opening brisk) rounds).world.clock ∧
    Acquainted brisk (run brisk (opening brisk) rounds) ∧ Alive brisk rounds := by
  have late : brisk.start + brisk.timeout < (run brisk (opening brisk) rounds).world.clock := by decide +kernel
  have alive := live_peer brisk rounds
  exact ⟨late, alive.prompt (by omega), alive⟩

end Heartbeat

end Switchboard
