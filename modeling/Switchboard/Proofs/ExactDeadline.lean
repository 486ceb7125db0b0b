import Mathlib.Tactic.Ring
import Switchboard.Proofs.Deadline

/-!
# The exact deadline

When a pinger gives its peer up is foretold by the pongs alone (`Past.deadline`), and when it sends pings by
its interval alone (`beats`). The pinger's own deadline lags behind while pongs are not taken into account
yet, but these do not survive the instant in which they come (`Live.due`).
-/

namespace Switchboard

open World

namespace Deadline

/-! ## What has happened -/

/-- What has happened to a pinger. -/
structure Past where
  /-- When the peer is given up if no pong comes. -/
  deadline : Nat
  /-- Whether a pong came in time. -/
  met : Bool := false
  /-- When pings were sent that nobody asked for. -/
  schedule : List Nat := []
  /-- When the pinger stopped. -/
  stops : List Nat := []
  /-- When the channel was closed. -/
  closings : List Nat := []

/-- A pong comes. Only in time does it count, and the first one does not postpone the deadline. -/
def Past.hear (timeout now : Nat) (h : Past) : Past :=
  if now < h.deadline then if h.met then { h with deadline := now + timeout } else { h with met := true } else h

def unasked (v : Face) (e : Event) (v' : Face) : List Nat :=
  match e with
  | .postPing => []
  | _ => v'.pings.drop v.pings.length

def Past.after (s : Setting) (h : Past) (v : Face) (e : Event) (v' : Face) : Past :=
  let h := if s.hears e then h.hear s.timeout v.clock else h
  { h with
    schedule := h.schedule ++ unasked v e v'
    stops := h.stops ++ if !v.core.isDisposed && v'.core.isDisposed then [v'.clock] else []
    closings := h.closings ++ if !v.closed && v'.closed then [v'.clock] else [] }

abbrev Turn := Runs.Turn Exchange Event

def past (s : Setting) (ts : List Turn) : Past :=
  ts.foldl (fun h t => h.after s (face t.before) t.event (face t.after)) { deadline := s.start + s.timeout }

def beats (s : Setting) (n : Nat) : List Nat := (List.range n).map fun k => s.start + k * s.interval

theorem beats_succ (s : Setting) (n : Nat) : beats s (n + 1) = beats s n ++ [s.start + n * s.interval] := by
  simp [beats, List.range_succ]

variable {s : Setting} {h : Past} {v v' : Face} {e : Event}

section

variable (deaf : s.hears e = false ∨ h.deadline ≤ v.clock) (core : v'.core.isDisposed = v.core.isDisposed) (closed : v'.closed = v.closed)
include deaf core closed

theorem Past.after_calm : h.after s v e v' = { h with schedule := h.schedule ++ unasked v e v' } := by
  have unheard : (if s.hears e then h.hear s.timeout v.clock else h) = h := by
    grind [Past.hear]
  simp [Past.after, unheard, core, closed]

theorem Past.after_quiet (silent : unasked v e v' = []) : h.after s v e v' = h := by
  rw [Past.after_calm deaf core closed, silent, List.append_nil]

end

theorem unasked_of_same (same : v'.pings = v.pings) : unasked v e v' = [] := by
  unfold unasked
  split
  · rfl
  · rw [same, List.drop_length]

theorem Past.after_pong (hears : s.hears e = true) (core : v'.core.isDisposed = v.core.isDisposed)
    (closed : v'.closed = v.closed) (pings : v'.pings = v.pings) :
    h.after s v e v' = h.hear s.timeout v.clock := by
  simp [Past.after, hears, core, closed, unasked_of_same pings]

theorem Past.after_ping (core : v'.core.isDisposed = v.core.isDisposed) (closed : v'.closed = v.closed)
    (pings : v'.pings = v.pings ++ [v.clock]) :
    h.after s v .proceed v' = { h with schedule := h.schedule ++ [v.clock] } := by
  have sent : unasked v .proceed v' = [v.clock] := by simp [unasked, pings]
  rw [Past.after_calm (.inl rfl) core closed, sent]

/-! ## Where the pinger stands -/

/-- A pinger that has not given up. -/
structure Live (s : Setting) (h : Past) (v : Face) : Prop where
  isOpen : v.closed = false
  stops : h.stops = [] ∧ h.closings = []
  met : v.clock < h.deadline → v.core.remote = if h.met then some s.id else none
  /-- The deadline that the pongs foretell, some of which may not have been taken into account. -/
  due : h.deadline =
    if 0 < v.watch.signs ∧ v.clock < v.watch.deadline then v.clock + s.timeout else v.watch.deadline
  early : v.clock ≤ v.watch.deadline
  beginning : v.loop ≠ .running →
    v.clock = s.start ∧ v.watch.deadline = s.start + s.timeout ∧ h.schedule = []
  running : v.loop = .running → ∃ n, h.schedule = beats s (n + 1) ∧
    v.watch.nextTick = s.start + (n + 1) * s.interval ∧ v.clock ≤ v.watch.nextTick ∧
    s.start + n * s.interval ≤ v.clock ∧ s.start + n * s.interval < v.watch.deadline
  fresh : v.loop = .fresh → beat ∈ v.queue
  awake : v.loop = .starting ∨ v.loop = .running ∧ (0 < v.watch.signs ∨ v.watch.nextTime ≤ v.clock) →
    beat ∈ v.queue ∨ .pingNext pinger ∈ v.agenda

/-- A pinger that has given up. -/
structure Dead (s : Setting) (h : Past) (v : Face) : Prop where
  state : v.core.state = .disposed .timedOut
  late : h.deadline ≤ v.clock
  stops : h.stops = [h.deadline]
  closings : h.closings = if v.closed then [h.deadline] else []
  closing : v.closed = true ∨ v.clock = h.deadline ∧ (.closeChannel line ∈ v.agenda ∨ .closeCore line ∈ v.agenda)
  schedule : ∃ n, h.schedule = beats s n ∧ (∀ k < n, s.start + k * s.interval < h.deadline) ∧
    h.deadline ≤ s.start + n * s.interval

/-- Where things stand. -/
structure Timely (s : Setting) (h : Past) (v : Face) : Prop where
  interval : v.watch.interval = s.interval
  timeout : v.watch.timeout = s.timeout
  live : v.core.isDisposed = false → Live s h v
  dead : v.core.isDisposed = true → Dead s h v

section

variable (interval : v.watch.interval = s.interval) (timeout : v.watch.timeout = s.timeout)
include interval timeout

theorem Timely.of_live (alive : v.core.isDisposed = false) (live : Live s h v) : Timely s h v :=
  ⟨interval, timeout, fun _ => live, fun dead => absurd (alive.symm.trans dead) nofun⟩

theorem Timely.of_dead (gone : v.core.isDisposed = true) (dead : Dead s h v) : Timely s h v :=
  ⟨interval, timeout, fun live => absurd (gone.symm.trans live) nofun, fun _ => dead⟩

end

/-! ## Events -/

theorem Sane.next (sane : Sane s v) (n : Next s v e v') : Sane s v' := by
  have others : ∀ {rest a}, v.agenda = a :: rest → ∀ b ∈ rest, b = .pingNext pinger ∨
      v.core.isDisposed = true ∧ (b = .closeChannel line ∨ b = .closeCore line) := fun first b hb =>
    sane.chores b (by rw [first]; exact .tail _ hb)
  have running : v.loop ≠ .stopped → ¬ v.core.isDisposed = true := fun going dead => going (sane.loop.mpr dead)
  cases n with
  | still | asked | reassured | forgot | postponed | ticked | waited => exact { sane with }
  | met _ live =>
    have going : v.loop ≠ .stopped := fun stopped => absurd (live.symm.trans (sane.loop.mp stopped)) nofun
    exact
      { core := fun _ => .inr rfl, loop := ⟨fun stopped => absurd stopped going, nofun⟩
        chores := fun a ha => (sane.chores a ha).imp_right fun dead => absurd dead.1 (by rw [live]; nofun) }
  | yielded fresh =>
    have live := running (by rw [fresh]; nofun)
    exact { sane with loop := ⟨nofun, fun dead => absurd dead live⟩ }
  | looked => exact { sane with chores := fun a ha => .inl (List.mem_singleton.mp ha) }
  | begun _ starting =>
    have live := running (by rw [starting]; nofun)
    exact { sane with loop := ⟨nofun, fun dead => absurd dead live⟩ }
  | gaveUp first =>
    refine { core := nofun, loop := ⟨fun _ => rfl, fun _ => rfl⟩, chores := fun a ha => ?_ }
    rcases List.mem_cons.mp ha with rfl | ha
    · exact .inr ⟨rfl, .inl rfl⟩
    · exact (others first a ha).imp_right fun dead => ⟨rfl, dead.2⟩
  | rested first | closed first => exact { sane with chores := others first }
  | closing first =>
    refine { sane with chores := fun a ha => ?_ }
    have dead : v.core.isDisposed = true := by
      rcases sane.chores (.closeChannel line) (by rw [first]; exact .head _) with other | dead
      · exact absurd other nofun
      · exact dead.1
    grind

/-- What becomes of a pinger that has given up. -/
theorem Dead.next (dead : Dead s h v) (gone : v.core.isDisposed = true) (sane : Sane s v) (n : Next s v e v') :
    v'.core.isDisposed = true ∧ Dead s (h.after s v e v') v' := by
  have loop : v.loop = .stopped := sane.loop.mpr gone
  have quiet : v'.core = v.core → v'.closed = v.closed → v'.pings = v.pings → h.after s v e v' = h :=
    fun core closed pings => Past.after_quiet (.inr dead.late) (by rw [core]) closed (unasked_of_same pings)
  have rests : ∀ {rest}, v.agenda = .pingNext pinger :: rest → v.closed = true ∨
      v.clock = h.deadline ∧ (.closeChannel line ∈ rest ∨ .closeCore line ∈ rest) := fun first => by
    have closing := dead.closing
    rw [first] at closing
    simpa using closing
  cases n with
  | still => exact ⟨gone, (quiet rfl rfl rfl).symm ▸ dead⟩
  | asked live | met _ live | reassured _ live => cases gone.symm.trans live
  | forgot =>
    rw [quiet rfl rfl rfl]
    exact ⟨gone, { dead with }⟩
  | yielded fresh => cases loop.symm.trans fresh
  | looked idle =>
    rw [quiet rfl rfl rfl]
    refine ⟨gone, { dead with closing := .inl ?_ }⟩
    simpa [idle] using dead.closing
  | begun _ other | ticked _ other | postponed _ other | gaveUp _ other =>
    cases loop.symm.trans other
  | rested first =>
    rw [quiet rfl rfl rfl]
    exact ⟨gone, { dead with closing := rests first }⟩
  | closing =>
    rw [quiet rfl rfl rfl]
    refine ⟨gone, { dead with closing := dead.closing.imp_right fun closing => ⟨closing.1, .inr (.head _)⟩ }⟩
  | @closed rest first =>
    have now : v.closed = false → v.clock = h.deadline := fun isOpen => by
      rcases dead.closing with closed | closing
      · cases isOpen.symm.trans closed
      · exact closing.1
    have after : h.after s v .proceed { v with agenda := rest, closed := true } =
        { h with closings := [h.deadline] } := by
      have closings := dead.closings
      cases closed : v.closed with
      | true => simp [Past.after, Setting.hears, unasked, closed, closings]
      | false => simp [Past.after, Setting.hears, unasked, closed, closings, now closed]
    rw [after]
    exact ⟨gone, { dead with closings := rfl, closing := .inl rfl }⟩
  | waited idle _ later =>
    rw [quiet rfl rfl rfl]
    refine ⟨gone, { dead with late := Nat.le_trans dead.late later, closing := .inl ?_ }⟩
    simpa [idle] using dead.closing

section

variable (live : Live s h v)
include live

theorem Live.lt_deadline (early : v.clock < h.deadline) : v.clock < v.watch.deadline := by
  have due := live.due
  split at due
  · next signs => exact signs.2
  · omega

theorem Live.deadline_le (late : h.deadline ≤ v.clock) :
    v.watch.deadline ≤ v.clock ∧ h.deadline = v.watch.deadline := by
  grind [live.due, s.asks]

/-- The first pong of the peer comes. -/
theorem Live.meet (unknown : v.core.remote = none) :
    Live s (h.hear s.timeout v.clock) { v with core := ⟨.established, some s.id⟩ } := by
  unfold Past.hear
  split
  · next early =>
    have stranger : h.met = false := by
      have remote := live.met early
      grind
    rw [stranger]
    exact { live with met := fun _ => rfl }
  · next late => exact { live with met := fun early => absurd early late }

/-- The peer is heard again. -/
theorem Live.reassure (known : v.core.remote = some s.id) {q : List Nat} (woken : beat ∈ q) :
    Live s (h.hear s.timeout v.clock) { v with watch := { v.watch with signs := v.watch.signs + 1 }, queue := q } := by
  unfold Past.hear
  split
  · next early =>
    have acquainted : h.met = true := by
      have remote := live.met early
      grind
    rw [acquainted]
    refine { live with
      met := fun _ => by rw [known]; exact (if_pos rfl).symm, due := ?_, fresh := fun _ => woken
      awake := fun _ => .inl woken }
    exact (if_pos ⟨Nat.succ_pos _, live.lt_deadline early⟩).symm
  · next late =>
    obtain ⟨over', same⟩ := live.deadline_le (Nat.le_of_not_lt late)
    refine { live with due := ?_, fresh := fun _ => woken, awake := fun _ => .inl woken }
    rw [same]
    exact (if_neg fun soon => absurd soon.2 (Nat.not_lt.mpr over')).symm

variable {rest : List Action}

/-- The first ping is sent. -/
theorem Live.begin (interval : v.watch.interval = s.interval)
    (first : v.agenda = .pingNext pinger :: rest) (starting : v.loop = .starting) :
    Live s { h with schedule := h.schedule ++ [v.clock] } { v with
        loop := .running, watch := { v.watch with nextTick := v.clock + v.watch.interval }
        pings := v.pings ++ [v.clock] } := by
  obtain ⟨clock, _, schedule⟩ := live.beginning (by rw [starting]; nofun)
  have asks := s.asks
  refine { live with
    beginning := fun other => absurd rfl other, running := fun _ => ⟨0, ?_⟩, fresh := nofun
    awake := fun _ => .inr (by rw [first]; exact .head _) }
  refine ⟨by simp [schedule, beats, clock], ?_⟩
  dsimp only
  omega

end

theorem Watch.tick_of_punctual {w : Watch} {now : Nat} (punctual : now ≤ w.nextTick) :
    w.tick now = { w with nextTick := w.nextTick + w.interval } := by
  rw [Watch.tick, if_neg (by omega)]

/-- A ping is sent when its time has come. -/
theorem Live.tick (live : Live s h v) (interval : v.watch.interval = s.interval)
    (first : v.agenda = .pingNext pinger :: rest) (running : v.loop = .running) (timely : v.clock < v.watch.deadline)
    (due : v.watch.nextTick ≤ v.clock) :
    Live s { h with schedule := h.schedule ++ [v.clock] }
      { v with watch := v.watch.tick v.clock, pings := v.pings ++ [v.clock] } := by
  obtain ⟨n, schedule, _, early, -, -⟩ := live.running running
  have now : v.clock = s.start + (n + 1) * s.interval := by omega
  have step : (n + 1 + 1) * s.interval = (n + 1) * s.interval + s.interval := by ring
  rw [Watch.tick_of_punctual early]
  refine { live with
    beginning := fun other => absurd running other, running := fun _ => ⟨n + 1, ?_⟩
    awake := fun _ => .inr (by rw [first]; exact .head _) }
  refine ⟨?_, ?_⟩
  · rw [beats_succ s (n + 1), schedule, now]
  · dsimp only
    omega

/-- Pongs are taken into account. -/
theorem Live.postpone (live : Live s h v) (timeout : v.watch.timeout = s.timeout)
    (first : v.agenda = .pingNext pinger :: rest) (running : v.loop = .running) (timely : v.clock < v.watch.deadline)
    (signs : 0 < v.watch.signs) : Live s h { v with watch := v.watch.postpone v.clock } := by
  have due := live.due
  rw [if_pos ⟨signs, timely⟩] at due
  have asks := s.asks
  obtain ⟨n, schedule, next, early, begun, -⟩ := live.running running
  refine { live with
    due := ?_, early := Nat.le_add_right _ _, beginning := fun other => absurd running other
    running := fun _ => ⟨n, schedule, next, early, begun, ?_⟩
    awake := fun _ => .inr (by rw [first]; exact .head _) }
  · simp only [Watch.postpone, timeout]
    split
    · exact due
    · exact due
  · simp only [Watch.postpone, timeout]
    omega

/-- The peer is given up. -/
theorem Live.giveUp (live : Live s h v) (running : v.loop = .running) (late : v.watch.deadline ≤ v.clock) :
    Dead s { h with stops := h.stops ++ [v.clock] }
      { v with
        agenda := .closeChannel line :: rest, core := { v.core with state := .disposed .timedOut }
        loop := .stopped } := by
  have due := live.due
  rw [if_neg fun soon => absurd soon.2 (Nat.not_lt.mpr late)] at due
  have now : v.clock = h.deadline := by
    have := live.early
    omega
  obtain ⟨n, schedule, _, _, -, _⟩ := live.running running
  refine
    { state := rfl, late := Nat.le_of_eq now.symm, stops := by rw [live.stops.1, now]; rfl
      closings := by rw [live.stops.2, live.isOpen]; rfl
      closing := .inr ⟨now, .inl (.head _)⟩, schedule := ⟨n + 1, schedule, fun k small => ?_, ?_⟩ }
  · have : k * s.interval ≤ n * s.interval := Nat.mul_le_mul_right _ (Nat.le_of_lt_succ small)
    dsimp only
    omega
  · dsimp only
    omega

section

variable (live : Live s h v) (going : v.loop ≠ .stopped) (idle : v.agenda = []) (settled : v.queue = [])
include live going idle settled

/-- A pinger at rest has nothing to do. -/
theorem Live.atRest : v.loop = .running ∧ v.watch.signs = 0 ∧ v.clock < v.watch.nextTime := by
  have asleep : ¬ (beat ∈ v.queue ∨ .pingNext pinger ∈ v.agenda) := by simp [idle, settled]
  have running : v.loop = .running := by
    cases loop : v.loop with
    | fresh => exact absurd (.inl (live.fresh loop)) asleep
    | starting => exact absurd (live.awake (.inl loop)) asleep
    | running => rfl
    | stopped => exact absurd loop going
  refine ⟨running, ?_, ?_⟩
  · grind [live.awake]
  · grind [live.awake]

/-- Time passes. -/
theorem Live.wait
    {time : Nat} {q : List Nat} (later : v.clock ≤ time) (early : v.loop = .running → time ≤ v.watch.nextTime)
    (woken : v.loop = .running → v.watch.nextTime ≤ time → beat ∈ q) :
    Live s h { v with clock := time, queue := q } := by
  obtain ⟨running, _, -⟩ := live.atRest going idle settled
  have due := live.due
  rw [if_neg fun soon => absurd soon.1 (by omega)] at due
  have limit := early running
  have bounds : v.watch.nextTime ≤ v.watch.deadline ∧ v.watch.nextTime ≤ v.watch.nextTick :=
    ⟨Nat.min_le_left _ _, Nat.min_le_right _ _⟩
  refine { live with
    met := fun soon => live.met (Nat.lt_of_le_of_lt later soon), due := ?_
    early := Nat.le_trans limit bounds.1, beginning := fun other => absurd running other
    running := fun _ => ?_, fresh := fun fresh => absurd (running.symm.trans fresh) nofun, awake := fun due => .inl ?_ }
  · rw [if_neg fun soon => absurd soon.1 (by dsimp only; omega)]
    exact due
  · obtain ⟨n, schedule, next, -, begun, last⟩ := live.running running
    exact ⟨n, schedule, next, Nat.le_trans limit bounds.2, Nat.le_trans begun later, last⟩
  · grind

end

theorem Next.watch (n : Next s v e v') :
    v'.watch.interval = v.watch.interval ∧ v'.watch.timeout = v.watch.timeout := by
  cases n <;> exact ⟨rfl, rfl⟩

theorem Live.next (live : Live s h v) (alive : v.core.isDisposed = false) (sane : Sane s v)
    (interval : v.watch.interval = s.interval) (timeout : v.watch.timeout = s.timeout) (n : Next s v e v') :
    v'.core.isDisposed = false ∧ Live s (h.after s v e v') v' ∨
      v'.core.isDisposed = true ∧ Dead s (h.after s v e v') v' := by
  have going : v.loop ≠ .stopped := fun stopped => absurd (alive.symm.trans (sane.loop.mp stopped)) nofun
  have calm : v'.core = v.core → v'.closed = v.closed → v'.pings = v.pings → s.hears e = false →
      h.after s v e v' = h := fun core closed pings deaf =>
    Past.after_quiet (.inl deaf) (by rw [core]) closed (unasked_of_same pings)
  have pong : s.hears e = true → v'.core.isDisposed = v.core.isDisposed → v'.closed = v.closed →
      v'.pings = v.pings → h.after s v e v' = h.hear s.timeout v.clock := Past.after_pong
  have ping : v'.core = v.core → v'.closed = v.closed → v'.pings = v.pings ++ [v.clock] →
      h.after s v .proceed v' = { h with schedule := h.schedule ++ [v.clock] } := fun core =>
    Past.after_ping (by rw [core])
  have duties := v.watch.duty_cases v.clock
  cases n with
  | still deaf =>
    rw [calm rfl rfl rfl (deaf.resolve_left (by rw [alive]; nofun))]
    exact .inl ⟨alive, live⟩
  | asked =>
    have quiet : h.after s v .postPing { v with pings := v.pings ++ [v.clock] } = h :=
      Past.after_quiet (.inl rfl) rfl rfl rfl
    rw [quiet]
    exact .inl ⟨alive, { live with }⟩
  | met hears _ unknown =>
    rw [pong hears (by rw [alive]; rfl) rfl rfl]
    exact .inl ⟨rfl, live.meet unknown⟩
  | reassured hears _ known _ woken =>
    rw [pong hears rfl rfl rfl]
    exact .inl ⟨alive, live.reassure known woken⟩
  | forgot other =>
    rw [calm rfl rfl rfl rfl]
    have stays : beat ∈ v.queue → beat ∈ v.queue.erase _ := (List.mem_erase_of_ne other.symm).mpr
    exact .inl ⟨alive, { live with
      fresh := fun fresh => stays (live.fresh fresh), awake := fun due => (live.awake due).imp_left stays }⟩
  | yielded fresh woken =>
    rw [calm rfl rfl rfl rfl]
    exact .inl ⟨alive, { live with
      beginning := fun _ => live.beginning (by rw [fresh]; nofun), running := nofun, fresh := nofun
      awake := fun _ => .inl woken }⟩
  | looked _ begun =>
    rw [calm rfl rfl rfl rfl]
    exact .inl ⟨alive, { live with
      fresh := fun fresh => absurd fresh begun, awake := fun _ => .inr (.head _) }⟩
  | begun first starting =>
    rw [ping rfl rfl rfl]
    exact .inl ⟨alive, live.begin interval first starting⟩
  | ticked =>
    grind [live.tick]
  | postponed first running due =>
    rw [calm rfl rfl rfl rfl]
    simp only [due, reduceCtorEq, false_and, true_and, false_or, or_false, and_false] at duties
    exact .inl ⟨alive, live.postpone timeout first running duties.1 duties.2⟩
  | @gaveUp rest first running due =>
    have after : h.after s v .proceed
        { v with
          agenda := .closeChannel line :: rest, core := { v.core with state := .disposed .timedOut }
          loop := .stopped } = { h with stops := h.stops ++ [v.clock] } := by
      have gone : ({ v.core with state := .disposed .timedOut } : Pinger).isDisposed = true := rfl
      simp [Past.after, Setting.hears, unasked, alive, gone]
    rw [after]
    exact .inr ⟨rfl, live.giveUp running (Watch.duty_eq_giveUp_iff.mp due)⟩
  | rested _ idle =>
    rw [calm rfl rfl rfl rfl]
    refine .inl ⟨alive, { live with awake := fun due => .inl ?_ }⟩
    rcases idle with fresh | stopped | ⟨running, rests⟩
    · exact live.fresh fresh
    · exact absurd stopped going
    · simp only [rests, reduceCtorEq, false_and, true_and, false_or] at duties
      obtain ⟨early, _, soon⟩ := duties
      have next : v.clock < v.watch.nextTime := Nat.lt_min.mpr ⟨early, soon⟩
      grind
  | closing first | closed first =>
    have chore := sane.chores _ (by rw [first]; exact .head _)
    simp [alive] at chore
  | waited idle settled later early woken =>
    rw [calm rfl rfl rfl rfl]
    exact .inl ⟨alive, live.wait going idle settled later early woken⟩

theorem Timely.next (timely : Timely s h v) (sane : Sane s v) (n : Next s v e v') :
    Timely s (h.after s v e v') v' := by
  have interval := n.watch.1.trans timely.interval
  have timeout := n.watch.2.trans timely.timeout
  cases alive : v.core.isDisposed with
  | true =>
    obtain ⟨gone, dead⟩ := (timely.dead alive).next alive sane n
    exact .of_dead interval timeout gone dead
  | false =>
    rcases (timely.live alive).next alive sane timely.interval timely.timeout n with ⟨alive', live⟩ | ⟨gone, dead⟩
    · exact .of_live interval timeout alive' live
    · exact .of_dead interval timeout gone dead

/-! ## Runs -/

/-- Where a run has come to. -/
structure Sound (s : Setting) (ts : List Turn) (x : Exchange) : Prop where
  held : ∃ cell, Held x cell
  sane : Sane s (face x)
  timely : Timely s (past s ts) (face x)

theorem held_opening (s : Setting) : Held (opening s)
    (freshPinger "pinger" line s.interval s.timeout s.start (if s.callback then some [] else none) (some 0)) := by
  have there : (({} : Table Channel).push vacant).get? line = some vacant := rfl
  have watched := newPinger_of_open (w := { script := Script.echo, clock := s.start
                                            channels := ({} : Table Channel).push vacant })
    there rfl "pinger" s.interval s.timeout (if s.callback then some [] else none)
  have world : (opening s).world = _ := congrArg Prod.fst watched
  refine
    { here := by rw [world]; rfl, mine := rfl, tasks := by rw [world]; rfl, callback := ?_
      live := fun _ => ⟨by rw [world]; rfl, rfl⟩, dead := nofun }
  cases s.callback
  · exact .inl rfl
  · exact .inr rfl

theorem Sound.start (s : Setting) : Sound s [] (opening s) := by
  have held := held_opening s
  refine ⟨⟨_, held⟩, ?_, ?_⟩
  · rw [held.face]
    exact { core := fun _ => .inl rfl, loop := ⟨nofun, nofun⟩, chores := List.forall_mem_nil _ }
  · rw [held.face]
    refine .of_live rfl rfl rfl ?_
    exact
      { isOpen := rfl, stops := ⟨rfl, rfl⟩, met := fun _ => rfl, due := rfl, early := Nat.le_add_right _ _
        beginning := fun _ => ⟨rfl, rfl, rfl⟩, running := nofun, fresh := fun _ => (.head _)
        awake := fun due => by rcases due with due | ⟨due, -⟩ <;> exact absurd due nofun }

theorem Sound.next {ts : List Turn} {x : Exchange} (sound : Sound s ts x) (e : Event) :
    Sound s (ts ++ [⟨x, e, step s x e⟩]) (step s x e) := by
  obtain ⟨⟨_, held⟩, sane, timely⟩ := sound
  obtain ⟨held', next⟩ := leads held sane e
  refine ⟨held', sane.next next, ?_⟩
  have after : past s (ts ++ [⟨x, e, step s x e⟩]) = (past s ts).after s (face x) e (face (step s x e)) := by
    simp [past]
  rw [after]
  exact timely.next sane next

theorem sound (s : Setting) (es : List Event) :
    Sound s (Runs.turns (step s) (opening s) es) (Runs.run (step s) (opening s) es) :=
  Runs.induction (Sound.start s) (fun _ _ e sound => sound.next e) es

/-! ## The law -/

/-- What a pinger has done by the deadline that the pongs foretell. -/
structure Exact (s : Setting) (ts : List Turn) (x : Exchange) : Prop where
  before : x.world.clock < (past s ts).deadline →
    (face x).core.isDisposed = false ∧ x.world.isOpen line = true
  /-- From the deadline on it has given up and the channel is closed, as soon as nothing is left to do. -/
  after : AtRest x → (past s ts).deadline ≤ x.world.clock →
    (face x).core.state = .disposed .timedOut ∧ x.world.isOpen line = false
  /-- It has stopped because of the time and at the deadline, or not at all. -/
  stops : (face x).core.isDisposed = false ∧ (past s ts).stops = [] ∨
    (face x).core.state = .disposed .timedOut ∧ (past s ts).stops = [(past s ts).deadline]
  closings : (past s ts).closings = if x.world.isOpen line then [] else [(past s ts).deadline]
  pings : ∃ n, (past s ts).schedule = beats s n ∧
    (∀ k < n, s.start + k * s.interval ≤ x.world.clock ∧ s.start + k * s.interval < (past s ts).deadline) ∧
    (AtRest x → ∀ k, s.start + k * s.interval ≤ x.world.clock → s.start + k * s.interval < (past s ts).deadline →
      k < n)

theorem Live.before_deadline (live : Live s h v) (going : v.loop ≠ .stopped) (idle : v.agenda = [])
    (settled : v.queue = []) : v.clock < h.deadline ∧ v.clock < v.watch.nextTick := by
  obtain ⟨-, _, soon⟩ := live.atRest going idle settled
  have due := live.due
  rw [if_neg fun signs => absurd signs.1 (by omega)] at due
  exact ⟨due ▸ Nat.lt_of_lt_of_le soon (Nat.min_le_left _ _), Nat.lt_of_lt_of_le soon (Nat.min_le_right _ _)⟩

theorem Live.pings (live : Live s h v) (going : v.loop ≠ .stopped) :
    ∃ n, h.schedule = beats s n ∧
      (∀ k < n, s.start + k * s.interval ≤ v.clock ∧ s.start + k * s.interval < h.deadline) ∧
      (v.agenda = [] → v.queue = [] → ∀ k, s.start + k * s.interval ≤ v.clock → k < n) := by
  by_cases running : v.loop = .running
  · obtain ⟨n, schedule, _, _, _, _⟩ := live.running running
    have later : v.watch.deadline ≤ h.deadline ∨ v.clock < h.deadline := by
      have due := live.due
      have asks := s.asks
      split at due <;> omega
    refine ⟨n + 1, schedule, fun k small => ?_, fun idle settled k _ => ?_⟩
    · have : k * s.interval ≤ n * s.interval := Nat.mul_le_mul_right _ (Nat.le_of_lt_succ small)
      omega
    · refine Nat.lt_of_not_le fun large => ?_
      have : (n + 1) * s.interval ≤ k * s.interval := Nat.mul_le_mul_right _ large
      have := (live.before_deadline going idle settled).2
      omega
  · obtain ⟨-, -, schedule⟩ := live.beginning running
    refine ⟨0, schedule, nofun, fun idle settled => ?_⟩
    exact absurd (live.atRest going idle settled).1 running

theorem Dead.pings (dead : Dead s h v) :
    ∃ n, h.schedule = beats s n ∧
      (∀ k < n, s.start + k * s.interval ≤ v.clock ∧ s.start + k * s.interval < h.deadline) ∧
      (∀ k, s.start + k * s.interval < h.deadline → k < n) := by
  obtain ⟨n, schedule, before, _⟩ := dead.schedule
  have late := dead.late
  refine ⟨n, schedule, fun k small => ?_, fun k _ => ?_⟩
  · have := before k small
    omega
  · refine Nat.lt_of_not_le fun large => ?_
    have : n * s.interval ≤ k * s.interval := Nat.mul_le_mul_right _ large
    omega

theorem exact_deadline (s : Setting) (es : List Event) :
    Exact s (Runs.turns (step s) (opening s) es) (Runs.run (step s) (opening s) es) := by
  obtain ⟨-, sane, timely⟩ := sound s es
  generalize Runs.run (step s) (opening s) es = x at sane timely
  have closed : (face x).closed = !x.world.isOpen line := rfl
  cases alive : (face x).core.isDisposed with
  | false =>
    have live := timely.live alive
    have going : (face x).loop ≠ .stopped := fun stopped => absurd (alive.symm.trans (sane.loop.mp stopped)) nofun
    have isOpen : x.world.isOpen line = true := by simpa [closed] using live.isOpen
    obtain ⟨n, schedule, sent, all⟩ := live.pings going
    refine
      { before := fun _ => ⟨alive, isOpen⟩, after := fun rest late => ?_, stops := .inl ⟨alive, live.stops.1⟩
        closings := by rw [isOpen]; exact live.stops.2
        pings := ⟨n, schedule, sent, fun rest k now _ => all rest.1 rest.2 k now⟩ }
    exact absurd (live.before_deadline going rest.1 rest.2).1 (Nat.not_lt.mpr late)
  | true =>
    have dead := timely.dead alive
    obtain ⟨n, schedule, sent, all⟩ := dead.pings
    refine
      { before := fun early => absurd dead.late (Nat.not_le.mpr early), after := fun rest _ => ⟨dead.state, ?_⟩
        stops := .inr ⟨dead.state, dead.stops⟩, closings := ?_
        pings := ⟨n, schedule, sent, fun _ k _ early => all k early⟩ }
    · rcases dead.closing with isClosed | ⟨-, closing⟩
      · simpa [closed] using isClosed
      · rw [show (face x).agenda = [] from rest.1] at closing
        simp at closing
    · have closings := dead.closings
      rw [closed] at closings
      cases isOpen : x.world.isOpen line <;> simpa [isOpen] using closings

/-- A ping every three milliseconds, and a peer that is given up after seven. -/
def brisk : Setting where
  start := 0
  interval := 3
  timeout := 7
  id := 7
  callback := false
  valid := rfl

def pong : Event := .pong (.obj [(Key.channelId, .ofNat 7)])

/-- The peer answers at the beginning and after three milliseconds, and then no more. -/
def silence : List Event :=
  let goOn : List Event := .poll 0 :: List.replicate 3 .proceed
  goOn ++ goOn ++ [pong, .wait 3, pong] ++ [6, 9, 10].flatMap (fun time => goOn ++ [.wait time]) ++ goOn

/-- The second pong moves the deadline and the first does not. -/
theorem exact_deadline_silence :
    let ts := Runs.turns (step brisk) (opening brisk) silence
    let x := Runs.run (step brisk) (opening brisk) silence
    (past brisk ts).deadline = 10 ∧ (past brisk ts).schedule = [0, 3, 6, 9] ∧
      (face x).core.state = .disposed .timedOut ∧ (past brisk ts).closings = [10] ∧ Exact brisk ts x := by
  intro ts x
  have law := exact_deadline brisk silence
  have deadline : (past brisk ts).deadline = 10 := by decide +kernel
  have late : (past brisk ts).deadline ≤ x.world.clock := by decide +kernel
  obtain ⟨state, closed⟩ := law.after ⟨List.isEmpty_iff.mp (by decide +kernel), by decide +kernel⟩ late
  refine ⟨deadline, by decide +kernel, state, ?_, law⟩
  rw [law.closings, if_neg (by simp [closed]), deadline]

end Deadline

end Switchboard
