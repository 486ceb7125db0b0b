import Switchboard.Proofs.VigilEvents

/-!
# What a pinger lives through

A pinger may be put on a channel at any time, and everything that is known of it later follows from the
turns since: its state is that of the first cause to stop, its peer that of the first pong. `Stands` is what
holds after every run, with a pinger or without, and `Lived` what holds after every run with one.
-/

namespace Switchboard

open World

namespace Vigil

/-- The steps that a pinger's state can take. -/
inductive Progress : PingerState → PingerState → Prop
  | stay (s : PingerState) : Progress s s
  | establish : Progress .awaitingFirstPong .established
  | miss (reason : PingerStop) : Progress .awaitingFirstPong (.disposed reason)
  | lose (reason : PingerStop) : Progress .established (.disposed reason)

def firstCause (closed : Bool) (ts : List Turn) : Option PingerStop :=
  if closed then some .channelClosed else ts.findSome? Turn.cause?

def firstPong (ts : List Turn) : Option Nat := ts.findSome? Turn.pong?

def coreAfter (closed : Bool) (ts : List Turn) : Pinger where
  state :=
    match firstCause closed ts with
    | some reason => .disposed reason
    | none => if (firstPong ts).isSome then .established else .awaitingFirstPong
  remote := firstPong ts

/-! ## The first cause and the first pong -/

theorem findSome?_concat {α β : Type} (f : α → Option β) (l : List α) (a : α) :
    (l ++ [a]).findSome? f = (l.findSome? f).or (f a) := by
  cases h : f a <;> simp [h]

theorem firstPong_append (ts : List Turn) (t : Turn) :
    firstPong (ts ++ [t]) = (firstPong ts).or t.pong? := findSome?_concat _ _ _

theorem firstCause_append (closed : Bool) (ts : List Turn) (t : Turn) :
    firstCause closed (ts ++ [t]) = (firstCause closed ts).or t.cause? := by
  unfold firstCause
  split
  · rfl
  · exact findSome?_concat _ _ _

theorem isDisposed_coreAfter (closed : Bool) (ts : List Turn) :
    (coreAfter closed ts).isDisposed = (firstCause closed ts).isSome := by
  unfold Pinger.isDisposed coreAfter
  cases firstCause closed ts with
  | some => rfl
  | none => cases firstPong ts <;> rfl

variable {t : Turn} {id : Nat}

theorem Turn.hears_of_pong (h : t.pong? = some id) :
    ∃ service payload, t.event = .hear service payload ∧ t.heard? = some payload ∧
      Pinger.pongId? payload = some id := by
  obtain ⟨payload, heard, hid⟩ := Option.bind_eq_some_iff.mp h
  cases he : t.event with
  | hear service =>
    refine ⟨service, payload, by
      unfold heard? at heard
      grind, heard, hid⟩
  | _ =>
    simp only [heard?, he] at heard
    exact absurd heard nofun

theorem Turn.live_of_pong (h : t.pong? = some id) :
    (coreOf t.before).isDisposed = false := by
  obtain ⟨_, _, _, heard, -⟩ := t.hears_of_pong h
  unfold heard? at heard
  grind

theorem Turn.known_of_cause {reason : PingerStop} (h : t.pong? = some id)
    (cause : t.cause? = some reason) : (coreOf t.before).remote ≠ none := by
  obtain ⟨_, _, he, heard, hid⟩ := t.hears_of_pong h
  intro unknown
  unfold cause? at cause
  simp only [he, heard, Option.bind_some, hid, unknown] at cause
  exact absurd cause nofun

theorem succ_coreAfter (closed : Bool) (ts : List Turn) (before : coreOf t.before = coreAfter closed ts) :
    succ (coreAfter closed ts) t.cause? t.pong? = coreAfter closed (ts ++ [t]) := by
  have live : ∀ id, t.pong? = some id → (firstCause closed ts).isSome = false := fun id h => by
    rw [← isDisposed_coreAfter, ← before]
    exact Turn.live_of_pong h
  have known : ∀ id reason, t.pong? = some id → t.cause? = some reason → firstPong ts ≠ none :=
    fun id reason h cause none => Turn.known_of_cause h cause (by rw [before]; exact none)
  unfold succ
  rw [isDisposed_coreAfter]
  unfold coreAfter
  rw [firstCause_append, firstPong_append]
  cases hc : firstCause closed ts with
  | some =>
    have silent : t.pong? = none := by
      cases hp : t.pong? with
      | none => rfl
      | some id => exact absurd (hc ▸ live id hp) nofun
    simp [silent]
  | none =>
    cases cause : t.cause? with
    | some reason =>
      cases hp : t.pong? with
      | none => simp
      | some id =>
        obtain ⟨_, hf⟩ := Option.ne_none_iff_exists'.mp (known id reason hp cause)
        simp [hf]
    | none => cases hf : firstPong ts <;> cases hp : t.pong? <;> rfl

theorem progress_succ {core : Pinger} (matched : core.isDisposed = false →
      core.state = if core.remote.isSome then .established else .awaitingFirstPong)
    (cause : Option PingerStop) (pong : Option Nat) : Progress core.state (succ core cause pong).state := by
  unfold succ
  split
  · exact .stay _
  · next live =>
    have state := matched (by simpa using live)
    split
    · rw [state]
      split
      · exact .lose _
      · exact .miss _
    · next _ unknown =>
      rw [state, unknown]
      exact .establish
    · exact .stay _

theorem stops_iff {core : Pinger} (live : core.isDisposed = false) (matched : core.isDisposed = false →
      core.state = if core.remote.isSome then .established else .awaitingFirstPong)
    {cause : Option PingerStop} {pong : Option Nat} {reason : PingerStop} :
    cause = some reason ↔ (succ core cause pong).state = .disposed reason := by
  unfold succ
  grind

/-! ## Putting a pinger on the channel -/

def phantom : PingerCell := stopped .explicit (freshPinger "" line 0 0 0 none none)

section Watch

variable {ch : Channel} {cell : PingerCell} {x : Exchange} (label : String) (interval timeout : Nat) (callback : Bool)

/-- A pinger fits on an open channel whose pinger has stopped. -/
theorem Fit.watched {before : Bool} (h : Fit before ch cell) (gone : cell.core.isDisposed = true)
    (isOpen : ch.core.disposed = false) (clock : Nat) :
    Fit callback (World.watched watcher ch)
      (freshPinger label line interval timeout clock (if callback then some [] else none)
        (some ch.core.nextKey)) := by
  have core : (World.watched watcher ch).core =
      { ch.core with
        services := Assoc.set Service.pong (.pongs watcher) ch.core.services
        hooks := ch.core.hooks ++ [(ch.core.nextKey, .pinger watcher)]
        nextKey := ch.core.nextKey + 1 } := by
    simp [World.watched, ChannelCore.register, ChannelCore.addHook, isOpen]
  refine
    { recorder := h.recorder, mine := rfl, pongs := ?_, others := fun _ _ _ _ => ?_
      hooks := fun _ he => ?_, hooked := fun _ _ => ?_, emptied := fun closed => ?_, idle := nofun
      matched := fun _ => rfl, callback := fun _ _ => rfl }
  · rw [core, Assoc.lookup_set, if_pos (beq_self_eq_true _), isOpen]
    rfl
  · grind [h.others]
  · rw [core] at he
    rcases List.mem_append.mp he with he | he
    · grind [h.hooks, h.idle]
    · rw [List.mem_singleton.mp he]
      exact .inl ⟨rfl, rfl⟩
  · rw [core]
    exact ⟨_, List.mem_append_right _ (.head _)⟩
  · rw [core] at closed
    cases isOpen.symm.trans closed

theorem Fit.of_empty (recorder : ∃ fault, ch.transport = .recorder fault) (services : ch.core.services = [])
    (hooks : ch.core.hooks = []) (mine : cell.channel = line) (gone : cell.core.isDisposed = true)
    (idle : cell.hook = none ∧ cell.loop = .stopped) : Fit callback ch cell where
  recorder := recorder
  mine := mine
  pongs := by rw [services, gone]; rfl
  others service handler _ found := by rw [services] at found; exact absurd found nofun
  hooks e he := by rw [hooks] at he; exact absurd he List.not_mem_nil
  hooked live := absurd (gone.symm.trans live) nofun
  emptied _ := ⟨services, hooks⟩
  idle _ := idle
  matched live := absurd (gone.symm.trans live) nofun
  callback live := absurd (gone.symm.trans live) nofun

/-- A pinger that is put on an open channel knows nothing, and one on a closed channel has stopped already. -/
theorem Held.watch {before : Bool} (h : Held false before ch cell x) :
    ∃ ch' cell', Held true callback ch' cell' (watch label interval timeout callback x) ∧
      cell'.core = (if ch.core.disposed then ⟨.disposed .channelClosed, none⟩ else {}) ∧
      ch'.core.disposed = ch.core.disposed := by
  have size : x.world.pingers.size = watcher := by rw [h.pingers]; rfl
  have gone := h.absent rfl
  have seats : ∀ cell', x.world.pingers.push cell' = seat true cell' := fun _ => by rw [h.pingers]; rfl
  have tasks : x.world.tasks.push (.pingLoop watcher) = ({} : Table Task).push (.pingLoop watcher) := by
    rw [h.tasks]
    rfl
  have same : (World.watched watcher ch).core.disposed = ch.core.disposed := by simp [World.watched]
  cases closed : ch.core.disposed with
  | false =>
    have after : Vigil.watch label interval timeout callback x = ⟨_, x.agenda⟩ := congrArg (Exchange.mk · x.agenda)
      (congrArg Prod.fst (newPinger_of_open h.channel closed label interval timeout _))
    rw [size] at after
    rw [after]
    exact ⟨_, _,
      { fit := .watched label interval timeout callback h.fit gone closed x.world.clock
        channel := h.get?_modify _, pingers := seats _, tasks := tasks, absent := nofun, chores := h.chores },
      rfl, same.trans closed⟩
  | true =>
    have after : Vigil.watch label interval timeout callback x = ⟨_, x.agenda⟩ := congrArg (Exchange.mk · x.agenda)
      (congrArg Prod.fst (newPinger_of_closed h.channel closed label interval timeout _))
    rw [size] at after
    obtain ⟨services, hooks⟩ := h.fit.emptied closed
    have core : (unwatched none (World.watched watcher ch)).core =
        { ch.core with nextKey := ch.core.nextKey + 1 } := by
      simp [World.watched, unwatched, unhook, ChannelCore.unregister, ChannelCore.register, ChannelCore.addHook,
        closed, services, Assoc.erase]
    rw [after]
    exact ⟨unwatched none (World.watched watcher ch), _,
      { fit := .of_empty callback h.fit.recorder (by rw [core, services]) (by rw [core, hooks]) rfl rfl ⟨rfl, rfl⟩
        channel := h.get?_modify _, pingers := seats _, tasks := tasks, absent := nofun, chores := h.chores },
      rfl, by rw [core, closed]⟩

end Watch

/-! ## The whole life -/

/-- How things are where all events there were are `es`. -/
structure Stands (seated callback : Bool) (es : List Event) (ch : Channel) (cell : PingerCell) (x : Exchange) :
    Prop where
  held : Held seated callback ch cell x
  sane : Sane (view ch cell x.agenda)
  shut : (view ch cell x.agenda).Shut → Event.close ∈ es ∨
    ∃ reason, cell.core.state = .disposed reason ∧ reason.isOwn = true

variable {es : List Event}

theorem Stands.step {seated callback : Bool} {ch : Channel} {cell : PingerCell} {x : Exchange}
    (h : Stands seated callback es ch cell x) (e : Event) :
    ∃ ch' cell', Stands seated callback (es ++ [e]) ch' cell' (step x e) ∧
      Next callback (turn x e) (view ch cell x.agenda) (view ch' cell' (step x e).agenda) := by
  obtain ⟨ch', cell', held, next⟩ := leads h.held e
  refine ⟨ch', cell', ⟨held, next.sane h.sane, fun shut => ?_⟩, next⟩
  rcases next.shut shut with rfl | shut | own
  · exact .inl (List.mem_append_right _ (.head _))
  · rcases h.shut shut with closed | ⟨reason, stopped, own⟩
    · exact .inl (List.mem_append_left _ closed)
    · have gone : cell.core.isDisposed = true := by rw [Pinger.isDisposed, stopped]
      have core : cell'.core = cell.core := next.core.trans (if_pos gone)
      exact .inr ⟨reason, core ▸ stopped, own⟩
  · exact .inr own

theorem stands_opening : Stands false false [] { label := "line", transport := .recorder none } phantom opening where
  held :=
    { fit := .of_empty false ⟨none, rfl⟩ rfl rfl rfl rfl ⟨rfl, rfl⟩, channel := rfl, pingers := rfl, tasks := rfl
      absent := fun _ => rfl, chores := nofun }
  sane := ⟨nofun, fun _ stopped own => absurd (PingerState.disposed.inj stopped ▸ own) nofun⟩
  shut := by rintro (h | h | h) <;> exact absurd h nofun

theorem stands_run (es : List Event) :
    ∃ ch cell, Stands false false es ch cell (run opening es) ∧ cell.core = phantom.core := by
  induction es using List.reverseRecOn with
  | nil => exact ⟨_, _, stands_opening, rfl⟩
  | append_singleton _ e ih =>
    obtain ⟨ch, cell, stands, core⟩ := ih
    obtain ⟨ch', cell', stands', next⟩ := stands.step e
    rw [run, Runs.run_append]
    exact ⟨ch', cell', stands', (next.core.trans (if_pos (stands.held.absent rfl))).trans core⟩

def Lived (callback closed : Bool) (es : List Event) (ts : List Turn) (x : Exchange) : Prop :=
  ∃ ch cell, Stands true callback es ch cell x ∧ cell.core = coreAfter closed ts

section Run

variable (es₁ es₂ : List Event) (label : String) (interval timeout : Nat) (callback : Bool)

theorem lived_watch :
    Lived callback (!(run opening es₁).world.isOpen line) es₁ []
      (watch label interval timeout callback (run opening es₁)) := by
  obtain ⟨ch, _, stands, absent⟩ := stands_run es₁
  obtain ⟨ch', cell', held, core, same⟩ := stands.held.watch label interval timeout callback
  have agenda : (watch label interval timeout callback (run opening es₁)).agenda = (run opening es₁).agenda := rfl
  rw [stands.held.isOpen, Bool.not_not]
  refine ⟨ch', cell', ⟨held, ⟨fun live closed => ?_, fun reason stopped own => ?_⟩, fun shut => .inl ?_⟩, ?_⟩
  · have closed : ch.core.disposed = true := same.symm.trans closed
    rw [view, core, if_pos closed] at live
    cases live
  · rw [view, core] at stopped
    split at stopped
    · cases PingerState.disposed.inj stopped ▸ own
    · cases stopped
  · rw [View.Shut, view, agenda, same] at shut
    rcases stands.shut shut with closed | ⟨reason, stopped, own⟩
    · exact closed
    · rw [absent] at stopped
      cases PingerState.disposed.inj stopped ▸ own
  · rw [core]
    cases ch.core.disposed <;> rfl

theorem lived_run {closed : Bool} {x : Exchange} (h : Lived callback closed es₁ [] x) :
    Lived callback closed (es₁ ++ es₂) (turns x es₂) (run x es₂) := by
  induction es₂ using List.reverseRecOn with
  | nil => rwa [List.append_nil]
  | append_singleton _ e ih =>
    obtain ⟨_, _, stands, core⟩ := ih
    obtain ⟨ch', cell', stands', next⟩ := stands.step e
    rw [run, turns, Runs.run_append, Runs.turns_append, ← List.append_assoc]
    refine ⟨ch', cell', stands', next.core.trans ?_⟩
    exact (congrArg (succ · _ _) core).trans
      (succ_coreAfter (t := turn _ e) closed _ (stands.held.coreOf.trans core))

end Run

/-- The life of a pinger: `es` are all events, `ts` the turns since the pinger was put on the channel, and
`x` is what came of them. -/
structure Lifecycle (callback closed : Bool) (es : List Event) (ts : List Turn) (x : Exchange) : Prop where
  /-- The first cause to stop decides why the pinger has stopped; without one, it has been established by
  the first pong. -/
  state : (coreOf x).state =
    match firstCause closed ts with
    | some reason => .disposed reason
    | none => if (firstPong ts).isSome then .established else .awaitingFirstPong
  remote : (coreOf x).remote = firstPong ts
  moves : ∀ t ∈ ts, Progress (coreOf t.before).state (coreOf t.after).state
  /-- The callback is called once, when the first pong comes. -/
  callbacks : ∀ before t after, ts = before ++ t :: after →
    t.callbacks = if callback = true ∧ t.pong?.isSome = true ∧ firstPong before = none then 1 else 0
  /-- The pinger has the channel closed when it stops by itself, and at no other time. -/
  closes : ∀ t ∈ ts, t.event ≠ .close → (t.orders ↔ (coreOf t.before).isDisposed = false ∧
    ∃ reason, (coreOf t.after).state = .disposed reason ∧ reason.isOwn = true)
  closed : ∀ reason, (coreOf x).state = .disposed reason → reason.isOwn = true → x.agenda = [] →
    x.world.isOpen line = false
  /-- A closed channel was closed by the pinger or by somebody else. -/
  closers : x.world.isOpen line = false → Event.close ∈ es ∨
    ∃ reason, (coreOf x).state = .disposed reason ∧ reason.isOwn = true
  outlived : x.world.isOpen line = false → x.agenda = [] → (coreOf x).isDisposed = true
  silent : ∀ t ∈ ts, (coreOf t.before).isDisposed = true → t.pings = 0
  gone : (coreOf x).isDisposed = true → ∀ ch, x.world.channels.get? line = some ch →
    ch.core.services.lookup Service.pong = none ∧ ∀ e ∈ ch.core.hooks, e.2 ≠ .pinger watcher

section

variable {callback closed : Bool} {es₂ : List Event} {x : Exchange} (h : Lived callback closed es [] x)
include h

/-- What one turn of a run does to the pinger. -/
theorem Lived.next {before after : List Turn} (split : turns x es₂ = before ++ t :: after) :
    ∃ ch cell ch' cell', Held true callback ch cell t.before ∧ Held true callback ch' cell' t.after ∧
      Next callback t (view ch cell t.before.agenda) (view ch' cell' t.after.agenda) ∧
      cell.core = coreAfter closed before := by
  obtain ⟨es', _, rfl, ht, -⟩ := Runs.turns_split split
  rw [ht]
  obtain ⟨ch, cell, stands, core⟩ := lived_run es es' callback h
  obtain ⟨ch', cell', stands', next⟩ := stands.step t.event
  exact ⟨ch, cell, ch', cell', stands.held, stands'.held, next, core⟩

theorem Lived.lifecycle : Lifecycle callback closed (es ++ es₂) (turns x es₂) (run x es₂) := by
  obtain ⟨ch, _, ⟨held, sane, shut⟩, core⟩ := lived_run es es₂ callback h
  have isOpen := held.isOpen
  have known := held.coreOf
  have isClosed : (run x es₂).world.isOpen line = false → ch.core.disposed = true := fun closed => by
    rw [isOpen] at closed
    simpa using closed
  refine
    { state := by rw [known, core]; rfl, remote := by rw [known, core]; rfl
      moves := fun t ht => ?_, callbacks := fun before t after split => ?_, closes := fun t ht other => ?_
      closed := fun reason stopped own rested => ?_, closers := fun closed => ?_
      outlived := fun closed rested => ?_, silent := fun t ht gone => ?_, gone := fun gone _ there => ?_ }
  · obtain ⟨before, after, split⟩ := List.append_of_mem ht
    obtain ⟨_, _, _, _, held, held', next, -⟩ := h.next split
    have core' := next.core
    dsimp only [view] at core'
    rw [held.coreOf, held'.coreOf, core']
    exact progress_succ held.fit.matched _ _
  · obtain ⟨_, _, _, _, held, -, next, core⟩ := h.next split
    have heard : t.pong?.isSome = true → (coreOf t.before).isDisposed = false := fun some =>
      Turn.live_of_pong (Option.eq_some_of_isSome some)
    rw [held.coreOf] at heard
    rw [next.callbacks heard, view, core]
    rfl
  · obtain ⟨before, after, split⟩ := List.append_of_mem ht
    obtain ⟨_, _, _, _, held, held', next, -⟩ := h.next split
    have orders := next.orders other
    have core' := next.core
    dsimp only [view] at core'
    rw [view, view, closings_vital, closings_vital] at orders
    rw [Turn.orders, orders, held.coreOf, held'.coreOf, core']
    refine and_congr_right fun live => exists_congr fun reason => and_congr_left fun _ => ?_
    exact stops_iff live held.fit.matched
  · rw [known] at stopped
    have ended := sane.ended reason stopped own
    rw [View.Shut, view, rested] at ended
    grind
  · rw [known]
    exact shut (.inl (isClosed closed))
  · by_contra live
    rw [known, Bool.not_eq_true] at live
    have told := sane.told live (isClosed closed)
    rw [view, rested] at told
    exact absurd told List.not_mem_nil
  · obtain ⟨before, after, split⟩ := List.append_of_mem ht
    obtain ⟨_, _, _, _, held, -, next, -⟩ := h.next split
    rw [held.coreOf] at gone
    exact next.pings gone
  · cases held.channel.symm.trans there
    rw [known] at gone
    refine ⟨by rw [held.fit.pongs, gone]; rfl, fun e he mine => ?_⟩
    rcases held.fit.hooks e he with ⟨-, key⟩ | ⟨_, _, other⟩
    · cases (held.fit.idle gone).1.symm.trans key
    · cases mine.symm.trans other

end

/-- Whenever a pinger is put on a channel, and whatever happens before and after that, it lives the life
of a pinger. -/
theorem pinger_lifecycle (es₁ es₂ : List Event) (label : String) (interval timeout : Nat) (callback : Bool) :
    Lifecycle callback (!(run opening es₁).world.isOpen line) (es₁ ++ es₂)
      (turns (watch label interval timeout callback (run opening es₁)) es₂)
      (run (watch label interval timeout callback (run opening es₁)) es₂) :=
  (lived_watch es₁ label interval timeout callback).lifecycle

end Vigil

end Switchboard
