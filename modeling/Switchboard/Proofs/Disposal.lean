import Std.Data.String.ToNat
import Switchboard.Proofs.Exchange
import Switchboard.Proofs.Runs

/-!
# The callbacks of a channel that is closed

Callbacks are added to a channel and removed from it, services come and go, messages are handed over,
and the channel is closed, in any order and any number of times. Callbacks and handlers call these
functions as well: a call from inside a callback is an event after the one that begins the callback, so
that between any two callbacks of a closing anything may happen.

A callback is known by its key. `due` are the callbacks that are to run, and `begun` those that have
begun. Closing makes all callbacks due that were added and not removed, and from then on a new callback
is due before all others. So each of them runs once; but a callback that is due can no longer be removed.
-/

namespace Switchboard

open World

namespace Disposal

abbrev line : Nat := 0

def callback (key : Nat) : Hook := .observer "line" (toString key) []

inductive Event where
  | add
  | remove (key : Nat)
  | register (service name : String)
  | unregister (service : String)
  | deliver (service : String) (payload : Json)
  | dispose
  /-- The callback that is due next begins. -/
  | proceed

def core (x : Exchange) : ChannelCore Handler Hook :=
  match x.world.channels.get? line with
  | some ch => ch.core
  | none => {}

def Event.apply (e : Event) (x : Exchange) : World × List Action :=
  match e with
  | .add => x.world.guardChannel line (callback (core x).nextKey)
  | .remove key => (x.world.removeHook line (some key), [])
  | .register service name => (x.world.register line service (.observer "line" name []), [])
  | .unregister service => (x.world.unregister line service, [])
  | .deliver service payload => x.world.deliver line service payload
  | .dispose => x.world.closeCore line
  | .proceed => (x.world, [])

def step (x : Exchange) : Event → Exchange
  | .proceed =>
    match x.agenda with
    | [] => x
    | a :: rest => ⟨(x.world.perform a).1, (x.world.perform a).2 ++ rest⟩
  | e => ⟨(e.apply x).1, (e.apply x).2 ++ x.agenda⟩

def opening : Exchange :=
  ⟨{ script := Script.echo,
     channels := ({} : Table Channel).push { label := "line", transport := .recorder none } }, []⟩

abbrev Turn := Runs.Turn Exchange Event

def keyOf? : Action → Option Nat
  | .runHook (.observer _ name _) => name.toNat?
  | _ => none

/-- The callbacks that are still to be run. -/
def due (x : Exchange) : List Nat := x.agenda.filterMap keyOf?

def begun? (t : Turn) : Option Nat :=
  match t.event with
  | .proceed => t.before.agenda.head?.bind keyOf?
  | _ => none

/-- The callbacks that have been run, in order. -/
def begun (ts : List Turn) : List Nat := ts.filterMap begun?

def reports (events : List Logged) : List String :=
  events.filterMap fun e =>
    match e.event with
    | .disposed _ name => some name
    | _ => none

/-- The key of a callback that is added. -/
def key? (t : Turn) : Option Nat :=
  match t.event with
  | .add => some (t.before.world.addHook line (callback (core t.before).nextKey)).2.1
  | _ => none

/-- Whether the channel is closed by an event. -/
def closes (t : Turn) : Bool :=
  match t.event with
  | .dispose => (core t.before).dispose.isSome
  | _ => false

/-- A callback was removed after it had been added. -/
def Removed (ts : List Turn) (key : Nat) : Prop :=
  ∃ t ∈ ts, t.event = .remove key ∧ key < (core t.before).nextKey

/-! ## What an event does -/

theorem keyOf?_callback (key : Nat) : keyOf? (.runHook (callback key)) = some key :=
  Nat.toNat?_repr key

/-- The channel has the callbacks of its keys, nothing but callbacks is to be done, and a closed channel
has neither services nor callbacks. -/
structure Sound (x : Exchange) : Prop where
  channel : ∃ ch, x.world.channels.get? line = some ch
  agenda : x.agenda = (due x).map fun k => .runHook (callback k)
  hooks : ∀ key hook, (key, hook) ∈ (core x).hooks → hook = callback key
  services : ∀ service handler, (service, handler) ∈ (core x).services →
    ∃ name, handler = .observer "line" name []
  empty : (core x).disposed = true → (core x).services = [] ∧ (core x).hooks = []

theorem due_eq {x : Exchange} {keys : List Nat}
    (agenda : x.agenda = keys.map fun k => .runHook (callback k)) : due x = keys := by
  rw [due, agenda, List.filterMap_map,
    show keyOf? ∘ (fun k => Action.runHook (callback k)) = some from funext keyOf?_callback]
  exact List.filterMap_some

variable {x : Exchange}

theorem core_eq {ch : Channel} (h : x.world.channels.get? line = some ch) : core x = ch.core := by
  rw [core, h]

theorem Sound.handler (h : Sound x) {ch : Channel} (hc : x.world.channels.get? line = some ch)
    {service : String} {handler : Handler} (found : ch.core.handler? service = some handler) :
    ∃ name, handler = .observer "line" name [] := by
  unfold ChannelCore.handler? at found
  split at found
  · cases found
  · exact h.services _ _ (core_eq hc ▸ Assoc.mem_of_lookup found)

def next (c : ChannelCore Handler Hook) : Event → ChannelCore Handler Hook
  | .add => c.addHook (callback c.nextKey)
  | .remove key => c.removeHook key
  | .register service name => c.register service (.observer "line" name [])
  | .unregister service => c.unregister service
  | .dispose => if c.disposed then c else { c with disposed := true, services := [], hooks := [] }
  | .deliver .. | .proceed => c

def summoned (x : Exchange) : Event → List Nat
  | .add => if (core x).disposed then [(core x).nextKey] else []
  | .dispose => if (core x).disposed then [] else (core x).hooks.map Prod.fst
  | _ => []

def remaining (x : Exchange) : Event → List Nat
  | .proceed => (due x).tail
  | _ => due x

attribute [grind] next summoned closes ChannelCore.addHook ChannelCore.removeHook ChannelCore.register
  ChannelCore.unregister ChannelCore.dispose Assoc.erase

/-- The state after an event: the channel, the callbacks that are due and what is reported. -/
structure Stepped (x : Exchange) (e : Event) (x' : Exchange) : Prop where
  channel : ∃ ch, x'.world.channels.get? line = some ch ∧ ch.core = next (core x) e
  agenda : x'.agenda = (summoned x e ++ remaining x e).map fun k => .runHook (callback k)
  reports : reports x'.world.events =
    reports x.world.events ++ ((begun? ⟨x, e, x'⟩).map toString).toList

theorem stepped (h : Sound x) (e : Event) : Stepped x e (step x e) := by
  obtain ⟨ch, hc⟩ := h.channel
  have hcore := core_eq hc
  have changed (f : ChannelCore Handler Hook → ChannelCore Handler Hook) : ∃ ch,
      (x.world.modifyChannel line f).channels.get? line = some ch ∧ ch.core = f (core x) := by
    refine ⟨_, (Table.get?_modify_self ..).trans (by rw [hc]; rfl), by rw [hcore]⟩
  have agenda (keys : List Nat) : (keys.map fun k => Action.runHook (callback k)) ++ x.agenda =
      (keys ++ due x).map fun k => .runHook (callback k) := by
    rw [List.map_append, ← h.agenda]
  have quiet : reports x.world.events = reports x.world.events ++ [] := (List.append_nil _).symm
  cases e with
  | remove | register | unregister => exact ⟨changed _, agenda [], quiet⟩
  | add =>
    have eq : Event.add.apply x = (x.world.modifyChannel line (·.addHook (callback (core x).nextKey)),
        (summoned x .add).map fun k => .runHook (callback k)) := by
      unfold Event.apply World.guardChannel World.addHook summoned
      simp only [hc, hcore]
      split <;> rfl
    show Stepped x .add ⟨(Event.add.apply x).1, (Event.add.apply x).2 ++ x.agenda⟩
    rw [eq]
    exact ⟨changed _, agenda _, quiet⟩
  | dispose =>
    have hooks : (ch.core.hooks.map Prod.snd).map Action.runHook =
        (ch.core.hooks.map Prod.fst).map fun k => .runHook (callback k) := by
      have hooks := h.hooks
      rw [hcore] at hooks
      simpa using hooks
    show Stepped x .dispose ⟨(x.world.closeCore line).1, (x.world.closeCore line).2 ++ x.agenda⟩
    unfold World.closeCore ChannelCore.dispose
    rw [hc, Option.bind_some]
    cases hd : ch.core.disposed with
    | true =>
      refine ⟨⟨ch, hc, by simp [next, hcore, hd]⟩, ?_, quiet⟩
      simpa [summoned, remaining, hcore, hd] using agenda []
    | false =>
      refine ⟨?_, ?_, quiet⟩
      · obtain ⟨ch', hc', same⟩ := changed fun _ =>
          { ch.core with disposed := true, services := [], hooks := [] }
        exact ⟨ch', hc', same.trans (by simp [next, hcore, hd])⟩
      · simp only [summoned, remaining, hcore, hd, Bool.false_eq_true, if_false, hooks]
        exact agenda (ch.core.hooks.map Prod.fst)
  | deliver service payload =>
    show Stepped x _ ⟨(x.world.deliver line service payload).1, (x.world.deliver line service payload).2 ++ x.agenda⟩
    unfold World.deliver
    rw [hc, Option.bind_some]
    cases found : ch.core.handler? service with
    | none => exact ⟨⟨ch, hc, hcore.symm⟩, agenda [], quiet⟩
    | some =>
      obtain ⟨_, rfl⟩ := h.handler hc found
      exact ⟨⟨ch, hc, hcore.symm⟩, agenda [], by simp [reports, World.log, begun?]⟩
  | proceed =>
    have agenda := h.agenda
    unfold step
    cases keys : due x with
    | nil =>
      rw [keys, List.map_nil] at agenda
      rw [agenda]
      exact ⟨⟨ch, hc, hcore.symm⟩, by simp [agenda, summoned, remaining, keys], by simp [begun?, agenda]⟩
    | cons =>
      rw [keys, List.map_cons] at agenda
      rw [agenda]
      refine ⟨⟨ch, hc, hcore.symm⟩, by rw [remaining, keys]; rfl, ?_⟩
      simp [begun?, agenda, keyOf?, callback, reports, World.perform, World.react, World.runHook, World.log]

theorem core_step (h : Sound x) (e : Event) : core (step x e) = next (core x) e := by
  obtain ⟨_, hc, same⟩ := (stepped h e).channel
  rw [core_eq hc, same]

theorem due_step (h : Sound x) (e : Event) : due (step x e) = summoned x e ++ remaining x e :=
  due_eq (stepped h e).agenda

theorem Sound.opening : Sound opening where
  channel := ⟨_, rfl⟩
  agenda := rfl
  hooks := nofun
  services := nofun
  empty := nofun

section

variable (h : Sound x) (e : Event)
include h

theorem Sound.step : Sound (step x e) := by
  obtain ⟨⟨ch, hc, -⟩, agenda, -⟩ := stepped h e
  refine ⟨⟨ch, hc⟩, by rw [due_eq agenda, agenda], ?_, ?_, ?_⟩
  all_goals
    rw [core_step h]
    cases e <;> grind [h.hooks, h.services, h.empty]

theorem begun?_eq (x' : Exchange) :
    begun? ⟨x, e, x'⟩ = match e with | .proceed => (due x).head? | _ => none := by
  cases e with
  | proceed =>
    unfold begun?
    rw [h.agenda]
    cases due x with
    | nil => rfl
    | cons k => exact keyOf?_callback k
  | _ => rfl

/-- A callback that begins was due, so that those which have begun and those which are due change only by
what an event makes due. -/
theorem begun_due_step (ts : List Turn) :
    begun (ts ++ [⟨x, e, step x e⟩]) ++ due (step x e) = begun ts ++ (summoned x e ++ due x) := by
  have begins := begun?_eq h e (step x e)
  rw [due_step h, begun, List.filterMap_append, ← begun, List.append_assoc]
  cases e with
  | proceed => cases hd : due x <;> simp [begins, hd, summoned, remaining]
  | _ => simp [begins, remaining]

theorem nextKey_le : (core x).nextKey ≤ (core (step x e)).nextKey := by
  rw [core_step h]
  cases e <;> grind

end

theorem disposed_step (h : Sound x) (hd : (core x).disposed = true) (e : Event) :
    (core (step x e)).disposed = true := by
  rw [core_step h]
  cases e <;> simp [next, ChannelCore.removeHook, ChannelCore.unregister, hd]

/-! ## Runs -/

/-- The callbacks of an open channel: none is due, and those are kept, in order, that were added and not
removed. -/
structure Kept (ts : List Turn) (x : Exchange) : Prop where
  idle : begun ts ++ due x = []
  ordered : (core x).hooks.Pairwise fun a b => a.1 < b.1
  kept : ∀ k, (k, callback k) ∈ (core x).hooks ↔ k < (core x).nextKey ∧ ¬Removed ts k
  known : ∀ k, Removed ts k → k < (core x).nextKey

variable {ts : List Turn}

theorem Kept.mem_keys (k : Kept ts x) (h : Sound x) (key : Nat) :
    key ∈ (core x).hooks.map Prod.fst ↔ key < (core x).nextKey ∧ ¬Removed ts key := by
  rw [← k.kept]
  grind [h.hooks]

/-- What a run has come to. -/
structure Faithful (ts : List Turn) (x : Exchange) : Prop where
  sound : Sound x
  turns : ∀ t ∈ ts, Sound t.before ∧ t.after = step t.before t.event
  keys : ts.filterMap key? = List.range (core x).nextKey
  closings : ts.countP closes = if (core x).disposed then 1 else 0
  asked : (∃ t ∈ ts, t.event = .dispose) → (core x).disposed = true
  reports : reports x.world.events = (begun ts).map toString
  kept : (core x).disposed = false → Kept ts x

theorem Removed.append {t : Turn} {k : Nat} :
    Removed (ts ++ [t]) k ↔ Removed ts k ∨ t.event = .remove k ∧ k < (core t.before).nextKey := by
  simp [Removed, or_and_right, exists_or]

theorem Kept.step (h : Sound x) (k : Kept ts x) (e : Event)
    (ho : (core (step x e)).disposed = false) : Kept (ts ++ [⟨x, e, step x e⟩]) (step x e) := by
  rw [core_step h] at ho
  have idle : summoned x e = [] := by
    cases e <;> grind
  refine ⟨?_, ?_, ?_, ?_⟩
  · rw [begun_due_step h, idle]
    exact k.idle
  · have above : ∀ a ∈ (core x).hooks, a.1 < (core x).nextKey := fun a ha => by
      have held : (a.1, callback a.1) ∈ (core x).hooks := h.hooks _ _ ha ▸ ha
      exact ((k.kept a.1).mp held).1
    rw [core_step h]
    cases e with
    | remove => exact k.ordered.filter _
    | _ => grind [k.ordered]
  · intro key
    rw [core_step h, Removed.append]
    cases e <;> grind [k.kept, k.known]
  · intro key removed
    rcases Removed.append.mp removed with old | ⟨-, known⟩
    · exact Nat.lt_of_lt_of_le (k.known key old) (nextKey_le h e)
    · exact Nat.lt_of_lt_of_le known (nextKey_le h e)

theorem Faithful.of_run (es : List Event) :
    Faithful (Runs.turns step opening es) (Runs.run step opening es) := by
  refine Runs.induction ?_ (fun _ x e h => ?_) es
  · refine ⟨.opening, nofun, rfl, rfl, ?_, rfl, fun _ => ⟨rfl, .nil, ?_, ?_⟩⟩
    · rintro ⟨_, ht, -⟩
      cases ht
    · exact fun k => ⟨nofun, fun hk => by cases hk.1⟩
    · rintro k ⟨_, ht, -⟩
      cases ht
  · have core := core_step h.sound e
    refine ⟨h.sound.step e, ?_, ?_, ?_, ?_, ?_, fun ho => ?_⟩
    · grind [h.turns, h.sound]
    · obtain ⟨_, hc⟩ := h.sound.channel
      have key : (x.world.addHook line (callback (Disposal.core x).nextKey)).2.1 =
          (Disposal.core x).nextKey := by
        rw [World.addHook, hc, core_eq hc]
      rw [List.filterMap_append, h.keys, core]
      cases e <;> grind [key?, List.range_succ]
    · rw [List.countP_append, h.closings, core]
      cases e <;> grind
    · rintro ⟨t, ht, he⟩
      rcases List.mem_append.mp ht with ht | ht
      · exact disposed_step h.sound (h.asked ⟨t, ht, he⟩) e
      · obtain rfl := List.mem_singleton.mp ht
        obtain rfl : e = .dispose := he
        rw [core]
        grind
    · rw [(stepped h.sound e).reports, h.reports, begun, begun, List.filterMap_append, List.map_append]
      cases begins : begun? ⟨x, e, step x e⟩ <;> simp [begins]
    · refine (h.kept ?_).step h.sound e ho
      by_contra hd
      cases ho.symm.trans (disposed_step h.sound (by simpa using hd) e)

theorem Faithful.exists_closes (h : Faithful ts x) (hd : (core x).disposed = true) :
    ∃ before t after, ts = before ++ t :: after ∧ closes t = true := by
  have count := h.closings
  rw [hd] at count
  obtain ⟨t, ht, hc⟩ := List.countP_pos_iff.mp (Nat.lt_of_lt_of_eq Nat.one_pos count.symm)
  obtain ⟨before, after, split⟩ := List.append_of_mem ht
  exact ⟨before, t, after, split, hc⟩

/-- The callbacks of a channel that was closed when `n` had been added and those of `kept` were left: these
have begun or are due in their order, and so has or is each callback that was added later. -/
structure Running (n : Nat) (kept : List Nat) (ts : List Turn) (x : Exchange) : Prop where
  sound : Sound x
  closed : (core x).disposed = true
  later : n ≤ (core x).nextKey
  early : (begun ts ++ due x).filter (· < n) = kept
  once : (begun ts ++ due x).Nodup
  ran : ∀ k, k ∈ begun ts ++ due x ↔ k ∈ kept ∨ n ≤ k ∧ k < (core x).nextKey

theorem Running.step {n : Nat} {kept : List Nat} (h : Running n kept ts x) (e : Event) :
    Running n kept (ts ++ [⟨x, e, step x e⟩]) (step x e) := by
  have late : ∀ k ∈ kept, k < n := fun k hk => by
    rw [← h.early] at hk
    simpa using (List.mem_filter.mp hk).2
  have closed := disposed_step h.sound h.closed e
  have later := Nat.le_trans h.later (nextKey_le h.sound e)
  have eq := begun_due_step h.sound e ts
  have core := core_step h.sound e
  by_cases adds : e = .add
  · subst adds
    have key : (Disposal.core (Disposal.step x .add)).nextKey = (Disposal.core x).nextKey + 1 := by
      rw [core, next, ChannelCore.addHook, h.closed]
      rfl
    have fresh : (Disposal.core x).nextKey ∉ begun ts ++ due x := fun held => by
      rcases (h.ran _).mp held with held | ⟨-, held⟩
      · exact absurd (late _ held) (Nat.not_lt.mpr h.later)
      · exact Nat.lt_irrefl _ held
    simp only [summoned, h.closed, if_true, List.singleton_append] at eq
    refine ⟨h.sound.step _, closed, later, ?_, ?_, fun k => ?_⟩
    · rw [eq, ← h.early]
      simp [h.later]
    · rw [eq, List.perm_middle.nodup_iff]
      exact List.nodup_cons.mpr ⟨fresh, h.once⟩
    · rw [eq, List.perm_middle.mem_iff, List.mem_cons, h.ran, key]
      grind [h.later]
  · have key : (Disposal.core (Disposal.step x e)).nextKey = (Disposal.core x).nextKey := by
      rw [core]
      cases e <;> grind
    have none : summoned x e = [] := by
      cases e <;> simp_all [summoned, h.closed]
    rw [none, List.nil_append] at eq
    exact ⟨h.sound.step e, closed, later, eq ▸ h.early, eq ▸ h.once, fun k => by rw [eq, key]; exact h.ran k⟩

/-- Between the turn that closes the channel and the end of a run. -/
theorem running_of_closes {es : List Event} {before after : List Turn} {t : Turn}
    (h : Runs.turns step opening es = before ++ t :: after) (closing : closes t = true) :
    Kept before t.before ∧
      Running (core t.before).nextKey ((core t.before).hooks.map Prod.fst)
        (Runs.turns step opening es) (Runs.run step opening es) := by
  obtain ⟨es₁, es₂, rfl, ht, -, rfl⟩ := Runs.turns_split h
  have faithful := Faithful.of_run es₁
  have before : t.before = Runs.run step opening es₁ := by rw [ht]
  have dispose : t.event = .dispose ∧ (core t.before).disposed = false := by
    grind
  rw [before] at dispose ⊢
  have kept := faithful.kept dispose.2
  refine ⟨kept, ?_⟩
  rw [dispose.1, List.append_cons, Runs.turns_append, Runs.run_append _ _ (es₁ ++ _)]
  refine Runs.induction (P := fun ts => Running _ _ (Runs.turns step opening (es₁ ++ [.dispose]) ++ ts))
    ?_ (fun ts x e h => List.append_assoc .. ▸ h.step e) es₂
  rw [List.append_nil, Runs.turns_append, Runs.run_append]
  generalize Runs.run step opening es₁ = x at *
  have closed : core (step x .dispose) =
      { core x with disposed := true, services := [], hooks := [] } := by
    rw [core_step faithful.sound, next, dispose.2]
    rfl
  have all : begun (Runs.turns step opening es₁ ++ [⟨x, .dispose, step x .dispose⟩]) ++
      due (step x .dispose) = (core x).hooks.map Prod.fst := by
    rw [begun_due_step faithful.sound, summoned, dispose.2]
    obtain ⟨begun, due⟩ := List.append_eq_nil_iff.mp kept.idle
    simp [begun, due]
  have below : ∀ k ∈ (core x).hooks.map Prod.fst, k < (core x).nextKey := fun k hk =>
    ((kept.mem_keys faithful.sound k).mp hk).1
  show Running _ _ (_ ++ [⟨x, .dispose, step x .dispose⟩]) (step x .dispose)
  refine ⟨faithful.sound.step .dispose, by rw [closed], nextKey_le faithful.sound .dispose, ?_, ?_, fun k => ?_⟩
  · rw [all]
    exact List.filter_eq_self.mpr (by simpa using below)
  · rw [all]
    exact (List.pairwise_map.mpr kept.ordered).imp Nat.ne_of_lt
  · grind

/-- The callbacks that are due begin one after the other. -/
theorem begun_replicate (h : Sound x) :
    begun (Runs.turns step x (List.replicate (due x).length .proceed)) = due x := by
  generalize hn : due x = keys
  induction keys generalizing x with
  | nil => rfl
  | cons k rest ih =>
    have tail : due (step x .proceed) = rest := by
      rw [due_step h, remaining, hn]
      rfl
    have begins : begun? ⟨x, .proceed, step x .proceed⟩ = some k := by
      rw [begun?_eq h, hn]
      rfl
    rw [List.length_cons, List.replicate_succ]
    unfold Runs.turns begun
    rw [List.filterMap_cons, begins]
    exact congrArg (k :: ·) (ih (h.step _) tail)

/-- A closed channel hands no message over. -/
theorem deliver_closed (h : Sound x) (hd : (core x).disposed = true) (service : String) (v : Json) :
    step x (.deliver service v) = x := by
  obtain ⟨_, hc⟩ := h.channel
  rw [core_eq hc] at hd
  unfold step Event.apply World.deliver ChannelCore.handler?
  simp [hc, hd]

theorem remove_closed (h : Sound x) (hd : (core x).disposed = true) (key : Nat) :
    step x (.remove key) = x := by
  obtain ⟨ch, hc⟩ := h.channel
  have none := (h.empty hd).2
  rw [core_eq hc] at none
  have same : ch.core.removeHook key = ch.core := by
    show { ch.core with hooks := Assoc.erase key ch.core.hooks } = ch.core
    rw [none]
    show { ch.core with hooks := [] } = ch.core
    rw [← none]
  have still : x.world.removeHook line (some key) = x.world := by
    unfold World.removeHook World.modifyChannel
    dsimp only
    rw [Table.modify_eq_self]
    intro _ found
    cases hc.symm.trans found
    rw [same]
  exact congrArg (Exchange.mk · x.agenda) still

/-- What closing a channel does to its callbacks, seen from the end of a run. -/
structure RunOnce (ts : List Turn) (x : Exchange) : Prop where
  /-- If the channel is closed at all, one call of those that close it is told so. -/
  closing : (∃ t ∈ ts, t.event = .dispose) → ts.countP closes = 1
  keys : ts.filterMap key? = List.range (core x).nextKey
  idle : (core x).disposed = false → begun ts ++ due x = []
  once : (begun ts ++ due x).Nodup
  ran : ∀ before t after, ts = before ++ t :: after → closes t = true → ∀ k,
    k ∈ begun ts ++ due x ↔
      k < (core t.before).nextKey ∧ ¬Removed before k ∨
        (core t.before).nextKey ≤ k ∧ k < (core x).nextKey
  ordered : ∀ before t after, ts = before ++ t :: after → closes t = true →
    ((begun ts ++ due x).filter (· < (core t.before).nextKey)).Pairwise (· < ·)
  /-- A callback added to a closed channel is the next to begin. -/
  atOnce : ∀ t ∈ ts, t.event = .add → (core t.before).disposed = true →
    due t.after = (core t.before).nextKey :: due t.before
  finish : begun (Runs.turns step x (List.replicate (due x).length .proceed)) = due x
  reports : reports x.world.events = (begun ts).map toString
  emptied : (core x).disposed = true → (core x).services = [] ∧ (core x).hooks = []
  deaf : ∀ t ∈ ts, ∀ service v, t.event = .deliver service v → (core t.before).disposed = true →
    t.after = t.before

theorem callbacks_run_once (es : List Event) :
    RunOnce (Runs.turns step opening es) (Runs.run step opening es) := by
  have faithful := Faithful.of_run es
  generalize hts : Runs.turns step opening es = ts at *
  refine { closing := ?_, keys := faithful.keys, idle := fun ho => (faithful.kept ho).idle, once := ?_,
           ran := ?_, ordered := ?_, atOnce := ?_, finish := begun_replicate faithful.sound,
           reports := faithful.reports, emptied := faithful.sound.empty, deaf := ?_ }
  · intro asked
    rw [faithful.closings, faithful.asked asked]
    rfl
  · cases hd : (core (Runs.run step opening es)).disposed with
    | false =>
      rw [(faithful.kept hd).idle]
      exact List.nodup_nil
    | true =>
      obtain ⟨before, t, after, split, hc⟩ := faithful.exists_closes hd
      exact hts ▸ (running_of_closes (hts.trans split) hc).2.once
  · intro before t after split hc _
    obtain ⟨kept, running⟩ := running_of_closes (hts.trans split) hc
    rw [hts] at running
    rw [running.ran, kept.mem_keys (faithful.turns t (split ▸ by simp)).1]
  · intro before t after split hc
    obtain ⟨kept, running⟩ := running_of_closes (hts.trans split) hc
    rw [hts] at running
    rw [running.early]
    exact List.pairwise_map.mpr kept.ordered
  · intro t ht he hd
    obtain ⟨sound, after⟩ := faithful.turns t ht
    rw [after, he, due_step sound, summoned, hd]
    rfl
  · intro t ht service v he hd
    obtain ⟨sound, after⟩ := faithful.turns t ht
    rw [after, he]
    exact deliver_closed sound hd service v

/-- A callback is neither kept nor due, and has not begun. -/
structure Gone (key : Nat) (ts : List Turn) (x : Exchange) : Prop where
  sound : Sound x
  added : key < (core x).nextKey
  unkept : key ∉ (core x).hooks.map Prod.fst
  never : key ∉ begun ts ++ due x

theorem Gone.step {key : Nat} (h : Gone key ts x) (e : Event) :
    Gone key (ts ++ [⟨x, e, step x e⟩]) (step x e) := by
  refine ⟨h.sound.step e, Nat.lt_of_lt_of_le h.added (nextKey_le h.sound e), ?_, ?_⟩
  · rw [core_step h.sound]
    cases e <;> grind [h.unkept, h.added]
  · rw [begun_due_step h.sound]
    cases e <;> grind [h.unkept, h.added, h.never]

theorem Gone.remove {key : Nat} (h : Sound x) (k : Kept ts x) (added : key < (core x).nextKey) :
    Gone key (ts ++ [⟨x, .remove key, Disposal.step x (.remove key)⟩]) (Disposal.step x (.remove key)) := by
  refine ⟨h.step _, Nat.lt_of_lt_of_le added (nextKey_le h _), ?_, ?_⟩
  · rw [core_step h]
    simp [next, ChannelCore.removeHook, Assoc.erase]
  · rw [begun_due_step h]
    show key ∉ begun ts ++ due x
    rw [k.idle]
    exact List.not_mem_nil

/-- A callback that is removed while the channel is open never runs. Once the channel is closed, removing
one does nothing. -/
theorem removal_counts_while_open (es : List Event) {before after : List Turn} {t : Turn} {k : Nat}
    (h : Runs.turns step opening es = before ++ t :: after) (remove : t.event = .remove k)
    (added : k < (core t.before).nextKey) :
    ((core t.before).disposed = false →
      k ∉ begun (Runs.turns step opening es) ++ due (Runs.run step opening es)) ∧
    ((core t.before).disposed = true → t.after = t.before) := by
  obtain ⟨es₁, es₂, rfl, ht, -, rfl⟩ := Runs.turns_split h
  have faithful := Faithful.of_run es₁
  refine ⟨fun ho => ?_, fun hd => ?_⟩
  · rw [ht] at added ho
    rw [remove, List.append_cons, Runs.turns_append, Runs.run_append _ _ (es₁ ++ _)]
    refine (Runs.induction (P := fun ts => Gone k (Runs.turns step opening (es₁ ++ [.remove k]) ++ ts))
      ?_ (fun ts _ e h => List.append_assoc .. ▸ h.step e) es₂).never
    rw [List.append_nil, Runs.turns_append, Runs.run_append]
    exact .remove faithful.sound (faithful.kept ho) added
  · rw [ht] at hd ⊢
    rw [remove]
    exact remove_closed faithful.sound hd k

/-- The second of two callbacks is removed, and then the channel is closed. -/
theorem removal_counts_while_open_second :
    1 ∉ begun (Runs.turns step opening [.add, .add, .remove 1, .dispose, .proceed]) ++
      due (Runs.run step opening [.add, .add, .remove 1, .dispose, .proceed]) :=
  (@removal_counts_while_open [.add, .add, .remove 1, .dispose, .proceed]
    (Runs.turns step opening [.add, .add]) _ ⟨_, .remove 1, _⟩ 1 rfl rfl (by decide +kernel)).1
    (by decide +kernel)

/-- A removal may come before the callback has begun, and yet it begins. -/
theorem due_callback_is_not_removed : ∃ es before t after k,
    Runs.turns step opening es = before ++ t :: after ∧ t.event = .remove k ∧
      k < (core t.before).nextKey ∧ k ∉ begun before ∧ k ∈ begun (Runs.turns step opening es) := by
  have zero x : begun? ⟨Runs.run step opening [.add, .add, .dispose], .proceed, x⟩ = some 0 :=
    keyOf?_callback 0
  have one x :
      begun? ⟨Runs.run step opening [.add, .add, .dispose, .proceed, .remove 1], .proceed, x⟩ = some 1 :=
    keyOf?_callback 1
  have first : begun (Runs.turns step opening [.add, .add, .dispose, .proceed]) = [0] :=
    List.filterMap_cons_some (zero _)
  have both : begun (Runs.turns step opening [.add, .add, .dispose, .proceed, .remove 1, .proceed]) = [0, 1] :=
    (List.filterMap_cons_some (zero _)).trans (congrArg _ (List.filterMap_cons_some (one _)))
  refine ⟨[.add, .add, .dispose, .proceed, .remove 1, .proceed],
    Runs.turns step opening [.add, .add, .dispose, .proceed], ⟨_, .remove 1, _⟩, _, 1, rfl, rfl, ?_, ?_, ?_⟩
  · decide +kernel
  · rw [first]
    decide
  · rw [both]
    decide

end Disposal

end Switchboard
