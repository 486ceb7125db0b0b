import Mathlib.Data.List.Nodup
import Switchboard.Proofs.Effects
import Switchboard.Proofs.Exchange
import Switchboard.Proofs.ServiceNames

/-!
# Requesters and any peer

Any number of requesters live on one channel, and the peer behind it is not bound by anything: it may
send any value on any service at any time. Sending may fail for a while, the channel may be closed, and
so may each requester. Values that are no response, or respond to nothing, close the channel, and a
channel that is closed closes its requesters one after the other; between these steps everything else
may happen.

`Wiring` says how requesters hang on the channel. `Act` says once what an event does to requesters,
promises and the record of what was sent; all that is proved about replies is read off it.
-/

namespace Switchboard

open World

namespace Dialogue

abbrev line : Nat := 0

/-- What can happen on the channel. -/
inductive Event where
  /-- A requester is put on the channel. -/
  | enlist (name : String)
  | post (requester : Nat) (payload : Json)
  /-- A message of the peer is handed over. -/
  | hear (service : String) (payload : Json)
  /-- Sending fails with a fault from now on, or no longer fails. -/
  | jam (fault : Option Fault)
  | close
  | dispose (requester : Nat)
  /-- The next action of the agenda is carried out. -/
  | proceed

def Event.apply (e : Event) (w : World) : World × List Action :=
  match e with
  | .enlist name => ((w.newRequester name line .disposeChannel).1, [])
  | .post r payload => ((w.post r payload).1, [])
  | .hear service payload => w.deliver line service payload
  | .jam fault =>
    ({ w with channels := w.channels.modify line fun ch => { ch with transport := .recorder fault } },
      [])
  | .close => (w, [.closeChannel line])
  | .dispose r => (w.disposeRequester r, [])
  | .proceed => (w, [])

def step (x : Exchange) : Event → Exchange
  | .proceed =>
    match x.agenda with
    | [] => x
    | a :: rest => ⟨(x.world.perform a).1, (x.world.perform a).2 ++ rest⟩
  | e => ⟨(e.apply x.world).1, (e.apply x.world).2 ++ x.agenda⟩

def opening : Exchange :=
  ⟨{ script := Script.echo,
     channels := ({} : Table Channel).push { label := "line", transport := .recorder none } }, []⟩

abbrev Turn := Runs.Turn Exchange Event

abbrev turn (x : Exchange) (e : Event) (x' : Exchange) : Turn := ⟨x, e, x'⟩

abbrev run (x : Exchange) (es : List Event) : Exchange := Runs.run step x es

abbrev turns (x : Exchange) (es : List Event) : List Turn := Runs.turns step x es

/-! ## What functions do on this channel -/

def refusal? (ch : Channel) : Option Fault :=
  if ch.core.disposed then some .channelDisposed
  else
    match ch.transport with
    | .recorder fault => fault
    | _ => none

variable {w : World} {ch : Channel}

theorem send_line (hc : w.channels.get? line = some ch) (recorder : ∃ fault, ch.transport = .recorder fault)
    (service : String) (payload : Json) : w.send line service payload =
      match refusal? ch with
      | some e => (w, .error e)
      | none => (w.log (.sent ch.label service payload), .ok ()) := by
  obtain ⟨fault, hf⟩ := recorder
  unfold send refusal?
  rw [hc]
  dsimp only
  split
  · rfl
  · rw [hf]
    cases fault <;> rfl

variable {r : Nat} {cell : RequesterCell}

theorem live_or_closed (w : World) (r : Nat) :
    (∃ cell, w.requesters.get? r = some cell ∧ cell.core.disposed = false) ∨
      ∀ cell, w.requesters.get? r = some cell → cell.core.disposed = true := by
  grind

theorem disposed_of_disposeRequester
    (hr : (w.disposeRequester r).requesters.get? r = some cell) : cell.core.disposed = true := by
  rcases live_or_closed w r with ⟨_, hr', hd⟩ | closed
  · obtain ⟨_, hq⟩ := disposeRequester_of_open hr' hd
    rw [hq] at hr
    rw [Table.get?_modify_self, hr'] at hr
    rw [← Option.some.inj hr]
  · rw [disposeRequester_of_closed closed] at hr
    exact closed cell hr

/-! ## How requesters hang on the channel -/

def Sole (w : World) (r : Nat) : Prop :=
  ∀ r' cell cell', r' ≠ r → w.requesters.get? r = some cell → w.requesters.get? r' = some cell' →
    cell'.core.name ≠ cell.core.name

theorem Sole.of_names {w' : World} (names : ∀ r cell, w.requesters.get? r = some cell →
      ∃ cell', w'.requesters.get? r = some cell' ∧ cell'.core.name = cell.core.name)
    (hs : Sole w' r) : Sole w r := by
  intro r' cell cell' other hcell hcell'
  obtain ⟨_, hc, hn⟩ := names r cell hcell
  obtain ⟨_, hc', hn'⟩ := names r' cell' hcell'
  rw [← hn, ← hn']
  exact hs r' _ _ other hc hc'

def Chore : Action → Prop
  | .closeChannel c | .closeCore c | .violation .disposeChannel _ _ c => c = line
  | .runHook (.requester _) => True
  | _ => False

/-- How requesters hang on the channel: one that is open is told when the channel is closed, and hears
the responses to it if it is the only one of its name. -/
structure Wiring (ch : Channel) (x : Exchange) : Prop where
  channel : x.world.channels.get? line = some ch
  recorder : ∃ fault, ch.transport = .recorder fault
  cells : x.world.requesters.All fun _ cell => cell.channel = line ∧ cell.policy = .disposeChannel ∧
    cell.live = true ∧ ∀ e ∈ cell.core.pending, e.1 < cell.core.nextId
  services : ch.core.disposed = false → ∀ e ∈ ch.core.services, ∃ r cell, e.2 = Handler.responses r ∧
    x.world.requesters.get? r = some cell ∧ e.1 = Service.response cell.core.name
  hooks : ∀ e ∈ ch.core.hooks, e.1 < ch.core.nextKey ∧ ∃ r, e.2 = Hook.requester r
  keys : (ch.core.hooks.map Prod.fst).Nodup
  hooked : x.world.requesters.All fun r cell => cell.core.disposed = false → ch.core.disposed = false →
    ∃ key, cell.hook = some key ∧ (key, Hook.requester r) ∈ ch.core.hooks
  called : x.world.requesters.All fun r cell => cell.core.disposed = false → ch.core.disposed = true →
    Action.runHook (.requester r) ∈ x.agenda
  registered : x.world.requesters.All fun r cell => cell.core.disposed = false →
    ch.core.disposed = false → Sole x.world r →
    ch.core.services.lookup (Service.response cell.core.name) = some (.responses r)
  chores : ∀ a ∈ x.agenda, Chore a
  closing : ∀ r, Action.runHook (.requester r) ∈ x.agenda → ch.core.disposed = true

namespace Wiring

variable {x : Exchange}

theorem opening : ∃ ch, Wiring ch Dialogue.opening :=
  ⟨{ label := "line", transport := .recorder none },
    { channel := rfl, recorder := ⟨none, rfl⟩, cells := .empty, services := fun _ => nofun,
      hooks := nofun, keys := List.nodup_nil, hooked := .empty, called := .empty,
      registered := .empty, chores := nofun, closing := nofun }⟩

section

variable (h : Wiring ch x)
include h

theorem setAgenda {agenda : List Action}
    (called : ∀ r cell, x.world.requesters.get? r = some cell → cell.core.disposed = false →
      Action.runHook (.requester r) ∈ x.agenda → Action.runHook (.requester r) ∈ agenda)
    (chores : ∀ a ∈ agenda, Chore a)
    (closing : ∀ r, Action.runHook (.requester r) ∈ agenda → ch.core.disposed = true) :
    Wiring ch ⟨x.world, agenda⟩ :=
  { h with
    called := fun r cell hr hd hc => called r cell hr hd (h.called r cell hr hd hc)
    chores := chores
    closing := closing }

/-- What is not on the channel and no requester has no bearing. -/
theorem congr {w' : World} (channels : w'.channels = x.world.channels)
    (requesters : w'.requesters = x.world.requesters) : Wiring ch ⟨w', x.agenda⟩ := by
  obtain ⟨w, _⟩ := x
  have sole : ∀ r, Sole w' r ↔ Sole w r := fun r => by unfold Sole; rw [requesters]
  exact
    { channel := channels ▸ h.channel
      recorder := h.recorder
      cells := requesters ▸ h.cells
      services := requesters ▸ h.services
      hooks := h.hooks
      keys := h.keys
      hooked := requesters ▸ h.hooked
      called := requesters ▸ h.called
      registered := fun r cell hr hd hc hs =>
        h.registered r cell (by dsimp only; rw [← requesters, hr]) hd hc ((sole r).mp hs)
      chores := h.chores
      closing := h.closing }

/-- What a requester has pending does not show on the channel. -/
theorem setCore (r : Nat) {core : Requester Nat} (core' : Requester Nat)
    (hr : ∀ cell, x.world.requesters.get? r = some cell → cell.core = core)
    (name : core'.name = core.name) (disposed : core'.disposed = core.disposed)
    (ids : ∀ e ∈ core'.pending, e.1 < core'.nextId) : Wiring ch ⟨x.world.setCore r core', x.agenda⟩ := by
  have cell_of : ∀ r' cell', (x.world.setCore r core').requesters.get? r' = some cell' →
      ∃ cell, x.world.requesters.get? r' = some cell ∧ cell'.channel = cell.channel ∧
        cell'.policy = cell.policy ∧ cell'.live = cell.live ∧ cell'.hook = cell.hook ∧
        cell'.core.name = cell.core.name ∧ cell'.core.disposed = cell.core.disposed ∧
        (cell'.core = cell.core ∨ cell'.core = core') := by
    grind [World.setCore]
  have of_cell : ∀ r' cell, x.world.requesters.get? r' = some cell → ∃ cell',
      (x.world.setCore r core').requesters.get? r' = some cell' ∧
        cell'.core.name = cell.core.name := by
    unfold World.setCore
    grind
  have sole : ∀ r', Sole (x.world.setCore r core') r' → Sole x.world r' := fun _ => .of_names of_cell
  refine { h with cells := ?_, services := ?_, hooked := ?_, called := ?_, registered := ?_ }
  · grind [h.cells]
  · grind [h.services]
  · grind [h.hooked]
  · grind [h.called]
  · grind [h.registered]

/-- Sending may fail or not. -/
theorem jam (fault : Option Fault) : Wiring { ch with transport := .recorder fault }
      ⟨{ x.world with channels := x.world.channels.modify line fun ch =>
          { ch with transport := .recorder fault } }, x.agenda⟩ :=
  { h with
    channel := by rw [Table.get?_modify_self, h.channel]; rfl
    recorder := ⟨fault, rfl⟩ }

/-- A requester that is closed leaves the channel to the others. -/
theorem dispose {r : Nat} {cell : RequesterCell}
    (hr : x.world.requesters.get? r = some cell) (hd : cell.core.disposed = false) :
    ∃ ch', ch'.core.disposed = ch.core.disposed ∧ Wiring ch' ⟨x.world.disposeRequester r, x.agenda⟩ := by
  obtain ⟨_, hq⟩ := disposeRequester_of_open hr hd
  obtain ⟨hl, _, _, -⟩ := h.cells r cell hr
  let core' := leave cell.core.name cell.hook ch.core
  have disposed : core'.disposed = ch.core.disposed := by
    unfold core' leave
    cases cell.hook <;> rfl
  have nextKey : core'.nextKey = ch.core.nextKey := by
    unfold core' leave
    cases cell.hook <;> rfl
  have services : core'.services = Assoc.erase (Service.response cell.core.name) ch.core.services := by
    unfold core' leave
    cases cell.hook <;> rfl
  have hooks : core'.hooks.Sublist ch.core.hooks := by
    unfold core' leave
    cases cell.hook with
    | none => exact List.Sublist.refl _
    | some => exact List.filter_sublist
  -- The cells that were there, with their names; only the one that is closed has changed.
  have cell_of : ∀ r' cell', (x.world.disposeRequester r).requesters.get? r' = some cell' →
      (r' ≠ r ∧ x.world.requesters.get? r' = some cell') ∨
        (r' = r ∧ cell' = { cell with
          core := { cell.core with disposed := true, pending := [] }, hook := none }) := by
    intro r' cell' hr'
    grind
  have of_cell : ∀ r' cell', x.world.requesters.get? r' = some cell' → ∃ cell'',
      (x.world.disposeRequester r).requesters.get? r' = some cell'' ∧
        cell''.core.name = cell'.core.name := by
    intro r' cell' hr'
    grind
  have open_of : ∀ r' cell', (x.world.disposeRequester r).requesters.get? r' = some cell' →
      cell'.core.disposed = false → r' ≠ r ∧ x.world.requesters.get? r' = some cell' := by
    intro r' cell' hr' ho
    rcases cell_of r' cell' hr' with h | ⟨-, rfl⟩
    · exact h
    · cases ho
  have sole : ∀ r', Sole (x.world.disposeRequester r) r' → Sole x.world r' := fun _ => .of_names of_cell
  refine ⟨{ ch with core := core' }, disposed, ?_⟩
  refine { channel := ?_, recorder := h.recorder, cells := ?_, services := ?_, hooks := ?_,
           keys := h.keys.sublist (hooks.map _), hooked := ?_, called := ?_, registered := ?_,
           chores := h.chores, closing := fun r' hr' => disposed.trans (h.closing r' hr') }
  · rw [hq]
    dsimp only
    rw [hl, Table.get?_modify_self, h.channel]
    rfl
  · grind [h.cells]
  · grind [h.services]
  · intro e he
    show e.1 < core'.nextKey ∧ _
    rw [nextKey]
    exact h.hooks e (hooks.subset he)
  · intro r' cell' hr' hd' ho
    obtain ⟨other, hr'⟩ := open_of r' cell' hr' hd'
    have ho : ch.core.disposed = false := disposed ▸ ho
    obtain ⟨key, hk, hm⟩ := h.hooked r' cell' hr' hd' ho
    obtain ⟨key₀, hk₀, hm₀⟩ := h.hooked r cell hr hd ho
    refine ⟨key, hk, ?_⟩
    have apart : key ≠ key₀ := by
      rintro rfl
      have same := List.inj_on_of_nodup_map h.keys hm hm₀ rfl
      exact other (Hook.requester.inj (Prod.mk.inj same).2)
    show (key, Hook.requester r') ∈ (leave cell.core.name cell.hook ch.core).hooks
    rw [hk₀]
    exact List.mem_filter.mpr ⟨hm, by simpa using apart⟩
  · grind [h.called]
  · intro r' cell' hr' hd' ho hs
    obtain ⟨other, hr'⟩ := open_of r' cell' hr' hd'
    have apart : cell.core.name ≠ cell'.core.name :=
      sole r' hs r cell' cell (Ne.symm other) hr' hr
    rw [services, Assoc.lookup_erase, if_neg]
    · exact h.registered r' cell' hr' hd' (disposed ▸ ho) (sole r' hs)
    · simpa using fun same => apart (Service.response_injective same).symm

theorem disposes (r : Nat) :
    ∃ ch', ch'.core.disposed = ch.core.disposed ∧ Wiring ch' ⟨x.world.disposeRequester r, x.agenda⟩ := by
  rcases live_or_closed x.world r with ⟨_, hr, hd⟩ | closed
  · exact h.dispose hr hd
  · rw [disposeRequester_of_closed closed]
    exact ⟨ch, rfl, h⟩

end

theorem sole_of_push {cell : RequesterCell} {w' : World}
    (requesters : w'.requesters = w.requesters.push cell) {r : Nat} (hs : Sole w' r) : Sole w r := by
  refine hs.of_names fun r cell hr => ⟨cell, ?_, rfl⟩
  rw [requesters, Table.get?_push_of_lt (Table.lt_size_of_get? hr), hr]

theorem enlist_open (h : Wiring ch x) (ho : ch.core.disposed = false) (name : String) :
    Wiring (listening name x.world.requesters.size ch)
      ⟨(x.world.newRequester name line .disposeChannel).1, x.agenda⟩ := by
  rw [newRequester_of_open h.channel ho]
  have cell_of : ∀ {r cell}, (x.world.requesters.push
      (freshRequester name line .disposeChannel ch.core.nextKey)).get? r = some cell →
      (r = x.world.requesters.size ∧ cell = freshRequester name line .disposeChannel ch.core.nextKey) ∨
        x.world.requesters.get? r = some cell := by
    intro r cell hr
    grind
  have core : (listening name x.world.requesters.size ch).core =
      { ch.core with
        services := Assoc.set (Service.response name) (.responses x.world.requesters.size)
          ch.core.services
        hooks := ch.core.hooks ++ [(ch.core.nextKey, .requester x.world.requesters.size)]
        nextKey := ch.core.nextKey + 1 } := by
    simp [listening, ChannelCore.register, ChannelCore.addHook, ho]
  refine { channel := ?_, recorder := h.recorder, cells := ?_, services := ?_, hooks := ?_, keys := ?_,
           hooked := ?_, called := ?_, registered := ?_, chores := h.chores, closing := ?_ }
  · dsimp only
    rw [Table.get?_modify_self, h.channel]
    rfl
  · exact h.cells.push ⟨rfl, rfl, rfl, by rintro _ ⟨⟩⟩
  · rw [core]
    intro _ e he
    rcases Assoc.eq_or_mem_of_mem_set he with rfl | he
    · exact ⟨_, _, rfl, Table.get?_push_size .., rfl⟩
    · grind [h.services]
  · rw [core]
    intro e he
    rcases List.mem_append.mp he with he | he
    · exact ⟨Nat.lt_succ_of_lt (h.hooks e he).1, (h.hooks e he).2⟩
    · rw [List.mem_singleton.mp he]
      exact ⟨Nat.lt_succ_self _, _, rfl⟩
  · rw [core]
    dsimp only
    rw [List.map_append, List.nodup_append]
    refine ⟨h.keys, List.nodup_singleton _, ?_⟩
    rintro _ hk _ hk' rfl
    obtain ⟨e, he, rfl⟩ := List.mem_map.mp hk
    exact absurd (List.mem_singleton.mp hk') (Nat.ne_of_lt (h.hooks e he).1)
  · rw [core]
    intro r cell hr hd _
    rcases cell_of hr with ⟨rfl, rfl⟩ | hr
    · exact ⟨_, rfl, List.mem_append_right _ (.head _)⟩
    · grind [h.hooked]
  · rw [core]
    intro r cell hr hd hc
    cases ho.symm.trans hc
  · rw [core]
    intro r cell hr hd _ hs
    rw [Assoc.lookup_set]
    rcases cell_of hr with ⟨rfl, rfl⟩ | hr'
    · exact if_pos (beq_self_eq_true _)
    · have apart : name ≠ cell.core.name :=
        hs x.world.requesters.size cell _ (Nat.ne_of_gt (Table.lt_size_of_get? hr')) hr
          (Table.get?_push_size ..)
      rw [if_neg (by simpa using fun same => apart (Service.response_injective same).symm)]
      exact h.registered r cell hr' hd ho (sole_of_push rfl hs)
  · intro r hr
    cases ho.symm.trans (h.closing r hr)

theorem enlist_closed (h : Wiring ch x) (hd : ch.core.disposed = true) (name : String) :
    ∃ ch', ch'.core.disposed = true ∧
      Wiring ch' ⟨(x.world.newRequester name line .disposeChannel).1, x.agenda⟩ := by
  obtain ⟨_, f, hf, eq⟩ := newRequester_of_closed h.channel hd name .disposeChannel
  obtain ⟨disposed, transport, rest⟩ := hf ch
  obtain ⟨hooks, nextKey⟩ := rest hd
  have hd' := disposed.trans hd
  rw [eq]
  refine ⟨f ch, hd', ?_⟩
  have vacuous {P : Prop} (ho : (f ch).core.disposed = false) : P :=
    absurd (hd'.symm.trans ho) nofun
  refine { channel := ?_, recorder := transport ▸ h.recorder, cells := ?_,
           services := vacuous, hooks := ?_, keys := hooks ▸ h.keys, hooked := fun _ _ _ _ => vacuous,
           called := ?_, registered := fun _ _ _ _ => vacuous, chores := h.chores,
           closing := fun _ _ => hd' }
  · rw [Table.get?_modify_self, h.channel]
    rfl
  · exact h.cells.push ⟨rfl, rfl, rfl, nofun⟩
  · rw [hooks]
    exact fun e he => ⟨Nat.lt_of_lt_of_le (h.hooks e he).1 nextKey, (h.hooks e he).2⟩
  · grind [h.called]

/-- Closing the channel leaves its requesters to be told. -/
theorem closeCore (h : Wiring ch x) {rest : List Action} (agenda : x.agenda = .closeCore line :: rest) :
    ∃ ch', ch'.core.disposed = true ∧
      Wiring ch' ⟨(x.world.closeCore line).1, (x.world.closeCore line).2 ++ rest⟩ := by
  have later : ∀ a ∈ rest, a ∈ x.agenda := fun a ha => agenda ▸ .tail _ ha
  have still : ∀ r, Action.runHook (.requester r) ∈ x.agenda → Action.runHook (.requester r) ∈ rest := by
    intro r hr
    rw [agenda] at hr
    exact (List.mem_cons.mp hr).resolve_left nofun
  unfold World.closeCore ChannelCore.dispose
  rw [h.channel]
  dsimp only [Option.bind_some]
  cases hd : ch.core.disposed with
  | true =>
    grind [h.setAgenda, h.chores]
  | false =>
    simp only [Bool.false_eq_true, if_false]
    refine ⟨{ ch with core := { ch.core with disposed := true, services := [], hooks := [] } }, rfl, ?_⟩
    refine { channel := ?_, recorder := h.recorder, cells := h.cells, services := nofun, hooks := nofun,
             keys := List.nodup_nil, hooked := fun _ _ _ _ => nofun, called := ?_,
             registered := fun _ _ _ _ => nofun, chores := ?_, closing := fun _ _ => rfl }
    · unfold modifyChannel
      rw [Table.get?_modify_self, h.channel]
      rfl
    · intro r cell hr ho _
      obtain ⟨_, -, _⟩ := h.hooked r cell hr ho hd
      grind
    · intro a ha
      rcases List.mem_append.mp ha with ha | ha
      · obtain ⟨_, hh, rfl⟩ := List.mem_map.mp ha
        obtain ⟨e, he, rfl⟩ := List.mem_map.mp hh
        obtain ⟨r, hr⟩ := (h.hooks e he).2
        rw [hr]
        trivial
      · exact h.chores a (later a ha)

end Wiring

/-! ## What an event does -/

def coreOf (w : World) (r : Nat) : Option (Requester Nat) := (w.requesters.get? r).map (·.core)

def Listens (w : World) (service : String) (r : Nat) : Prop :=
  (w.channels.get? line).bind (fun ch => ch.core.handler? service) = some (.responses r)

def requestOf (core : Requester Nat) (payload : Json) : Json := (Request.mk core.nextId payload).toJson

/-- What an event does to requesters and promises, and to the record of what was sent. -/
inductive Act (w : World) (e : Event) (w' : World) : Prop
  | rest (cores : ∀ r, coreOf w' r = coreOf w r) (promises : w'.promises = w.promises)
      (events : w'.events = w.events)
      (silent : ∀ r payload core, e = .post r payload → coreOf w r = some core → core.disposed = true)
      (deaf : ∀ service v m r core, e = .hear service v → Listens w service r →
        Response.ofJson? v = some m → coreOf w r = some core → core.disposed = false →
        core.pending.lookup m.id = none)
  | enlist (name : String) (event : e = .enlist name)
      (cores : ∀ r, coreOf w' r =
        if r = w.requesters.size then some { name := name, disposed := !w.isOpen line } else coreOf w r)
      (promises : w'.promises = w.promises) (events : w'.events = w.events)
  | send (r : Nat) (payload : Json) (core : Requester Nat) (event : e = .post r payload)
      (requester : coreOf w r = some core) (live : core.disposed = false)
      (sent : (w.send line (Service.request core.name) (requestOf core payload)).2 = .ok ())
      (reply : (w.post r payload).2 = .promise w.promises.size)
      (cores : ∀ r', coreOf w' r' = if r' = r then some (core.posted w.promises.size) else coreOf w r')
      (promises : w'.promises = w.promises.push { fallback := .error core.gaveUp })
      (events : ∃ time label, w'.events = w.events ++
        [⟨time, .sent label (Service.request core.name) (requestOf core payload)⟩])
  | fail (r : Nat) (payload : Json) (core : Requester Nat) (fault : Fault) (event : e = .post r payload)
      (requester : coreOf w r = some core) (live : core.disposed = false)
      (refused : (w.send line (Service.request core.name) (requestOf core payload)).2 = .error fault)
      (reply : (w.post r payload).2 = .promise w.promises.size)
      (cores : ∀ r', coreOf w' r' =
        if r' = r then some { core with nextId := core.nextId + 1 } else coreOf w r')
      (promises : w'.promises =
        w.promises.push { fallback := .error core.gaveUp, outcome := some (.error fault) })
      (events : w'.events = w.events)
  | answer (service : String) (v : Json) (m : Response) (r : Nat) (core : Requester Nat) (ticket : Nat)
      (event : e = .hear service v) (listens : Listens w service r) (parsed : Response.ofJson? v = some m)
      (requester : coreOf w r = some core) (live : core.disposed = false)
      (pending : core.pending.lookup m.id = some ticket)
      (cores : ∀ r', coreOf w' r' = if r' = r then some (forget core m.id) else coreOf w r')
      (promises : w'.promises = w.promises.modify ticket (Promise.keep (Requester.outcomeOf m)))
      (events : w'.events = w.events)
  | giveUp (r : Nat) (core : Requester Nat) (cause : e = .dispose r ∨ e = .proceed ∧ w.isOpen line = false)
      (requester : coreOf w r = some core) (live : core.disposed = false)
      (cores : ∀ r', coreOf w' r' =
        if r' = r then some { core with disposed := true, pending := [] } else coreOf w r')
      (promises : w'.promises = w.promises.modifyAll (core.pending.map Prod.snd)
        (Promise.keep (.error core.gaveUp)))
      (events : w'.events = w.events)

theorem coreOf_eq (h : w.requesters.get? r = some cell) :
    coreOf w r = some cell.core := by
  rw [coreOf, h]
  rfl

variable {core : Requester Nat}

theorem coreOf_modify (h : w.requesters.get? r = some cell)
    {f : RequesterCell → RequesterCell} {w' : World} (requesters : w'.requesters = w.requesters.modify r f)
    (hf : (f cell).core = core) (r' : Nat) :
    coreOf w' r' = if r' = r then some core else coreOf w r' := by
  unfold coreOf
  grind

def Event.isQuiet : Event → Bool
  | .post .. | .hear .. => false
  | _ => true

/-- Nothing is done to requesters. -/
theorem Act.idle {e : Event} (quiet : e.isQuiet = true) {w' : World}
    (requesters : w'.requesters = w.requesters) (promises : w'.promises = w.promises)
    (events : w'.events = w.events) : Act w e w' := by
  refine .rest (fun r => by rw [coreOf, coreOf, requesters]) promises events ?_ ?_
  · rintro r _ core rfl
    cases quiet
  · rintro _ _ _ r core rfl
    cases quiet

/-- Closing a requester gives up what it has pending. -/
theorem Act.dispose (r : Nat) {e : Event}
    (cause : e = .dispose r ∨ e = .proceed ∧ w.isOpen line = false) :
    Act w e (w.disposeRequester r) := by
  rcases live_or_closed w r with ⟨cell, hr, hd⟩ | closed
  · obtain ⟨_, hq⟩ := disposeRequester_of_open hr hd
    rw [hq]
    exact .giveUp r cell.core cause (coreOf_eq hr) hd
      (fun r' => coreOf_modify hr (by rfl) (by rfl) r') rfl rfl
  · rw [disposeRequester_of_closed closed]
    refine .idle ?_ rfl rfl rfl
    rcases cause with rfl | ⟨rfl, -⟩ <;> rfl

variable {x : Exchange}

theorem Wiring.isOpen (h : Wiring ch x) : x.world.isOpen line = !ch.core.disposed := by
  unfold World.isOpen
  rw [h.channel]

/-- A new requester is closed if the channel is. -/
theorem Wiring.enlist (h : Wiring ch x) (name : String) :
    (∃ ch', (ch.core.disposed = true → ch'.core.disposed = true) ∧ Wiring ch' (step x (.enlist name))) ∧
      Act x.world (.enlist name) (step x (.enlist name)).world := by
  have cores {cell : RequesterCell} {w' : World}
      (requesters : w'.requesters = x.world.requesters.push cell) (r : Nat) :
      coreOf w' r = if r = x.world.requesters.size then some cell.core else coreOf x.world r := by
    unfold coreOf
    rw [requesters, Table.get?_push]
    split <;> rfl
  unfold step Event.apply
  dsimp only [List.nil_append]
  cases hd : ch.core.disposed with
  | false =>
    refine ⟨⟨_, nofun, h.enlist_open hd name⟩, .enlist name rfl (fun r => ?_) ?_ ?_⟩
    · rw [newRequester_of_open h.channel hd, cores rfl, h.isOpen, hd]
      rfl
    · rw [newRequester_of_open h.channel hd]
    · rw [newRequester_of_open h.channel hd]
  | true =>
    obtain ⟨ch', hd', hw⟩ := h.enlist_closed hd name
    obtain ⟨_, _, -, eq⟩ := newRequester_of_closed h.channel hd name .disposeChannel
    refine ⟨⟨ch', fun _ => hd', hw⟩, .enlist name rfl (fun r => ?_) ?_ ?_⟩
    · rw [eq, cores rfl, h.isOpen, hd]
      rfl
    · rw [eq]
    · rw [eq]

theorem erase_posted (ids : ∀ e ∈ core.pending, e.1 < core.nextId) (ticket : Nat) :
    (core.posted ticket).withdraw core.nextId = ({ core with nextId := core.nextId + 1 }, some ticket) := by
  have kept : Assoc.erase core.nextId core.pending = core.pending :=
    List.filter_eq_self.mpr fun e he => by simpa using Nat.ne_of_lt (ids e he)
  have missing : core.pending.lookup core.nextId = none := by
    rw [List.lookup_eq_none_iff]
    exact fun e he => by simpa using Nat.ne_of_gt (ids e he)
  unfold Requester.withdraw Requester.posted
  dsimp only
  rw [List.lookup_append, missing]
  refine Prod.ext ?_ (by simp)
  show { core with nextId := core.nextId + 1, pending := Assoc.erase core.nextId (core.pending ++ _) } = _
  rw [Assoc.erase, List.filter_append, ← Assoc.erase, kept]
  simp

variable (h : Wiring ch x)
include h

theorem post_line
    (hr : x.world.requesters.get? r = some cell) (hd : cell.core.disposed = false) (payload : Json) :
    (refusal? ch = none ∧ x.world.post r payload = (((x.world.promise (.error cell.core.gaveUp)).setCore r
        (cell.core.posted x.world.promises.size)).log
          (.sent ch.label (Service.request cell.core.name) (requestOf cell.core payload)),
        .promise x.world.promises.size)) ∨ ∃ e q, refusal? ch = some e ∧ x.world.post r payload =
      ({ x.world.setCore r { cell.core with nextId := cell.core.nextId + 1 } with
          promises := x.world.promises.push
            { fallback := .error cell.core.gaveUp, outcome := some (.error e) }
          queue := q }, .promise x.world.promises.size) := by
  obtain ⟨hl, -, -, ids⟩ := h.cells r cell hr
  let w₁ := (x.world.promise (.error cell.core.gaveUp)).setCore r (cell.core.posted x.world.promises.size)
  have sending := send_line (w := w₁) h.channel h.recorder (Service.request cell.core.name)
    (requestOf cell.core payload)
  cases hf : refusal? ch with
  | none =>
    refine .inl ⟨rfl, ?_⟩
    rw [hf] at sending
    simp only [World.post, hr, Requester.post_of_open hd, hl]
    generalize hs : send line _ _ _ = result
    obtain rfl : result = _ := hs.symm.trans sending
    rfl
  | some e =>
    rw [hf] at sending
    refine .inr ⟨e, ?q, rfl, ?_⟩
    rotate_left
    simp only [World.post, hr, Requester.post_of_open hd, hl]
    generalize hs : send line _ _ _ = result
    obtain rfl : result = _ := hs.symm.trans sending
    simp only [erase_posted ids]
    refine Prod.ext ?_ rfl
    have merged : ({ w₁ with requesters := w₁.requesters.modify r fun c =>
        { c with core := { cell.core with nextId := cell.core.nextId + 1 } } } : World) =
        (x.world.promise (.error cell.core.gaveUp)).setCore r
          { cell.core with nextId := cell.core.nextId + 1 } := by
      simp only [w₁, World.setCore, Table.modify_modify]
      rfl
    refine (congrArg (resolve x.world.promises.size (.error e)) merged).trans ((resolve_eq ..).trans ?_)
    simp only [promise, World.setCore, Table.modify_push_size]
    rfl

theorem Wiring.post (r : Nat) (payload : Json) : Wiring ch (Dialogue.step x (.post r payload)) ∧
      Act x.world (.post r payload) (Dialogue.step x (.post r payload)).world := by
  unfold Dialogue.step Event.apply
  dsimp only [List.nil_append]
  have deaf : ∀ service v, Event.post r payload ≠ .hear service v := nofun
  rcases live_or_closed x.world r with ⟨cell, hr, hd⟩ | closed
  · have core_of : ∀ cell', x.world.requesters.get? r = some cell' → cell'.core = cell.core :=
      fun cell' hr' => by rw [Option.some.inj (hr.symm.trans hr')]
    obtain ⟨-, -, -, ids⟩ := h.cells r cell hr
    have sending := send_line h.channel h.recorder (Service.request cell.core.name)
    have cores (core : Requester Nat) (w' : World)
        (requesters : w'.requesters = (x.world.setCore r core).requesters) (r' : Nat) :
        coreOf w' r' = if r' = r then some core else coreOf x.world r' :=
      coreOf_modify hr requesters rfl r'
    rcases post_line h hr hd payload with ⟨hf, eq⟩ | ⟨e, _, hf, eq⟩
    · rw [hf] at sending
      rw [eq]
      refine ⟨?_, .send r payload cell.core rfl (coreOf_eq hr) hd ?_ (by rw [eq])
        (cores _ _ rfl) rfl ⟨_, _, rfl⟩⟩
      · refine (h.setCore r (cell.core.posted x.world.promises.size) core_of rfl rfl
          ?_).congr rfl rfl
        intro e he
        rcases List.mem_append.mp he with he | he
        · exact Nat.lt_succ_of_lt (ids e he)
        · rw [List.mem_singleton.mp he]
          exact Nat.lt_succ_self _
      · rw [sending]
    · rw [hf] at sending
      rw [eq]
      refine ⟨?_, .fail r payload cell.core e rfl (coreOf_eq hr) hd ?_ (by rw [eq])
        (cores _ _ rfl) rfl rfl⟩
      · refine (h.setCore r { cell.core with nextId := cell.core.nextId + 1 } core_of
          rfl rfl fun e he => ?_).congr rfl rfl
        exact Nat.lt_succ_of_lt (ids e he)
      · rw [sending]
  · have same : (x.world.post r payload).1 = x.world := by
      cases hr : x.world.requesters.get? r with
      | none => simp only [World.post, hr]
      | some cell => simp only [World.post, hr, Requester.post_of_disposed (closed cell hr)]
    rw [same]
    refine ⟨h, .rest (fun _ => rfl) rfl rfl ?_ fun service v _ _ _ he => absurd he (deaf service v)⟩
    rintro r' _ core ⟨⟩ hr
    obtain ⟨cell, hcell, rfl⟩ := Option.map_eq_some_iff.mp hr
    exact closed cell hcell

/-- What the handler of a service makes of a value. -/
theorem Wiring.hear (service : String) (v : Json) : Wiring ch (Dialogue.step x (.hear service v)) ∧
      Act x.world (.hear service v) (Dialogue.step x (.hear service v)).world := by
  unfold Dialogue.step Event.apply
  dsimp only
  have silent : ∀ r payload, Event.hear service v ≠ .post r payload := nofun
  cases hh : (x.world.channels.get? line).bind fun ch => ch.core.handler? service with
  | none =>
    have same : x.world.deliver line service v = (x.world, []) := by
      unfold deliver
      rw [hh]
    rw [same]
    refine ⟨h, .rest (fun _ => rfl) rfl rfl (fun r payload _ he => absurd he (silent r payload)) ?_⟩
    rintro _ _ m r core ⟨⟩ listens
    cases hh.symm.trans listens
  | some handler =>
    have handled := hh
    rw [h.channel] at handled
    have ho : ch.core.disposed = false := by
      by_contra hd
      simp [ChannelCore.handler?, hd] at handled
    have found : ch.core.services.lookup service = some handler := by
      simpa [ChannelCore.handler?, ho] using handled
    obtain ⟨r, cell, hr, hcell, -⟩ := h.services ho _ (Assoc.mem_of_lookup found)
    obtain rfl : handler = .responses r := hr
    have listens : Listens x.world service r := hh
    have same : x.world.deliver line service v = x.world.onResponse r v := by
      unfold deliver
      rw [hh]
    rw [same]
    obtain ⟨hl, hp, hlive, ids⟩ := h.cells r cell hcell
    -- Nothing is done to requesters; the channel is closed next, or nothing happens.
    have idle (deaf : ∀ m, Response.ofJson? v = some m → cell.core.disposed = false →
        cell.core.pending.lookup m.id = none) : Act x.world (.hear service v) x.world := by
      refine .rest (fun _ => rfl) rfl rfl (fun r payload _ he => absurd he (silent r payload)) ?_
      rintro _ _ m r' core ⟨⟩ listens' parsed hcore
      obtain rfl := Handler.responses.inj (Option.some.inj (listens.symm.trans listens'))
      rw [coreOf_eq hcell] at hcore
      obtain rfl := Option.some.inj hcore
      exact deaf m parsed
    have offended (scope detail : String) :
        Wiring ch ⟨x.world, [.violation cell.policy scope detail cell.channel] ++ x.agenda⟩ := by
      refine h.setAgenda (fun _ _ _ _ => List.mem_append_right _) (fun a ha => ?_) fun r' hr' => ?_
      · rcases List.mem_append.mp ha with ha | ha
        · rw [List.mem_singleton.mp ha, hp, hl]
          rfl
        · exact h.chores a ha
      · rcases List.mem_append.mp hr' with hr' | hr'
        · exact absurd (List.mem_singleton.mp hr') nofun
        · exact h.closing r' hr'
    rcases onResponse_cases x.world r v with ⟨dead, -⟩ | ⟨cell', hcell', -, cases⟩
    · exact absurd ((dead cell hcell).symm.trans hlive) nofun
    · cases hcell.symm.trans hcell'
      rcases cases with ⟨_, scope, detail, eq⟩ | ⟨m, parsed, cases⟩
      · grind
      · rcases cases with ⟨hd, eq⟩ | ⟨hd, _, scope, detail, eq⟩ | ⟨hd, t, _, pending, eq⟩
        · rw [eq]
          exact ⟨h, idle fun _ _ hd' => absurd (hd.symm.trans hd') nofun⟩
        · grind
        · rw [eq]
          refine ⟨?_, .answer service v m r cell.core t rfl listens parsed (coreOf_eq hcell) hd
            pending (fun r' => coreOf_modify hcell (by rfl) (by rfl) r') rfl rfl⟩
          have core_of : ∀ cell', x.world.requesters.get? r = some cell' → cell'.core = cell.core :=
            fun cell' hcell' => by rw [Option.some.inj (hcell.symm.trans hcell')]
          exact (h.setCore r (forget cell.core m.id) core_of rfl rfl
            fun e he => ids e (Assoc.mem_of_mem_erase he)).congr rfl rfl

/-- The channel is closed, and then its requesters. -/
theorem Wiring.proceed :
    (∃ ch', (ch.core.disposed = true → ch'.core.disposed = true) ∧ Wiring ch' (Dialogue.step x .proceed)) ∧
      Act x.world .proceed (Dialogue.step x .proceed).world := by
  have idle {w' : World} (requesters : w'.requesters = x.world.requesters)
      (promises : w'.promises = x.world.promises) (events : w'.events = x.world.events) :
      Act x.world .proceed w' := .idle rfl requesters promises events
  unfold Dialogue.step
  cases agenda : x.agenda with
  | nil =>
    exact ⟨⟨ch, id, h⟩, idle rfl rfl rfl⟩
  | cons a rest =>
    have chore := h.chores a (agenda ▸ (.head _))
    have later : ∀ a ∈ rest, a ∈ x.agenda := fun a ha => agenda ▸ .tail _ ha
    -- An action that leads to another one on the channel.
    have replaced (b : Action) (hb : Chore b) (noHook : ∀ r, a ≠ .runHook (.requester r))
        (noHook' : ∀ r, Action.runHook (.requester r) ≠ b) : Wiring ch ⟨x.world, [b] ++ rest⟩ := by
      refine h.setAgenda (fun r _ _ _ hr => ?_) (fun a ha => ?_) fun r hr => ?_
      · grind
      · grind [h.chores]
      · grind [h.closing]
    dsimp only
    match a, chore with
    | .closeChannel c, hc =>
      obtain rfl : c = line := hc
      obtain ⟨_, hf⟩ := h.recorder
      have close : x.world.perform (.closeChannel line) = (x.world, [.closeCore line]) := by
        show x.world.closeChannel line = _
        unfold closeChannel
        rw [h.channel]
        dsimp only
        rw [hf]
      rw [close]
      exact ⟨⟨ch, id, replaced _ rfl nofun nofun⟩, idle rfl rfl rfl⟩
    | .closeCore c, hc =>
      obtain rfl : c = line := hc
      obtain ⟨ch', hd, hw⟩ := h.closeCore agenda
      refine ⟨⟨ch', fun _ => hd, hw⟩, ?_⟩
      show Act x.world .proceed (x.world.closeCore line).1
      unfold World.closeCore
      split
      · exact idle rfl rfl rfl
      · exact idle rfl rfl rfl
    | .violation .disposeChannel scope detail c, hc =>
      obtain rfl : c = line := hc
      exact ⟨⟨ch, id, replaced (.closeChannel line) rfl nofun nofun⟩, idle rfl rfl rfl⟩
    | .runHook (.requester r), _ =>
      have closed : ch.core.disposed = true := h.closing r (agenda ▸ (.head _))
      have tell : x.world.perform (.runHook (.requester r)) = (x.world.disposeRequester r, []) := by
        show (if _ then _ else _, _) = _
        split
        · rfl
        · next dead =>
          rw [disposeRequester_of_closed]
          intro cell hr
          rw [hr, Option.any_some] at dead
          exact absurd (h.cells r cell hr).2.2.1 dead
      rw [tell]
      refine ⟨?_, .dispose r (.inr ⟨rfl, by rw [h.isOpen, closed]; rfl⟩)⟩
      obtain ⟨ch', kept, hw⟩ := h.disposes r
      refine ⟨ch', kept.trans, hw.setAgenda (fun r' _ hr' _ _ => ?_) (fun a ha => h.chores a (later a ha))
        fun r' hr' => hw.closing r' (later _ hr')⟩
      grind [disposed_of_disposeRequester]

/-- What one event preserves, and what it does. A closed channel stays closed. -/
theorem Wiring.step (e : Event) :
    (∃ ch', (ch.core.disposed = true → ch'.core.disposed = true) ∧ Wiring ch' (Dialogue.step x e)) ∧
      Act x.world e (Dialogue.step x e).world := by
  cases e with
  | enlist name => exact h.enlist name
  | post r payload => exact ⟨⟨ch, id, (h.post r payload).1⟩, (h.post r payload).2⟩
  | hear service v => exact ⟨⟨ch, id, (h.hear service v).1⟩, (h.hear service v).2⟩
  | proceed => exact h.proceed
  | jam fault => exact ⟨⟨{ ch with transport := .recorder fault }, id, h.jam fault⟩, .idle rfl rfl rfl rfl⟩
  | dispose r =>
    obtain ⟨ch', kept, hw⟩ := h.disposes r
    exact ⟨⟨ch', kept.trans, hw⟩, .dispose r (.inl rfl)⟩
  | close =>
    refine ⟨⟨ch, id, h.setAgenda (fun _ _ _ _ => .tail _) (fun a ha => ?_) fun r hr => ?_⟩,
      .idle rfl rfl rfl rfl⟩
    · rcases List.mem_cons.mp ha with rfl | ha
      · rfl
      · exact h.chores a ha
    · exact h.closing r ((List.mem_cons.mp hr).resolve_left nofun)

/-- A requester that is the only one of its name hears what comes for it while the channel is open. -/
theorem Wiring.listens
    (hr : coreOf x.world r = some core) (live : core.disposed = false) (sole : Sole x.world r)
    (ho : x.world.isOpen line = true) : Listens x.world (Service.response core.name) r := by
  obtain ⟨cell, hcell, rfl⟩ := Option.map_eq_some_iff.mp hr
  have open' : ch.core.disposed = false := by simpa [h.isOpen] using ho
  unfold Listens ChannelCore.handler?
  rw [h.channel]
  simp only [Option.bind_some, open', Bool.false_eq_true, if_false]
  exact h.registered r cell hcell live open' sole

/-- What a requester hears came for it, while the channel was open. -/
theorem Wiring.service_of_listens {service : String}
    (hr : coreOf x.world r = some core) (listens : Listens x.world service r) :
    service = Service.response core.name ∧ x.world.isOpen line = true := by
  unfold Listens ChannelCore.handler? at listens
  rw [h.channel] at listens
  dsimp only [Option.bind_some] at listens
  split at listens
  · cases listens
  · next open' =>
    have open' : ch.core.disposed = false := Bool.eq_false_iff.mpr open'
    obtain ⟨_, _, _, _, _⟩ := h.services open' _ (Assoc.mem_of_lookup listens)
    grind [h.isOpen, coreOf_eq]

end Dialogue

end Switchboard
