import Switchboard.Proofs.Teardown

/-!
# Handlers leave nothing behind on the server channel

A server handler hangs a hook on the server channel when it is made. With its first call it makes a
requester there, which brings a service and a hook of its own. When the handler is closed, however far it
had got, all of this is taken down. The fixtures of the server channel are the hooks and services that no
handler has brought: the tracker's, and those of whoever else listens there. Handlers leave them as they
are, and what stands on the server channel besides belongs to a handler that is not closed.

`NearStep` says what a change does to the server channel and to those who have something on it. `Leased`
and `SameFixtures` are what follows.
-/

namespace Switchboard

open World Exchange

/-! ## What leaves a channel as it is -/

namespace World

variable {w : World} {c : Nat}

def servicesOn (w : World) (c : Nat) : List (String × Handler) :=
  (w.channels.get? c).elim [] fun ch => ch.core.services

theorem servicesOn_eq {ch : Channel} (h : w.channels.get? c = some ch) :
    w.servicesOn c = ch.core.services := by
  simp [servicesOn, h]

/-- A receiver that leaves changes its own channel only. -/
theorem get?_withdrawn {v : Nat} (away : ∀ cell, w.receivers.get? v = some cell → cell.channel ≠ c) :
    (w.withdrawn v).get? c = w.channels.get? c := by
  unfold withdrawn
  grind

theorem get?_clearRegistry (g : Nat) (away : w.receivers.All fun _ cell => cell.channel ≠ c) :
    (w.clearRegistry g).channels.get? c = w.channels.get? c := by
  unfold clearRegistry
  split
  · rfl
  · suffices ∀ (es : List (Nat × Nat)) (w₁ : World), w₁.receivers.All (fun _ cell => cell.channel ≠ c) →
        (es.foldl (fun acc e => acc.releaseReceiver e.2) w₁).channels.get? c = w₁.channels.get? c from
      this _ _ away
    intro es
    induction es with
    | nil => exact fun _ _ => rfl
    | cons e _ ih =>
      intro w₁ away₁
      rw [List.foldl_cons, releaseReceiver_eq]
      have kept : (w₁.receivers.modify e.2 fun c => { c with live := false }).All
          fun _ cell => cell.channel ≠ c := away₁.modify fun _ _ h => h
      exact (ih _ kept).trans (get?_withdrawn (away₁ e.2))

/-- A requester that leaves changes its own channel only. -/
theorem get?_left {r : Nat} (chs : Table Channel) (away : ∀ cell, w.requesters.get? r = some cell →
    cell.core.disposed = false → cell.channel ≠ c) : (w.left r chs).get? c = chs.get? c := by
  unfold left
  split
  · grind
  · rfl

end World

/-! ## What a change does to the server channel -/

namespace World

variable {w w' : World} (ho : w.isOpen near = true)
include ho

theorem near_hooked {hook : Hook}
    (channel : w'.channels.get? near = (w.channels.get? near).map (hooked hook)) :
    w'.hooksOn near = w.hooksOn near ++ [(w.keyOn near, hook)] ∧ w'.servicesOn near = w.servicesOn near := by
  obtain ⟨ch, hch, isOpen⟩ := isOpen_eq_true.mp ho
  rw [hch, Option.map_some] at channel
  rw [hooksOn_eq channel, servicesOn_eq channel, hooksOn_eq hch, servicesOn_eq hch, keyOn_eq hch]
  simp [hooked, ChannelCore.addHook, isOpen]

theorem near_listening {name : String} {r : Nat}
    (channel : w'.channels.get? near = (w.channels.get? near).map (listening name r)) :
    w'.hooksOn near = w.hooksOn near ++ [(w.keyOn near, .requester r)] ∧
      w'.servicesOn near = Assoc.set (Service.response name) (.responses r) (w.servicesOn near) := by
  obtain ⟨ch, hch, isOpen⟩ := isOpen_eq_true.mp ho
  rw [hch, Option.map_some] at channel
  rw [hooksOn_eq channel, servicesOn_eq channel, hooksOn_eq hch, servicesOn_eq hch, keyOn_eq hch]
  simp [listening, ChannelCore.addHook, ChannelCore.register, isOpen]

end World

def ServerHandlerCell.lease (c : ServerHandlerCell) : Bool × Option Nat × Option Nat :=
  (c.disposed, c.hook, c.requester)

def RequesterCell.lease (c : RequesterCell) : Bool × Option Nat := (c.core.disposed, c.hook)

/-- Handlers, and the requesters on the server channel, have there what they had. -/
structure SameLeases (w w' : World) : Prop where
  handlers : ∀ h, (w'.serverHandlers.get? h).map ServerHandlerCell.lease =
    (w.serverHandlers.get? h).map ServerHandlerCell.lease
  requesters : ∀ r cell, w.requesters.get? r = some cell → cell.channel = near →
    (w'.requesters.get? r).map RequesterCell.lease = some cell.lease

theorem SameLeases.of_tables {w w' : World} (hr : w'.requesters = w.requesters)
    (hh : w'.serverHandlers = w.serverHandlers) : SameLeases w w' :=
  ⟨fun _ => by rw [hh], fun _ _ hcell _ => by rw [hr, hcell]; rfl⟩

def Hook.isFixture : Hook → Bool
  | .serverHandler _ | .requester _ => false
  | _ => true

def Handler.isFixture : Handler → Bool
  | .responses _ => false
  | _ => true

/-- What a change that leaves the server channel open does to it, and to those who have something on it:
nothing, or a fixture is added, or a handler comes, makes its requester, or goes. -/
inductive NearStep (κ : Cause) (w w' : World) : Prop
  | same (channel : w'.channels.get? near = w.channels.get? near) (leases : SameLeases w w')
  | furnished {move : Move} (cause : κ = .owner move) (furnishes : move.furnishes = true)
      (hooks : ∀ e ∈ w'.hooksOn near, e ∈ w.hooksOn near ∨ e.2.isFixture = true)
      (services : ∀ e ∈ w'.servicesOn near, e ∈ w.servicesOn near ∨ e.2.isFixture = true)
      (leases : SameLeases w w')
  | manned {handler : ServerHandlerCell}
      (channel : w'.channels.get? near =
        (w.channels.get? near).map (hooked (.serverHandler w.serverHandlers.size)))
      (handlers : w'.serverHandlers = w.serverHandlers.push handler)
      (requesters : w'.requesters = w.requesters) (undisposed : handler.disposed = false)
      (hook : handler.hook = some (w.keyOn near))
  | announced {h : Nat} {cell : ServerHandlerCell} {requester : RequesterCell}
      (channel : w'.channels.get? near =
        (w.channels.get? near).map (listening (Service.callFunction h) w.requesters.size))
      (handler : w.serverHandlers.get? h = some cell) (undisposed : cell.disposed = false)
      (fresh : cell.requester = none)
      (handlers : w'.serverHandlers = w.serverHandlers.modify h fun c =>
        { c with requester := some w.requesters.size })
      (requesters : w'.requesters = w.requesters.push requester)
      (working : requester.core.disposed = false) (hook : requester.hook = some (w.keyOn near))
  | parted {h : Nat} {cell : ServerHandlerCell} (channel : w'.channels.get? near = (w.parted cell).get? near)
      (handler : w.serverHandlers.get? h = some cell) (undisposed : cell.disposed = false)
      (handlers : w'.serverHandlers = w.serverHandlers.modify h shutHandler)
      (requesters : w'.requesters = cell.requester.elim w.requesters fun r =>
        w.requesters.modify r (dropRequester ∘ shutRequester))

namespace NearStep

variable {w w' : World} {κ : Cause}

theorem of_tables (hc : w'.channels.get? near = w.channels.get? near) (hr : w'.requesters = w.requesters)
    (hh : w'.serverHandlers = w.serverHandlers) : NearStep κ w w' :=
  .same hc (.of_tables hr hh)

variable {r : Nat}

/-- A requester changes, but not what ties it to its channel. -/
theorem of_requesters {f : RequesterCell → RequesterCell}
    (hc : w'.channels.get? near = w.channels.get? near) (hr : w'.requesters = w.requesters.modify r f)
    (hh : w'.serverHandlers = w.serverHandlers)
    (hf : ∀ cell, w.requesters.get? r = some cell → cell.channel = near → (f cell).lease = cell.lease) :
    NearStep κ w w' := by
  refine .same hc ⟨fun h => by rw [hh], fun _ cell _ _ => ?_⟩
  grind

theorem of_unmoved (h : Unmoved w w') : NearStep κ w w' := by
  refine .same (by rw [h.channels]) ⟨fun i => ?_, fun _ _ hcell _ => by rw [h.requesters, hcell]; rfl⟩
  have same := congrArg (Option.map ServerHandlerCell.lease) (h.handlers i)
  rwa [Option.map_map, Option.map_map] at same

/-- A requester on another channel is closed. -/
theorem of_disposeRequester (thinned : Thinned w w') (ho : w.isOpen near = true)
    (after : w' = w.disposeRequester r) : NearStep κ w w' := by
  obtain ⟨_, _, -, heq⟩ := disposeRequester_eq r w
  have away : ∀ cell, w.requesters.get? r = some cell → cell.core.disposed = false → cell.channel ≠ near := by
    intro cell hcell undisposed hnear
    obtain ⟨_, hcell', -, -, same | ⟨-, closed⟩⟩ := thinned.2 r cell hcell
    · rw [after, heq, Table.get?_modify_self, hcell] at hcell'
      obtain rfl := Option.some.inj hcell'
      have := congrArg (·.core.disposed) same
      simp [shutRequester, undisposed] at this
    · cases ho.symm.trans (closed hnear)
  rw [after, heq]
  refine .of_requesters (get?_left _ away) rfl rfl fun cell hcell hnear => ?_
  cases hd : cell.core.disposed with
  | true => simp [shutRequester, hd]
  | false => exact absurd hnear (away cell hcell hd)

end NearStep

variable {H : History} {L L' : Ledger} {w w' : World} {κ : Cause} {more rest : List Action}
  {ts : List Transition} {x : Exchange} {m : Move}

theorem Regular.receivers_away (reg : Regular H L w) : w.receivers.All fun _ cell => cell.channel ≠ near := by
  intro v cell hcell hnear
  obtain ⟨ω, -, place, -⟩ := reg.orderly.receivers v cell hcell
  rw [hnear] at place
  cases ω with
  | registry => cases place
  | client =>
    obtain ⟨_, hρ, hc⟩ := place
    have := two_le_of_isHandlerEnd (reg.coherent.client hρ).1
    rw [hc] at this
    cases this

theorem Regular.nearStep_calm (reg : Regular H L w) (ok : ∀ a, κ = .action a → ActionOk H L a)
    (calm : Calm w w') (wires : Rewired w κ w') (ho : w.isOpen near = true) : NearStep κ w w' := by
  unfold Rewired at wires
  split at wires
  · next c _ =>
    subst wires
    have away : c ≠ near := fun h => by
      have := (ok _ rfl).2
      rw [h] at this
      cases this
    exact .of_tables (Table.get?_modify_of_ne away _ _) rfl rfl
  · rcases wires with rfl | after
    · exact .of_unmoved (.refl _)
    · exact .of_disposeRequester calm.requesters ho after
  · next g =>
    rcases wires with rfl | rfl
    · exact .of_unmoved (.refl _)
    · have same := get?_clearRegistry g reg.receivers_away
      obtain ⟨_, _, -, heq⟩ := clearRegistry_eq g w
      rw [heq] at same ⊢
      exact .of_tables same rfl rfl
  · next v =>
    rw [releaseReceiver_eq] at wires
    subst wires
    exact .of_tables (get?_withdrawn (reg.receivers_away v)) rfl rfl
  · rcases wires with rfl | ⟨-, after⟩
    · exact .of_unmoved (.refl _)
    · exact .of_disposeRequester calm.requesters ho after
  · next service label =>
    rcases wires with rfl | rfl
    · exact .of_unmoved (.refl _)
    · obtain ⟨ch, hch, isOpen⟩ := isOpen_eq_true.mp ho
      have channel := Table.get?_modify_self w.channels near
        (registered service.name (.observer "near" label []))
      rw [hch, Option.map_some] at channel
      refine .furnished rfl rfl (fun e he => .inl ?_) (fun e he => ?_) (.of_tables rfl rfl)
      · rw [hooksOn_eq hch]
        rw [hooksOn_eq channel] at he
        simpa [registered, ChannelCore.register, isOpen] using he
      · rw [servicesOn_eq hch]
        rw [servicesOn_eq channel] at he
        rcases Assoc.eq_or_mem_of_mem_set (by simpa [registered, ChannelCore.register, isOpen] using he)
          with rfl | old
        · exact .inr rfl
        · exact .inl old
  · next label =>
    rcases wires with rfl | rfl
    · exact .of_unmoved (.refl _)
    · have added : ∀ w' : World, w'.channels.get? near = (w.channels.get? near).map
          (hooked (.observer "near" label [])) → _ := fun w' => near_hooked ho
      obtain ⟨hooks, services⟩ := added { w with
        channels := w.channels.modify near (hooked (.observer "near" label [])) }
        (Table.get?_modify_self _ _ _)
      refine .furnished rfl rfl (fun e he => ?_) (fun e he => .inl (services ▸ he)) (.of_tables rfl rfl)
      rcases List.mem_append.mp (hooks ▸ he) with old | new
      · exact .inl old
      · exact .inr (by rw [List.mem_singleton.mp new]; rfl)
  · exact .of_unmoved wires

theorem Regular.admitted_away (reg : Regular H L w) {k : Nat} {cell : ClientHandlerCell}
    (client : w.clientHandlers.get? k = some cell) : cell.channel ≠ near := by
  intro hnear
  obtain ⟨_, hρ, ok⟩ := reg.orderly.clients k cell client
  have := two_le_of_isHandlerEnd (reg.coherent.client hρ).1
  rw [← ok.channel, hnear] at this
  cases this

theorem Advance.nearStep (s : Steady ts x L) (v : Advance ts x m L L' κ w' more rest)
    (ho' : w'.isOpen near = true) : NearStep κ x.world w' := by
  have ho := v.near_mono s ho'
  have manned : ∀ {handler : ServerHandlerCell} {hooks : List Hook} {w' : World},
      x.world.Manned handler hooks → w'.channels.get? near =
        (x.world.channels.get? near).map (hooked (.serverHandler x.world.serverHandlers.size)) →
      w'.serverHandlers = x.world.serverHandlers.push handler → w'.requesters = x.world.requesters →
      NearStep κ x.world w' := by
    intro handler hooks w' manned channel handlers requesters
    obtain ⟨ch, hch, -⟩ := isOpen_eq_true.mp ho
    obtain ⟨_, _, at_key, rfl⟩ | ⟨closed, -⟩ := manned
    · obtain ⟨-, rfl⟩ := at_key ch hch
      exact .manned channel handlers requesters rfl (congrArg some (keyOn_eq hch).symm)
    · cases ho.symm.trans closed
  have regular' := v.regular
  cases v.occurs.happening with
  | calm _ calm _ _ _ wires => exact s.regular.nearStep_calm (v.action_ok s) calm wires ho
  | ignored _ _ _ _ unmoved => exact .of_unmoved unmoved
  | settled requester | posted _ _ _ requester | requested _ requester =>
    refine .of_requesters rfl rfl rfl fun cell hcell _ => ?_
    cases requester.symm.trans hcell
    rfl
  | arrived registry =>
    refine .of_tables ?_ rfl rfl
    rw [(s.regular.orderly.registries 0 _ registry).channel]
    exact Table.get?_modify_of_ne (show far ≠ near by decide) _ _
  | departed => exact .of_tables (get?_withdrawn (s.regular.receivers_away _)) rfl rfl
  | @shutCore c ch channel =>
    by_cases hc : c = near
    · subst hc
      simp [World.isOpen, modifyChannel, channel] at ho'
    · exact .of_tables (Table.get?_modify_of_ne hc _ _) rfl rfl
  | shutHandler handler undisposed => exact .parted rfl handler undisposed rfl rfl
  | announced handler undisposed fresh _ _ core hook =>
    obtain ⟨ch, hch, hk⟩ := hook
    exact .announced (Table.get?_modify_self _ _ _) handler undisposed fresh rfl rfl (by rw [core])
      (hk.trans (congrArg some (keyOn_eq hch).symm))
  | unposted _ requesters =>
    rcases requesters with rfl | ⟨closed, -⟩
    · exact .of_tables rfl rfl rfl
    · cases ho.symm.trans closed
  | connected =>
    have lt : near < x.world.channels.size := Nat.lt_of_lt_of_le Nat.zero_lt_two s.linked
    refine .of_tables ?_ rfl rfl
    show ((x.world.channels.push _).push _).get? near = _
    rw [Table.get?_push_of_lt (by rw [Table.size_push]; omega), Table.get?_push_of_lt lt]
  | @admitted c _ _ _ _ _ _ _ _ _ _ _ _ _ mans _ =>
    have away : c ≠ near := regular'.admitted_away (Table.get?_push_size _ _)
    grind
  | attached _ _ _ _ mans => exact manned mans (Table.get?_modify_self _ _ _) rfl rfl
  | @enlisted c _ requester chs _ _ allowed channel wires =>
    have away : c ≠ near := by
      rintro rfl
      simp [canEnlist, isClientEnd] at allowed
    obtain ⟨f, hf⟩ : ∃ f, chs = x.world.channels.modify c f := by
      obtain ⟨_, -, ⟨-, -, hchs⟩ | ⟨-, -, f, hchs, -⟩⟩ := wires
      · exact ⟨_, hchs⟩
      · exact ⟨f, hchs⟩
    refine .same ?_ ⟨fun _ => rfl, fun r cell hcell _ => ?_⟩
    · rw [hf]
      exact Table.get?_modify_of_ne away _ _
    · grind
  | @unrequested r c _ _ _ _ _ line =>
    refine .of_requesters rfl rfl rfl fun cell hcell hnear => ?_
    have ok := of_eq_some (s.regular.orderly.requesters r cell hcell) line
    obtain rfl : near = c := hnear.symm.trans ok.channel
    cases s.regular.coherent.line line
  | _ => exact .of_tables rfl rfl rfl

/-! ## To whom a registration belongs -/

namespace World

def Employs (w : World) (h r : Nat) (cell : RequesterCell) : Prop :=
  (∃ handler, w.serverHandlers.get? h = some handler ∧ handler.disposed = false ∧
    handler.requester = some r) ∧
  w.requesters.get? r = some cell ∧ cell.core.disposed = false

/-- A hook on the server channel belongs to a handler that is not closed, or to the requester of one. -/
def Hangs (w : World) (h : Nat) : Nat × Hook → Prop
  | (key, .serverHandler h') => h' = h ∧
    ∃ cell, w.serverHandlers.get? h = some cell ∧ cell.disposed = false ∧ cell.hook = some key
  | (key, .requester r) => ∃ cell, w.Employs h r cell ∧ cell.hook = some key
  | _ => False

/-- A service on the server channel belongs to the requester of a handler that is not closed. -/
def Listens (w : World) (h : Nat) : String × Handler → Prop
  | (service, .responses r) =>
    (∃ cell, w.Employs h r cell) ∧ service = Service.response (Service.callFunction h)
  | _ => False

/-- A change leaves a handler on the server channel with all that it has there. -/
structure Retains (w w' : World) (h : Nat) : Prop where
  handler : ∀ cell, w.serverHandlers.get? h = some cell → cell.disposed = false →
    ∃ cell', w'.serverHandlers.get? h = some cell' ∧ cell'.disposed = false ∧ cell'.hook = cell.hook
  requester : ∀ r cell, w.Employs h r cell → ∃ cell', w'.Employs h r cell' ∧ cell'.hook = cell.hook

variable {h : Nat}

theorem Retains.hangs {w w' : World} (kept : Retains w w' h) {e : Nat × Hook}
    (hangs : w.Hangs h e) : w'.Hangs h e := by
  obtain ⟨_, hook⟩ := e
  cases hook with
  | serverHandler =>
    obtain ⟨same, cell, hcell, undisposed, hk⟩ := hangs
    obtain ⟨cell', hcell', undisposed', hook⟩ := kept.handler cell hcell undisposed
    exact ⟨same, cell', hcell', undisposed', hook.trans hk⟩
  | requester r =>
    obtain ⟨cell, employs, hk⟩ := hangs
    obtain ⟨cell', employs', hook⟩ := kept.requester r cell employs
    exact ⟨cell', employs', hook.trans hk⟩
  | _ => exact hangs

theorem Retains.listens {w w' : World} (kept : Retains w w' h) {e : String × Handler}
    (listens : w.Listens h e) : w'.Listens h e := by
  obtain ⟨_, handler⟩ := e
  cases handler with
  | responses r =>
    obtain ⟨⟨cell, employs⟩, name⟩ := listens
    obtain ⟨cell', employs', -⟩ := kept.requester r cell employs
    exact ⟨⟨cell', employs'⟩, name⟩
  | _ => exact listens

end World

variable {h : Nat}

theorem Regular.employs (reg : Regular H L w) {r : Nat} {cell : RequesterCell} (e : w.Employs h r cell) :
    L.requester r = some (.server h) ∧ cell.channel = near ∧ cell.core.name = Service.callFunction h := by
  obtain ⟨⟨handler, hhandler, -, hr⟩, hcell, -⟩ := e
  obtain ⟨_, -, fit⟩ := reg.orderly.handlers h handler hhandler
  have line := fit.requester r hr
  have ok := of_eq_some (reg.orderly.requesters r cell hcell) line
  exact ⟨line, ok.channel, ok.name⟩

/-! ### What each step leaves to a handler -/

namespace World.Retains

theorem of_same (reg : Regular H L w) (leases : SameLeases w w') (h : Nat) : Retains w w' h := by
  have found : ∀ cell, w.serverHandlers.get? h = some cell →
      ∃ cell', w'.serverHandlers.get? h = some cell' ∧ cell'.lease = cell.lease := by
    intro cell hcell
    exact Option.map_eq_some_iff.mp ((leases.handlers h).trans (by rw [hcell]; rfl))
  refine ⟨fun cell hcell undisposed => ?_, fun r cell employs => ?_⟩
  · obtain ⟨cell', hcell', same⟩ := found cell hcell
    obtain ⟨disposed, hook, -⟩ : cell'.disposed = cell.disposed ∧ cell'.hook = cell.hook ∧ _ := by
      simpa [ServerHandlerCell.lease] using same
    exact ⟨cell', hcell', disposed.trans undisposed, hook⟩
  · obtain ⟨-, hnear, -⟩ := reg.employs employs
    obtain ⟨⟨handler, hhandler, undisposed, hr⟩, hcell, working⟩ := employs
    obtain ⟨handler', hhandler', same⟩ := found handler hhandler
    obtain ⟨disposed, -, requester⟩ : handler'.disposed = handler.disposed ∧ _ ∧
        handler'.requester = handler.requester := by
      simpa [ServerHandlerCell.lease] using same
    obtain ⟨cell', hcell', lease⟩ := Option.map_eq_some_iff.mp (leases.requesters r cell hcell hnear)
    obtain ⟨working', hook⟩ : cell'.core.disposed = cell.core.disposed ∧ cell'.hook = cell.hook := by
      simpa [RequesterCell.lease] using lease
    exact ⟨cell', ⟨⟨handler', hhandler', disposed.trans undisposed, requester.trans hr⟩, hcell',
      working'.trans working⟩, hook⟩

theorem of_push {handler : ServerHandlerCell} (handlers : w'.serverHandlers = w.serverHandlers.push handler)
    (requesters : w'.requesters = w.requesters) (h : Nat) : Retains w w' h := by
  have found : ∀ cell, w.serverHandlers.get? h = some cell → w'.serverHandlers.get? h = some cell :=
    fun cell hcell => by rw [handlers, Table.get?_push_of_lt (Table.lt_size_of_get? hcell), hcell]
  refine ⟨fun cell hcell undisposed => ⟨cell, found cell hcell, undisposed, rfl⟩, fun _ cell employs => ?_⟩
  obtain ⟨⟨handler, hhandler, undisposed, hr⟩, hcell, working⟩ := employs
  exact ⟨cell, ⟨⟨handler, found handler hhandler, undisposed, hr⟩, requesters ▸ hcell, working⟩, rfl⟩

variable {h₀ : Nat} {cell₀ : ServerHandlerCell}

theorem of_announced {requester : RequesterCell}
    (handler : w.serverHandlers.get? h₀ = some cell₀) (fresh : cell₀.requester = none)
    (handlers : w'.serverHandlers = w.serverHandlers.modify h₀ fun c =>
      { c with requester := some w.requesters.size })
    (requesters : w'.requesters = w.requesters.push requester) (h : Nat) : Retains w w' h := by
  refine ⟨fun cell hcell undisposed => ?_, fun _ cell employs => ?_⟩
  · grind
  · obtain ⟨⟨hcell, hhandler, undisposed, hr⟩, hrequester, working⟩ := employs
    have other : h₀ ≠ h := by
      rintro rfl
      cases handler.symm.trans hhandler
      cases fresh.symm.trans hr
    refine ⟨cell, ⟨⟨hcell, ?_, undisposed, hr⟩, ?_, working⟩, rfl⟩
    · rw [handlers, Table.get?_modify_of_ne other, hhandler]
    · rw [requesters, Table.get?_push_of_lt (Table.lt_size_of_get? hrequester), hrequester]

theorem of_parted (reg : Regular H L w) (handler : w.serverHandlers.get? h₀ = some cell₀)
    (handlers : w'.serverHandlers = w.serverHandlers.modify h₀ shutHandler)
    (requesters : w'.requesters = cell₀.requester.elim w.requesters fun r =>
      w.requesters.modify r (dropRequester ∘ shutRequester)) {h : Nat} (other : h₀ ≠ h) :
    Retains w w' h := by
  have found : w'.serverHandlers.get? h = w.serverHandlers.get? h := by
    rw [handlers, Table.get?_modify_of_ne other]
  refine ⟨fun cell hcell undisposed => ⟨cell, found.trans hcell, undisposed, rfl⟩, fun r cell employs => ?_⟩
  obtain ⟨_, -⟩ := reg.employs employs
  obtain ⟨⟨hcell, hhandler, undisposed, hr⟩, hrequester, working⟩ := employs
  refine ⟨cell, ⟨⟨hcell, found.trans hhandler, undisposed, hr⟩, ?_, working⟩, rfl⟩
  rw [requesters]
  cases hr₀ : cell₀.requester with
  | none => exact hrequester
  | some r₀ =>
    obtain ⟨_, -, fit⟩ := reg.orderly.handlers h₀ cell₀ handler
    have away : r₀ ≠ r := by
      grind [fit.requester]
    exact (Table.get?_modify_of_ne away _ _).trans hrequester

end World.Retains

/-! ## Every registration has its owner -/

/-- Besides the fixtures, only hooks and services of handlers that are not closed are on the server
channel. -/
structure Leased (w : World) : Prop where
  hooks : ∀ e ∈ w.hooksOn near, e.2.isFixture = true ∨ ∃ h, w.Hangs h e
  services : ∀ e ∈ w.servicesOn near, e.2.isFixture = true ∨ ∃ h, w.Listens h e

/-- The same fixtures are on the server channel. -/
structure SameFixtures (w w' : World) : Prop where
  hooks : (w'.hooksOn near).filter (·.2.isFixture) = (w.hooksOn near).filter (·.2.isFixture)
  services : (w'.servicesOn near).filter (·.2.isFixture) = (w.servicesOn near).filter (·.2.isFixture)

namespace Leased

theorem of_kept (l : Leased w) (kept : ∀ h, Retains w w' h)
    (hooks : ∀ e ∈ w'.hooksOn near, e ∈ w.hooksOn near ∨ e.2.isFixture = true ∨ ∃ h, w'.Hangs h e)
    (services : ∀ e ∈ w'.servicesOn near,
      e ∈ w.servicesOn near ∨ e.2.isFixture = true ∨ ∃ h, w'.Listens h e) : Leased w' where
  hooks e he := (hooks e he).elim
    (fun old => (l.hooks e old).imp_right fun ⟨h, hangs⟩ => ⟨h, (kept h).hangs hangs⟩) id
  services e he := (services e he).elim
    (fun old => (l.services e old).imp_right fun ⟨h, listens⟩ => ⟨h, (kept h).listens listens⟩) id

end Leased

/-! ### Clearing away -/

theorem World.hooks_unhook (key : Option Nat) (core : ChannelCore Handler Hook) :
    (unhook key core).hooks = core.hooks.filter fun e => !(key == some e.1) := by
  cases key with
  | none => exact (List.filter_eq_self.mpr fun _ _ => rfl).symm
  | some => exact List.filter_congr fun e _ => by simp [BEq.comm (a := e.1)]

theorem World.core_leave (name : String) (key : Option Nat) (core : ChannelCore Handler Hook) :
    (leave name key core).hooks = core.hooks.filter (fun e => !(key == some e.1)) ∧
      (leave name key core).services =
        core.services.filter fun e => !(e.1 == Service.response name) := by
  have hooks := hooks_unhook key core
  cases key <;> exact ⟨hooks, rfl⟩

/-- A handler that goes takes down what belongs to it, and nothing that does not belong to a handler. -/
structure Cleared (w w' : World) (h : Nat) (keep : Nat × Hook → Bool) (keep' : String × Handler → Bool) :
    Prop where
  hooks : w'.hooksOn near = (w.hooksOn near).filter keep
  services : w'.servicesOn near = (w.servicesOn near).filter keep'
  held : ∀ e, keep e = false → ∃ hook, w.Holds near e.1 hook
  named : ∀ e, keep' e = false → ∃ name, e.1 = Service.response name
  hung : ∀ e, w.Hangs h e → keep e = false
  listened : ∀ e, w.Listens h e → keep' e = false

variable {cell : ServerHandlerCell}

theorem Regular.cleared (reg : Regular H L w) (ho : w.isOpen near = true)
    (channel : w'.channels.get? near = (w.parted cell).get? near)
    (handler : w.serverHandlers.get? h = some cell) (undisposed : cell.disposed = false) :
    ∃ keep keep', Cleared w w' h keep keep' := by
  obtain ⟨_, -, fit⟩ := reg.orderly.handlers h cell handler
  obtain ⟨ch, hch, -⟩ := isOpen_eq_true.mp ho
  have held : ∀ key, cell.hook = some key → w.Holds near key (.serverHandler h) :=
    fun key hk => ⟨cell, handler, fit.channel, hk⟩
  -- The channel when the handler's own hook is down.
  have first : (w.channels.modify cell.channel fun ch =>
      { ch with core := unhook cell.hook ch.core }).get? near =
        some { ch with core := unhook cell.hook ch.core } := by
    rw [fit.channel, Table.get?_modify_self, hch]
    rfl
  -- What its requester takes down, if it has one that works.
  obtain ⟨key', taken, hooks, services, held', named, works⟩ : ∃ (key' : Option Nat) (taken : String → Bool),
      w'.hooksOn near = (unhook cell.hook ch.core).hooks.filter (fun e => !(key' == some e.1)) ∧
      w'.servicesOn near = ch.core.services.filter (fun e => !taken e.1) ∧
      (∀ key, key' = some key → ∃ hook, w.Holds near key hook) ∧
      (∀ service, taken service = true → ∃ name, service = Service.response name) ∧
      ∀ r requester, w.Employs h r requester →
        requester.hook = key' ∧ taken (Service.response (Service.callFunction h)) = true := by
    by_cases works : ∃ r requester, w.Employs h r requester
    · obtain ⟨r, requester, employs⟩ := works
      obtain ⟨-, hnear, name⟩ := reg.employs employs
      obtain ⟨⟨cell', hcell', -, hr⟩, hrequester, working⟩ := id employs
      cases handler.symm.trans hcell'
      rw [parted, hr, Option.elim_some, World.left, hrequester] at channel
      simp only [working, Bool.false_eq_true, if_false, hnear, name] at channel
      rw [Table.get?_modify_self, first, Option.map_some] at channel
      obtain ⟨hooks, services⟩ := core_leave (Service.callFunction h) requester.hook
        (unhook cell.hook ch.core)
      refine ⟨requester.hook, (· == Service.response (Service.callFunction h)), ?_, ?_,
        fun key hk => ⟨.requester r, requester, hrequester, hnear, hk⟩, fun _ same => ⟨_, by simpa using same⟩,
        fun r' requester' employs' => ?_⟩
      · rw [hooksOn_eq channel, hooks]
      · rw [servicesOn_eq channel, services]
        cases cell.hook <;> rfl
      · obtain ⟨⟨cell', hcell', -, _⟩, _, -⟩ := employs'
        grind
    · replace channel : w'.channels.get? near = some { ch with core := unhook cell.hook ch.core } := by
        rw [channel, parted]
        cases hr : cell.requester with
        | none => exact first
        | some r =>
          refine (get?_left _ fun requester hrequester working => ?_).trans first
          exact absurd ⟨r, requester, ⟨cell, handler, undisposed, hr⟩, hrequester, working⟩ works
      refine ⟨none, fun _ => false, ?_, ?_, by simp, by simp, fun r requester e => absurd ⟨r, requester, e⟩ works⟩
      · exact (hooksOn_eq channel).trans (List.filter_eq_self.mpr fun _ _ => rfl).symm
      · refine ((servicesOn_eq channel).trans ?_).trans (List.filter_eq_self.mpr fun _ _ => rfl).symm
        cases cell.hook <;> rfl
  refine ⟨fun e => !(key' == some e.1) && !(cell.hook == some e.1), fun e => !taken e.1, ?_, ?_, fun e gone => ?_,
    fun e gone => named _ (by simpa using gone), fun e hangs => ?_, fun e listens => ?_⟩
  · rw [hooks, hooks_unhook, List.filter_filter, hooksOn_eq hch]
  · rw [services, servicesOn_eq hch]
  · obtain gone | gone : key' = some e.1 ∨ cell.hook = some e.1 := by
      simpa [or_iff_not_imp_left] using gone
    · exact held' _ gone
    · exact ⟨_, held _ gone⟩
  · obtain ⟨key, hook⟩ := e
    cases hook with
    | serverHandler =>
      obtain ⟨rfl, cell', hcell', -, hk⟩ := hangs
      cases handler.symm.trans hcell'
      simp [hk]
    | requester r =>
      obtain ⟨requester, employs, hk⟩ := hangs
      simp [← (works r requester employs).1, hk]
    | _ => exact absurd hangs id
  · obtain ⟨service, handler⟩ := e
    cases handler with
    | responses r =>
      obtain ⟨⟨requester, employs⟩, rfl⟩ := listens
      simp [(works r requester employs).2]
    | _ => exact absurd listens id

theorem Leased.step_parted (l : Leased w) {keep : Nat × Hook → Bool}
    {keep' : String × Handler → Bool} (cleared : Cleared w w' h keep keep')
    (kept : ∀ h', h ≠ h' → Retains w w' h') : Leased w' := by
  refine ⟨fun e he => ?_, fun e he => ?_⟩
  · rw [cleared.hooks] at he
    obtain ⟨he, stays⟩ := List.mem_filter.mp he
    refine (l.hooks e he).imp_right fun ⟨h', hangs⟩ => ⟨h', (kept h' ?_).hangs hangs⟩
    rintro rfl
    cases stays.symm.trans (cleared.hung e hangs)
  · rw [cleared.services] at he
    obtain ⟨he, stays⟩ := List.mem_filter.mp he
    refine (l.services e he).imp_right fun ⟨h', listens⟩ => ⟨h', (kept h' ?_).listens listens⟩
    rintro rfl
    cases stays.symm.trans (cleared.listened e listens)

theorem Leased.step (l : Leased w) (reg : Regular H L w) (ho : w.isOpen near = true)
    (step : NearStep κ w w') : Leased w' := by
  cases step with
  | same channel leases =>
    refine l.of_kept (.of_same reg leases) (fun e he => .inl ?_) fun e he => .inl ?_
    · rwa [hooksOn, channel, ← hooksOn] at he
    · rwa [servicesOn, channel, ← servicesOn] at he
  | furnished _ _ hooks services leases =>
    exact l.of_kept (.of_same reg leases) (fun e he => (hooks e he).imp_right .inl)
      fun e he => (services e he).imp_right .inl
  | @manned handler channel handlers requesters undisposed hook =>
    obtain ⟨hooks, services⟩ := near_hooked ho channel
    refine l.of_kept (.of_push handlers requesters) (fun e he => ?_) fun e he => .inl (services ▸ he)
    refine (List.mem_append.mp (hooks ▸ he)).imp_right fun new => .inr ?_
    obtain rfl := List.mem_singleton.mp new
    exact ⟨_, rfl, handler, by rw [handlers, Table.get?_push_size], undisposed, hook⟩
  | @announced h cell requester channel handler undisposed fresh handlers requesters working hook =>
    obtain ⟨hooks, services⟩ := near_listening ho channel
    have employs : w'.Employs h w.requesters.size requester := by
      refine ⟨⟨{ cell with requester := some w.requesters.size }, ?_, undisposed, rfl⟩, ?_, working⟩
      · rw [handlers, Table.get?_modify_self, handler]
        rfl
      · rw [requesters, Table.get?_push_size]
    refine l.of_kept (.of_announced handler fresh handlers requesters) (fun e he => ?_) fun e he => ?_
    · refine (List.mem_append.mp (hooks ▸ he)).imp_right fun new => .inr ?_
      obtain rfl := List.mem_singleton.mp new
      exact ⟨h, requester, employs, hook⟩
    · rcases Assoc.eq_or_mem_of_mem_set (services ▸ he) with rfl | old
      · exact .inr (.inr ⟨h, ⟨requester, employs⟩, rfl⟩)
      · exact .inl old
  | parted channel handler undisposed handlers requesters =>
    obtain ⟨_, _, cleared⟩ := reg.cleared ho channel handler undisposed
    exact l.step_parted cleared fun _ other => .of_parted reg handler handlers requesters other

/-- Only fixtures stand on the server channel, if all handlers are closed. -/
theorem Leased.vacant (l : Leased w)
    (gone : ∀ h cell, w.serverHandlers.get? h = some cell → cell.disposed = true) :
    (w.servicesOn near).filter (·.2.isFixture) = w.servicesOn near ∧
      (w.hooksOn near).filter (·.2.isFixture) = w.hooksOn near := by
  have unemployed : ∀ {h r cell}, ¬ w.Employs h r cell := by
    rintro h r cell ⟨⟨handler, hhandler, undisposed, -⟩, -⟩
    cases undisposed.symm.trans (gone h handler hhandler)
  refine ⟨List.filter_eq_self.mpr fun e he => (l.services e he).resolve_right ?_,
    List.filter_eq_self.mpr fun e he => (l.hooks e he).resolve_right ?_⟩
  · obtain ⟨_, handler⟩ := e
    rintro ⟨h, belongs⟩
    cases handler with
    | responses =>
      obtain ⟨⟨cell, employs⟩, -⟩ := belongs
      exact unemployed employs
    | _ => exact belongs
  · obtain ⟨_, hook⟩ := e
    rintro ⟨h, belongs⟩
    cases hook with
    | serverHandler =>
      obtain ⟨-, cell, hcell, undisposed, -⟩ := belongs
      cases undisposed.symm.trans (gone h cell hcell)
    | requester =>
      obtain ⟨cell, employs, -⟩ := belongs
      exact unemployed employs
    | _ => exact belongs

/-! ### Fixtures stay -/

theorem Assoc.filter_set {κ ν : Type} [BEq κ] [LawfulBEq κ] {key : κ} {value : ν} {table : List (κ × ν)}
    {p : κ × ν → Bool} (unwanted : p (key, value) = false)
    (other : ∀ e ∈ table, p e = true → e.1 ≠ key) :
    (Assoc.set key value table).filter p = table.filter p := by
  induction table with
  | nil => simp [Assoc.set, unwanted]
  | cons e rest ih =>
    obtain ⟨k, v⟩ := e
    have rest_eq := ih fun e he => other e (.tail _ he)
    unfold Assoc.set
    split
    · next same =>
      obtain rfl : k = key := beq_iff_eq.mp same
      have gone : p (k, v) = false := by
        cases hp : p (k, v) with
        | false => rfl
        | true => exact absurd rfl (other _ (.head _) hp)
      rw [List.filter_cons_of_neg (by simp [unwanted]), List.filter_cons_of_neg (by simp [gone])]
    · rw [List.filter_cons, List.filter_cons, rest_eq]

/-- No requester gets its responses by the service of a fixture. -/
theorem Regular.fixture_name (reg : Regular H L w) {e : String × Handler} (he : e ∈ w.servicesOn near)
    (fixture : e.2.isFixture = true) (name : String) : e.1 ≠ Service.response name := by
  obtain ⟨ch, hch⟩ : ∃ ch, w.channels.get? near = some ch := by
    cases hch : w.channels.get? near with
    | none => simp [servicesOn, hch] at he
    | some ch => exact ⟨ch, rfl⟩
  rw [servicesOn_eq hch] at he
  have ok := (reg.orderly.channels near ch hch).services e he
  have other : ∀ {service : String}, e.1 = service → service.toList.getLast? ≠ some 'e' →
      e.1 ≠ Service.response name := fun same last => same ▸ (Service.response_ne name last).symm
  obtain ⟨service, handler⟩ := e
  cases handler with
  | responses => cases fixture
  | observer => exact ok.2.2 name
  | readiness => exact other ok.2 (by decide)
  | requests =>
    obtain ⟨ω, -, -, same⟩ := ok
    exact other same (by simp [Service.request, String.toList_append])
  | arrivals | departures => exact other ok.2.2 (by decide)
  | pongs | pings => exact absurd ok id

/-- Whatever is done on the server channel but adding fixtures leaves these as they are. -/
theorem NearStep.sameFixtures (step : NearStep κ w w') (reg : Regular H L w) (f : Fastened w)
    (ho : w.isOpen near = true) (plain : ∀ m, κ = .owner m → m.furnishes = false) : SameFixtures w w' := by
  cases step with
  | same channel =>
    exact ⟨by rw [hooksOn, channel, ← hooksOn],
      by rw [servicesOn, channel, ← servicesOn]⟩
  | furnished cause furnishes => cases furnishes.symm.trans (plain _ cause)
  | manned channel =>
    obtain ⟨hooks, services⟩ := near_hooked ho channel
    exact ⟨by rw [hooks, List.filter_append]; exact List.append_nil _, by rw [services]⟩
  | announced channel =>
    obtain ⟨hooks, services⟩ := near_listening ho channel
    refine ⟨by rw [hooks, List.filter_append]; exact List.append_nil _, ?_⟩
    rw [services]
    exact Assoc.filter_set rfl fun e he fixture => reg.fixture_name he fixture _
  | parted channel handler undisposed =>
    obtain ⟨keep, keep', cleared⟩ := reg.cleared ho channel handler undisposed
    refine ⟨?_, ?_⟩
    · rw [cleared.hooks, List.filter_filter]
      refine List.filter_congr fun e he => ?_
      cases hk : keep e with
      | true => exact Bool.and_true _
      | false =>
        obtain ⟨hook, holds⟩ := cleared.held e hk
        obtain same := (f.own near e.1 hook holds).2 e.2 he
        rw [same]
        cases hook with
        | serverHandler | requester => rfl
        | _ => exact absurd holds id
    · rw [cleared.services, List.filter_filter]
      refine List.filter_congr fun e he => ?_
      cases hk : keep' e with
      | true => exact Bool.and_true _
      | false =>
        obtain ⟨name, named⟩ := cleared.named e hk
        cases fixture : e.2.isFixture with
        | false => rfl
        | true => exact absurd named (reg.fixture_name he fixture name)

/-! ## Runs -/

/-- All client handlers are closed, and so are the server handlers that belong to none of them; nothing is
left to be done about it, and the server channel is open. -/
structure Exchange.Vacated (x : Exchange) : Prop where
  isOpen : x.world.isOpen near = true
  idle : x.agenda = []
  clients : ∀ k cell, x.world.clientHandlers.get? k = some cell → cell.disposed = true
  others : ∀ h cell, x.world.serverHandlers.get? h = some cell → x.world.isOwned h = false →
    cell.disposed = true

/-- Then all server handlers are closed. -/
theorem Exchange.Vacated.handlers (e : x.Vacated) (s : Steady ts x L) (c : Collapse x L)
    (handler : x.world.serverHandlers.get? h = some cell) :
    cell.disposed = true := by
  cases owned : x.world.isOwned h with
  | false => exact e.others h cell handler owned
  | true =>
    obtain ⟨k, client, hclient, same⟩ := Table.any_cells.mp owned
    obtain ⟨ρ, hρ, ok⟩ := s.regular.orderly.clients k client hclient
    obtain rfl : ρ.handler = h := ok.handler.symm.trans (beq_iff_eq.mp same)
    have gone : x.world.gone (.client k) = true :=
      gone_client.mpr ⟨client, hclient, e.clients k client hclient⟩
    have disposed := of_eq_some (gone_handler.mp ((c.client k ρ hρ gone).1.gone e.idle)) handler
    exact disposed

theorem Leased.opening (serve : Serving) : Leased (opening serve).world := by
  rw [opening_eq]
  constructor <;> exact List.forall_mem_singleton.mpr (.inl rfl)

theorem leased_run (serve : Serving) (ms : List Move) :
    ∃ L, Steady ((opening serve).trace ms) ((opening serve).run ms) L ∧ Collapse ((opening serve).run ms) L ∧
      (((opening serve).run ms).world.isOpen near = true → Leased ((opening serve).run ms).world) := by
  refine steady_induction (A := fun _ => True)
    (P := fun _ x L => Collapse x L ∧ (x.world.isOpen near = true → Leased x.world))
    ⟨.opening serve, fun _ => .opening serve⟩ ?_ ms fun _ _ => trivial
  rintro _ x _ L _ _ _ _ _ s ⟨c, leased⟩ - v
  refine ⟨c.step s v, fun ho => ?_⟩
  have before := v.near_mono s ho
  exact (leased before).step s.regular before (v.nearStep s ho)

theorem Steady.fixtures_of_run (s : Steady ts x L) (c : Collapse x L) {ms : List Move}
    (plain : ∀ m ∈ ms, m.furnishes = false) (ho : (x.run ms).world.isOpen near = true) :
    x.world.isOpen near = true ∧ SameFixtures x.world (x.run ms).world := by
  induction ms generalizing ts x L with
  | nil => exact ⟨ho, rfl, rfl⟩
  | cons m ms ih =>
    obtain ⟨_, _, _, _, _, v⟩ := s.advance m
    obtain ⟨after, rest⟩ := ih (v.steady s) (v.occurs.after ▸ c.step s v)
      (fun m hm => plain m (.tail _ hm)) ho
    rw [v.occurs.after] at after
    have before := v.near_mono s after
    have first := (v.nearStep s after).sameFixtures s.regular c.fastened before fun m' hm' =>
      v.occurs.owner m' hm' ▸ plain m (.head _)
    rw [show (x.step m).world = _ from congrArg Exchange.world v.occurs.after] at rest
    exact ⟨before, rest.hooks.trans first.hooks, rest.services.trans first.services⟩

theorem Exchange.run_run (x : Exchange) (ms ms' : List Move) : x.run (ms ++ ms') = (x.run ms).run ms' := by
  induction ms generalizing x with
  | nil => rfl
  | cons m _ ih => exact ih (x.step m)

/-- Whatever handlers come and go and whatever becomes of their calls: once all are closed and the server
channel is open, the services and hooks on it are those that were there before the first handler came. -/
theorem server_channel_restored (serve : Serving) (before after : List Move)
    (empty : ((opening serve).run before).world.serverHandlers.size = 0)
    (plain : ∀ m ∈ after, m.furnishes = false)
    (vacated : ((opening serve).run (before ++ after)).Vacated) :
    ((opening serve).run (before ++ after)).world.servicesOn near =
        ((opening serve).run before).world.servicesOn near ∧
      ((opening serve).run (before ++ after)).world.hooksOn near =
        ((opening serve).run before).world.hooksOn near := by
  obtain ⟨_, s, c, leased⟩ := leased_run serve before
  obtain ⟨_, s', c', leased'⟩ := leased_run serve (before ++ after)
  obtain ⟨isOpen, same⟩ := s.fixtures_of_run c plain (run_run _ before after ▸ vacated.isOpen)
  rw [← run_run] at same
  obtain ⟨services, hooks⟩ := (leased isOpen).vacant fun h cell hcell => by
    have := Table.lt_size_of_get? hcell
    omega
  obtain ⟨services', hooks'⟩ := (leased' vacated.isOpen).vacant fun h cell => vacated.handlers s' c'
  rw [← services', ← hooks', ← services, ← hooks]
  exact ⟨same.services, same.hooks⟩

def callOn : List Move :=
  [.accept 3 .always none (.manual 0), .enlist 2 .abort, .post 0 ⟨"f", []⟩, .proceed, .poll 2] ++
    List.replicate 4 .proceed ++ [.settle 1 (.ok .null), .poll 5] ++ List.replicate 5 .proceed ++
    .poll 4 :: List.replicate 3 .proceed

def walkOut : List Move := .closeClient 0 :: List.replicate 16 .proceed

/-- Before the first handler comes, someone listens for answers to pings, and someone else is told when the
channel is closed. -/
def furnish : List Move :=
  [.observe ⟨Service.pong, by decide, fun n => (Service.response_ne n (by decide)).symm⟩ "pinger",
    .watch "log", .hire "checker", .connect]

/-- A handler that had a hook, a requester and a service on the server channel leaves nothing there but
what it found. -/
theorem server_channel_restored_visit :
    (((opening oblige).run (furnish ++ callOn)).world.servicesOn near).length = 3 ∧
    (((opening oblige).run furnish).world.servicesOn near).length = 2 ∧
    ((opening oblige).run (furnish ++ (callOn ++ walkOut))).world.servicesOn near =
      ((opening oblige).run furnish).world.servicesOn near ∧
    ((opening oblige).run (furnish ++ (callOn ++ walkOut))).world.hooksOn near =
      ((opening oblige).run furnish).world.hooksOn near := by
  have clients : ((opening oblige).run
      (furnish ++ (callOn ++ walkOut))).world.clientHandlers.cells.any (fun c => !c.disposed) = false := by
    decide +kernel
  have handlers : ((opening oblige).run
      (furnish ++ (callOn ++ walkOut))).world.serverHandlers.cells.any (fun c => !c.disposed) = false := by
    decide +kernel
  have closed : ∀ {α : Type} {t : Table α} {P : α → Bool}, t.cells.any (fun c => !P c) = false →
      ∀ i c, t.get? i = some c → P c = true := by
    intro α t P none i c hc
    by_contra open_
    have found : t.cells.any (fun c => !P c) = true := Table.any_cells.mpr ⟨i, c, hc, by simpa using open_⟩
    cases none.symm.trans found
  refine ⟨by decide +kernel, by decide +kernel,
    server_channel_restored oblige furnish (callOn ++ walkOut) (by decide +kernel) (by decide +kernel) ?_⟩
  exact ⟨by decide +kernel, List.isEmpty_iff.mp (by decide +kernel), closed clients,
    fun h cell hcell _ => closed handlers h cell hcell⟩

end Switchboard
