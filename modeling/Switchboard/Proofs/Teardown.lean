import Switchboard.Proofs.Hooks
import Switchboard.Proofs.Permission

/-!
# Closing a client handler

A client handler, its server handler and their two channels close each other, each by putting the
closing of the others on the agenda. `Ending` says that something is closed or that its closing is on
the agenda; nothing that is ending stops doing so. `Collapse` says what has to end with what. Once the
agenda is empty, what is ending is closed.
-/

namespace Switchboard

open World

open Exchange History

/-- What can be closed. -/
inductive Target where
  | client (client : Nat)
  | handler (handler : Nat)
  | channel (channel : Nat)

namespace World

def has (w : World) : Target → Prop
  | .client k => k < w.clientHandlers.size
  | .handler h => h < w.serverHandlers.size
  | .channel c => c < w.channels.size

def gone (w : World) : Target → Bool
  | .client k => (w.clientHandlers.get? k).any (·.disposed)
  | .handler h => (w.serverHandlers.get? h).any (·.disposed)
  | .channel c => (w.channels.get? c).any (·.core.disposed)

end World

namespace Action

/-- The actions that lead to the closing of something. The two ends of a pair are closed together. -/
def closes : Action → Target → Prop
  | .closeClientHandler k, .client k' => k = k'
  | .runHook (.clientHandler k), .client k' => k = k'
  | .closeServerHandler h, .handler h' => h = h'
  | .runHook (.serverHandler h), .handler h' => h = h'
  | .closeCore c, .channel c' => c = c'
  | .closeChannel c, .channel c' => c / 2 = c' / 2
  | .violation .disposeChannel _ _ c, .channel c' => c / 2 = c' / 2
  | _, _ => False

end Action

def Exchange.Ending (x : Exchange) (target : Target) : Prop :=
  x.world.gone target = true ∨ ∃ a ∈ x.agenda, a.closes target

theorem Exchange.Ending.gone {x : Exchange} {target : Target} (h : x.Ending target)
    (idle : x.agenda = []) : x.world.gone target = true :=
  h.elim id fun ⟨_, ha, _⟩ => absurd (idle ▸ ha) List.not_mem_nil

variable {H : History} {L L' : Ledger} {w w' : World} {κ : Cause} {more rest : List Action}
  {ts : List Transition} {x : Exchange} {m : Move} {target : Target}

namespace World

theorem gone_client {k : Nat} :
    w.gone (.client k) = true ↔ ∃ cell, w.clientHandlers.get? k = some cell ∧ cell.disposed = true :=
  Option.any_eq_true ..

variable {h : Nat}

theorem gone_handler :
    w.gone (.handler h) = true ↔ ∃ cell, w.serverHandlers.get? h = some cell ∧ cell.disposed = true :=
  Option.any_eq_true ..

theorem gone_channel {c : Nat} :
    w.gone (.channel c) = true ↔ ∃ ch, w.channels.get? c = some ch ∧ ch.core.disposed = true :=
  Option.any_eq_true ..

theorem gone_handler_iff_standing : w.gone (.handler h) = true ↔ w.standing h = some .gone := by
  rw [gone_handler]
  cases hh : w.serverHandlers.get? h with
  | none => simp [standing_eq_none hh]
  | some =>
    rw [standing_eq_some hh, Option.some.injEq, standingOf_eq_gone]
    simp [ServerHandlerCell.stage]

theorem isOpen_of_gone {c : Nat} (h : w.gone (.channel c) = true) : w.isOpen c = false := by
  obtain ⟨_, hch, hd⟩ := gone_channel.mp h
  simp [isOpen, hch, hd]

theorem gone_of_isOpen {c : Nat} (here : c < w.channels.size) (h : w.isOpen c = false) :
    w.gone (.channel c) = true := by
  obtain ⟨ch, hch⟩ := Table.get?_isSome_of_lt here
  exact gone_channel.mpr ⟨ch, hch, by simpa [isOpen, hch] using h⟩

end World

variable {a : Action}

theorem Happening.of_chore (hap : Happening L w (.action a) w' more) (chore : a.isChore = true) :
    (Calm w w' ∧ Closing w (.action a) more ∧ Rewired w (.action a) w') ∨
    (∃ c ch, a = .closeCore c ∧ w.channels.get? c = some ch ∧ w'.gone (.channel c) = true) ∨
    (∃ h cell, a = .closeServerHandler h ∧ w.serverHandlers.get? h = some cell ∧ cell.disposed = false ∧
      w'.gone (.handler h) = true ∧ more = cell.hooks.map .runHook) ∨
    ∃ k cell, a = .closeClientHandler k ∧ w.clientHandlers.get? k = some cell ∧ cell.disposed = false ∧
      w'.gone (.client k) = true ∧ more = .closeServerHandler cell.serverHandler ::
        (cell.receiver.toList.map .releaseReceiver ++ [.closeChannel cell.channel]) := by
  cases hap with
  | calm _ calm _ _ closing wires => exact .inl ⟨calm, closing, wires⟩
  | vacant reason => obtain ⟨_, rfl⟩ | ⟨_, rfl, -⟩ := reason <;> cases chore
  | breach cause => obtain ⟨_, _, _, rfl⟩ | ⟨_, _, _, rfl, -⟩ := cause <;> cases chore
  | shutCore channel =>
    simp [World.gone, World.modifyChannel, channel]
  | shutHandler handler undisposed =>
    refine .inr (.inr (.inl ⟨_, _, rfl, handler, undisposed, ?_, rfl⟩))
    simp [World.gone, World.mail, World.shutHandler, handler]
  | shutClient handler undisposed _ _ more_eq =>
    refine .inr (.inr (.inr ⟨_, _, rfl, handler, undisposed, ?_, more_eq⟩))
    simp [World.gone, handler]
  | _ => cases chore

/-- Carrying out an action that leads to the closing of something closes it or goes on to do so. -/
theorem Regular.closes (reg : Regular H L w) (hap : Happening L w (.action a) w' more)
    (here : w.has target) (closes : a.closes target) :
    w'.gone target = true ∨ ∃ b ∈ more, b.closes target := by
  have next : ∀ {b : Action}, more = [b] → b.closes target → ∃ b ∈ more, b.closes target := by
    rintro b rfl hb
    exact ⟨b, List.mem_singleton.mpr rfl, hb⟩
  unfold Action.closes at closes
  split at closes
  · next k k' =>
    subst closes
    obtain ⟨cell, hcell⟩ := Table.get?_isSome_of_lt here
    obtain ⟨calm, ⟨gone, -⟩, -⟩ | ⟨_, _, ⟨⟩, -⟩ | ⟨_, _, ⟨⟩, -⟩ | ⟨_, _, ⟨⟩, -, -, gone, -⟩ :=
      hap.of_chore rfl
    · exact .inl (gone_client.mpr ⟨cell, by rw [calm.clients, hcell], gone cell hcell⟩)
    · exact .inl gone
  · next k k' =>
    subst closes
    obtain ⟨cell, hcell⟩ := Table.get?_isSome_of_lt here
    obtain ⟨_, -, ok⟩ := reg.orderly.clients k cell hcell
    obtain ⟨-, closing, -⟩ | ⟨_, _, ⟨⟩, -⟩ | ⟨_, _, ⟨⟩, -⟩ | ⟨_, _, ⟨⟩, -⟩ := hap.of_chore rfl
    exact .inr (next (closing.trans (if_pos (by simp [hcell, ok.live]))) rfl)
  · next h h' =>
    subst closes
    obtain ⟨cell, hcell⟩ := Table.get?_isSome_of_lt here
    obtain ⟨calm, ⟨gone, -⟩, -⟩ | ⟨_, _, ⟨⟩, -⟩ | ⟨_, _, ⟨⟩, -, -, gone, -⟩ | ⟨_, _, ⟨⟩, -⟩ :=
      hap.of_chore rfl
    · have stage := calm.handlers h
      rw [hcell] at stage
      obtain ⟨cell', hcell', heq⟩ := Option.map_eq_some_iff.mp stage
      exact .inl (gone_handler.mpr ⟨cell', hcell', (congrArg Prod.fst heq).trans (gone cell hcell)⟩)
    · exact .inl gone
  · next h h' =>
    subst closes
    obtain ⟨cell, hcell⟩ := Table.get?_isSome_of_lt here
    obtain ⟨_, -, ok⟩ := reg.orderly.handlers h cell hcell
    obtain ⟨-, closing, -⟩ | ⟨_, _, ⟨⟩, -⟩ | ⟨_, _, ⟨⟩, -⟩ | ⟨_, _, ⟨⟩, -⟩ := hap.of_chore rfl
    exact .inr (next (closing.trans (if_pos (by simp [hcell, ok.live]))) rfl)
  · next c c' =>
    subst closes
    obtain ⟨calm, ⟨closed, -⟩, -⟩ | ⟨_, _, ⟨⟩, -, gone⟩ | ⟨_, _, ⟨⟩, -⟩ | ⟨_, _, ⟨⟩, -⟩ :=
      hap.of_chore rfl
    · exact .inl (gone_of_isOpen (calm.shape.size.symm ▸ here) ((calm.shape.isOpen c).trans closed))
    · exact .inl gone
  · next c c' =>
    -- Both ends of the pair are there.
    have sizes : w.channels.size = 2 * w.pairs.size := reg.orderly.size
    have there : c < w.channels.size := by
      have : c' < w.channels.size := here
      omega
    obtain ⟨_, hch⟩ := Table.get?_isSome_of_lt there
    obtain ⟨-, closing, -⟩ | ⟨_, _, ⟨⟩, -⟩ | ⟨_, _, ⟨⟩, -⟩ | ⟨_, _, ⟨⟩, -⟩ := hap.of_chore rfl
    rw [closing, if_pos (by rw [hch]; rfl)]
    refine .inr ⟨.closeCore c', ?_, rfl⟩
    grind
  · next c c' =>
    cases hap with
    | calm _ _ _ _ closing => exact .inr (next closing closes)
    | vacant reason => obtain ⟨_, heq⟩ | ⟨_, heq, -⟩ := reason <;> cases heq
    | breach cause => obtain ⟨_, _, _, heq⟩ | ⟨_, _, _, heq, -⟩ := cause <;> cases heq
  · exact absurd closes id

variable {h : Nat} {out : List (String × Json)}

/-- A server handler that is closed stays so and sends nothing any more. -/
theorem Conduct.of_gone (conduct : Conduct w w' κ h out)
    (gone : w.standing h = some .gone) : w'.standing h = some .gone ∧ out = [] := by
  cases conduct with
  | same eq => exact ⟨eq.trans gone, rfl⟩
  | stranded _ stage =>
    refine ⟨gone_handler_iff_standing.mp ?_, rfl⟩
    obtain ⟨_, hcell, hd⟩ := gone_handler.mp (gone_handler_iff_standing.mpr gone)
    rw [hcell] at stage
    obtain ⟨cell', hcell', heq⟩ := Option.map_eq_some_iff.mp stage
    exact gone_handler.mpr ⟨cell', hcell', (congrArg Prod.fst heq).trans hd⟩
  | made fresh => cases fresh.symm.trans gone
  | announced _ _ before | posted _ _ before => cases before.symm.trans gone
  | left _ before here => exact absurd (Option.some.inj (before.symm.trans gone)) here

theorem Conduct.cause_of_gone {st : Standing}
    (conduct : Conduct w w' κ h out) (before : w.standing h = some st) (here : st ≠ .gone)
    (after : w'.standing h = some .gone) : κ = .action (.closeServerHandler h) := by
  cases conduct with
  | same eq => exact absurd (Option.some.inj (before.symm.trans (eq.symm.trans after))) here
  | stranded _ stage =>
    obtain ⟨_, hst', same, -⟩ := standing_of_stage stage after
    exact absurd ((Option.some.inj (before.symm.trans hst')).trans (same.mpr rfl)) here
  | made fresh => cases fresh.symm.trans before
  | announced _ _ _ now | posted _ _ _ now => cases now.symm.trans after
  | left cause => exact cause

theorem GateStep.of_failed {γ : GateRole} {g : Nat} {d d' : Deferred Job Nat} {e : Fault}
    (step : GateStep L w γ g d κ d' more) (hd' : d'.phase = .failed e) :
    d.phase = .failed e ∨ d.phase = .waiting ∧ ∃ t, κ = .task t := by
  cases step with
  | shut _ _ phase => cases phase.symm.trans hd'
  | opened => cases hd'
  | failed _ waiting => exact .inr ⟨waiting, _, rfl⟩
  | _ => exact .inl hd'

namespace Advance

variable (s : Steady ts x L) (v : Advance ts x m L L' κ w' more rest)
include s v

/-- What is closed stays closed. -/
theorem gone_mono (h : x.world.gone target = true) : w'.gone target = true := by
  cases target with
  | client k =>
    obtain ⟨cell, hcell, hd⟩ := gone_client.mp h
    obtain ⟨_, -, ok⟩ := s.regular.orderly.clients k cell hcell
    have leaving := v.grows.leaving (ok.disposed hd)
    obtain ⟨cell', hcell'⟩ := Table.get?_isSome_of_lt (v.regular.bounded.leaving leaving)
    exact gone_client.mpr ⟨cell', hcell', v.regular.orderly.left k cell' hcell' leaving⟩
  | handler i =>
    rw [gone_handler_iff_standing] at h ⊢
    obtain ⟨_, side⟩ := v.nearSide s
    exact ((side.conduct i).of_gone h).1
  | channel c =>
    obtain ⟨ch, hch, hd⟩ := gone_channel.mp h
    have closed := v.grows.closed ((s.regular.orderly.channels c ch hch).closed hd)
    obtain ⟨ch', hch'⟩ := Table.get?_isSome_of_lt (v.regular.bounded.closed closed)
    exact gone_channel.mpr ⟨ch', hch', v.regular.orderly.closed c ch' hch' closed⟩

/-- What is ending goes on to end. -/
theorem ending (here : x.world.has target) (h : x.Ending target) :
    Exchange.Ending ⟨w', more ++ rest⟩ target := by
  rcases h with gone | ⟨a, ha, closes⟩
  · exact .inl (v.gone_mono s gone)
  · rw [v.occurs.agenda] at ha
    rcases List.mem_append.mp ha with now | later
    · obtain rfl := Cause.eq_of_mem_consumed now
      refine (s.regular.closes v.occurs.happening here closes).imp id ?_
      exact fun ⟨b, hb, hc⟩ => ⟨b, List.mem_append_left _ hb, hc⟩
    · exact .inr ⟨a, List.mem_append_right _ later, closes⟩

end Advance

/-! ## What closes with what -/

namespace Advance

variable (s : Steady ts x L) (v : Advance ts x m L L' κ w' more rest)
include s v

theorem client_cases {k : Nat} {ρ : ClientRole} (hρ : L'.client k = some ρ) :
    ∃ cell', w'.clientHandlers.get? k = some cell' ∧ ClientAt L' k ρ cell' ∧
      ((L.client k = some ρ ∧ ∃ cell, x.world.clientHandlers.get? k = some cell ∧ ClientAt L k ρ cell ∧
          (cell'.disposed = cell.disposed ∨ .closeServerHandler ρ.handler ∈ more ∧
            .closeChannel ρ.channel ∈ more)) ∨
        cell'.disposed = false ∧ .guardChannel ρ.channel (.clientHandler k) ∈ more ∧
          ∃ handler, w'.serverHandlers.get? ρ.handler = some handler ∧
            (handler.disposed = false → .clientHandler k ∈ handler.hooks) ∧
            (handler.disposed = true → .runHook (.clientHandler k) ∈ more)) := by
  obtain ⟨cell', hcell', ok'⟩ := v.regular.client_get? hρ
  have known : ∀ {cell : ClientHandlerCell}, x.world.clientHandlers.get? k = some cell →
      L.client k = some ρ ∧ ClientAt L k ρ cell := by
    intro cell hcell
    obtain ⟨_, hρ₀, ok⟩ := s.regular.orderly.clients k cell hcell
    cases (v.grows.client hρ₀).symm.trans hρ
    exact ⟨hρ₀, ok⟩
  refine ⟨cell', hcell', ok', ?_⟩
  have kept : ∀ {P : Prop} {cell : ClientHandlerCell}, x.world.clientHandlers.get? k = some cell →
      cell'.disposed = cell.disposed → L.client k = some ρ ∧ ∃ cell, x.world.clientHandlers.get? k = some cell ∧
        ClientAt L k ρ cell ∧ (cell'.disposed = cell.disposed ∨ P) :=
    fun before same => ⟨(known before).1, _, before, (known before).2, .inl same⟩
  cases v.occurs.happening with
  | calm _ calm | ignored _ calm => exact .inl (kept (calm.clients ▸ hcell') rfl)
  | first =>
    replace hcell' : (x.world.clientHandlers.modify _ _).get? k = some cell' := hcell'
    rw [Table.get?_modify] at hcell'
    split at hcell'
    · obtain ⟨cell, hcell, rfl⟩ := Option.map_eq_some_iff.mp hcell'
      exact .inl (kept hcell rfl)
    · exact .inl (kept hcell' rfl)
  | @shutClient k' cell _ _ _ handler _ _ _ more_eq =>
    replace hcell' : (x.world.clientHandlers.modify k' _).get? k = some cell' := hcell'
    rw [Table.get?_modify] at hcell'
    split at hcell'
    · next hk =>
      subst hk
      refine .inl ⟨(known handler).1, cell, handler, (known handler).2, .inr ?_⟩
      rw [← (known handler).2.handler, ← (known handler).2.channel, more_eq]
      exact ⟨.head _, .tail _ (List.mem_append_right _ (List.mem_singleton.mpr rfl))⟩
    · exact .inl (kept hcell' rfl)
  | @admitted c _ _ _ handler _ _ _ _ _ _ _ _ _ manned more_eq =>
    rw [Table.get?_push] at hcell'
    split at hcell'
    · next hk =>
      subst hk
      obtain rfl := Option.some.inj hcell'
      obtain ⟨rfl, same⟩ : c = ρ.channel ∧ x.world.serverHandlers.size = ρ.handler := ⟨ok'.channel, ok'.handler⟩
      refine .inr ⟨rfl, ?_, handler, same ▸ Table.get?_push_size .., fun hd => ?_, fun hd => ?_⟩
      · rw [more_eq]
        exact List.mem_append_right _ (List.mem_singleton.mpr rfl)
      · obtain ⟨_, _, -, rfl⟩ | ⟨-, gone, -⟩ := manned
        · exact List.mem_singleton.mpr rfl
        · cases hd.symm.trans gone
      · rw [more_eq, if_pos hd]
        exact .head _
    · exact .inl (kept hcell' rfl)
  | _ => exact .inl (kept hcell' rfl)

variable {h : Nat}

/-- A server handler is closed in one way only. -/
theorem handler_cases (here : x.world.has (.handler h)) (gone : w'.gone (.handler h) = true) :
    x.world.gone (.handler h) = true ∨ ∃ cell, x.world.serverHandlers.get? h = some cell ∧
      cell.disposed = false ∧ more = cell.hooks.map .runHook := by
  obtain ⟨cell, hcell⟩ := Table.get?_isSome_of_lt here
  rw [gone_handler_iff_standing] at gone
  obtain ⟨_, side⟩ := v.nearSide s
  cases hd : cell.disposed with
  | true => exact .inl (gone_handler.mpr ⟨cell, hcell, hd⟩)
  | false =>
    have undisposed : x.world.standing h ≠ some .gone := fun hs => by
      have hd' := of_eq_some (gone_handler.mp (gone_handler_iff_standing.mpr hs)) hcell
      cases hd.symm.trans hd'
    refine .inr ⟨cell, hcell, hd, ?_⟩
    obtain rfl := (side.conduct h).cause_of_gone (standing_eq_some hcell)
      (fun hs => undisposed ((standing_eq_some hcell).trans (congrArg some hs))) gone
    obtain ⟨-, ⟨all, -⟩, -⟩ | ⟨_, _, ⟨⟩, -⟩ | ⟨_, _, ⟨⟩, hcell', -, -, more_eq⟩ | ⟨_, _, ⟨⟩, -⟩ :=
      v.occurs.happening.of_chore rfl
    · cases hd.symm.trans (all cell hcell)
    · rw [more_eq, Option.some.inj (hcell.symm.trans hcell')]

theorem gate_failed {η : HandlerRole} {cell' : GateCell} {e : Fault} (hη : L'.handler h = some η)
    (hcell' : w'.gates.get? η.gate = some cell') (failed : cell'.core.phase = .failed e) :
    (∃ cell, L.handler h = some η ∧ x.world.gates.get? η.gate = some cell ∧ cell.core.phase = .failed e) ∨
      .closeServerHandler h ∈ more := by
  have hgate' := (v.regular.coherent.handler hη).1
  cases hcell : x.world.gates.get? η.gate with
  | none =>
    have pushed : ∀ {gate : GateCell}, w'.gates = x.world.gates.push gate → cell' = gate := by
      grind
    cases v.occurs.happening.newcomers with
    | none gates =>
      obtain ⟨_, hc⟩ := Table.get?_isSome_of_lt (gates ▸ Table.lt_size_of_get? hcell')
      cases hcell.symm.trans hc
    | gate _ _ _ _ gates =>
      rw [pushed gates] at failed
      cases failed
    | handler _ gates _ unfailed =>
      exact absurd (pushed gates ▸ failed) (unfailed e)
  | some cell =>
    obtain ⟨_, hγ, ok⟩ := s.regular.orderly.gates η.gate cell hcell
    cases (v.grows.gate hγ).symm.trans hgate'
    obtain ⟨_, hη₀, -⟩ := s.regular.coherent.readiness hγ
    cases (v.grows.handler hη₀).symm.trans hη
    obtain ⟨_, hcell₁, step⟩ := s.regular.gateStep (v.action_ok s) v.occurs.happening hγ hcell
    cases hcell₁.symm.trans hcell'
    obtain before | ⟨waiting, _, rfl⟩ := step.of_failed failed
    · exact .inl ⟨cell, hη₀, rfl, before⟩
    · obtain ⟨told, -⟩ := v.occurs.happening.of_failed hcell waiting hcell₁ failed
      obtain ⟨handler, hhandler⟩ := s.regular.handler_get? hη₀
      obtain ⟨_, -, fit⟩ := s.regular.orderly.handlers h handler hhandler
      rw [told h (ok.watched h rfl waiting) (by simp [hhandler, fit.live])]
      exact .inr (List.mem_singleton.mpr rfl)

end Advance

/-- What has to end with what. -/
structure Collapse (x : Exchange) (L : Ledger) : Prop where
  fastened : Fastened x.world
  client : ∀ k ρ, L.client k = some ρ → x.world.gone (.client k) = true →
    x.Ending (.handler ρ.handler) ∧ x.Ending (.channel ρ.channel)
  handler : ∀ k ρ, L.client k = some ρ → x.world.gone (.handler ρ.handler) = true → x.Ending (.client k)
  guarded : ∀ k ρ, L.client k = some ρ → x.Ending (.client k) ∨
    .guardChannel ρ.channel (.clientHandler k) ∈ x.agenda ∨
    x.world.isOpen ρ.channel = true ∧ ∃ key, (key, .clientHandler k) ∈ x.world.hooksOn ρ.channel
  stranded : x.world.isOpen near = false → ∀ h, x.world.has (.handler h) → x.Ending (.handler h)
  told : ∀ k ρ cell, L.client k = some ρ → x.world.serverHandlers.get? ρ.handler = some cell →
    cell.disposed = false → .clientHandler k ∈ cell.hooks
  failed : ∀ h η gate e, L.handler h = some η → x.world.gates.get? η.gate = some gate →
    gate.core.phase = .failed e → x.Ending (.handler h)

theorem Exchange.Ending.of_mem {more rest : List Action} (ha : a ∈ more)
    (closes : a.closes target) : Exchange.Ending ⟨w', more ++ rest⟩ target :=
  .inr ⟨a, List.mem_append_left _ ha, closes⟩

theorem Steady.has_client (s : Steady ts x L) {ρ : ClientRole} (hρ : L.client k = some ρ) :
    x.world.has (.client k) ∧ x.world.has (.handler ρ.handler) ∧ x.world.has (.channel ρ.channel) := by
  obtain ⟨-, _, hη, -⟩ := s.regular.coherent.client hρ
  exact ⟨s.regular.bounded.client hρ, s.regular.bounded.handler hη, s.regular.bounded.channel hρ⟩

namespace Collapse

theorem opening (serve : Serving) : Collapse (Exchange.opening serve) .blank where
  fastened := .opening serve
  client _ _ hρ := absurd hρ nofun
  handler _ _ hρ := absurd hρ nofun
  guarded _ _ hρ := absurd hρ nofun
  stranded _ _ hh := absurd hh (Nat.not_lt_zero _)
  told _ _ _ hρ := absurd hρ nofun
  failed _ _ _ _ hη := absurd hη nofun

variable (s : Steady ts x L) (c : Collapse x L) (v : Advance ts x m L L' κ w' more rest)
include s c v

theorem step_fastened : Fastened w' := by
  refine c.fastened.step (v.occurs.happening.hookStep s.linked) (fun h cell hcell => ?_)
    (v.near_mono s) fun ho h run => ?_
  · obtain ⟨_, -, ok⟩ := s.regular.orderly.handlers h cell hcell
    exact ok.channel
  · obtain ⟨c, ⟨rfl, -⟩, closed⟩ := v.agenda _ (List.mem_append_left _ run)
    cases ho.symm.trans (v.regular.orderly.isOpen_of_closed (closed Nat.zero_lt_two))

theorem step_guarded {k : Nat} {ρ : ClientRole} (hρ : L'.client k = some ρ) :
    Exchange.Ending ⟨w', more ++ rest⟩ (.client k) ∨
      .guardChannel ρ.channel (.clientHandler k) ∈ more ++ rest ∨
      w'.isOpen ρ.channel = true ∧ ∃ key, (key, .clientHandler k) ∈ w'.hooksOn ρ.channel := by
  have step := v.occurs.happening.hookStep s.linked
  obtain ⟨_, _, _, ⟨hold, -⟩ | ⟨-, guard, -⟩⟩ := v.client_cases s hρ
  · obtain ending | pending | ⟨ho, key, entry⟩ := c.guarded k ρ hold
    · exact .inl (v.ending s (s.has_client hold).1 ending)
    · rw [v.occurs.agenda] at pending
      rcases List.mem_append.mp pending with now | later
      · obtain rfl := Cause.eq_of_mem_consumed now
        obtain ⟨calm, closing, wires⟩ | ⟨_, _, ⟨⟩, -⟩ | ⟨_, _, ⟨⟩, -⟩ | ⟨_, _, ⟨⟩, -⟩ :=
          v.occurs.happening.of_chore rfl
        obtain ⟨ch, hch⟩ := Table.get?_isSome_of_lt (s.has_client hold).2.2
        cases hd : ch.core.disposed with
        | true =>
          refine .inl (.of_mem (a := .runHook (.clientHandler k)) ?_ rfl)
          rw [closing, if_pos (by simp [hch, hd])]
          exact List.mem_singleton.mpr rfl
        | false =>
          have ho : x.world.isOpen ρ.channel = true := isOpen_eq_true.mpr ⟨ch, hch, hd⟩
          have raised : HookStep.Raised x.world w' ρ.channel (.clientHandler k) :=
            .of_modify (congrArg channels wires) (.hooked _)
          exact .inr (.inr ⟨(calm.shape.isOpen _).trans ho, _, (raised.hung ho).1⟩)
      · exact .inr (.inl (List.mem_append_right _ later))
    · rcases v.occurs.happening.run_hooks ho with stays | run
      · rcases c.fastened.kept step entry nofun with kept | run
        · exact .inr (.inr ⟨stays, key, kept⟩)
        · exact .inl (.of_mem run rfl)
      · exact .inl (.of_mem (run _ entry) rfl)
  · exact .inr (.inl (List.mem_append_left _ guard))

theorem step : Collapse ⟨w', more ++ rest⟩ L' := by
  have hooks := v.occurs.happening.hookStep s.linked
  refine ⟨c.step_fastened s v, fun k ρ hρ gone => ?_, fun k ρ hρ gone => ?_,
    fun k ρ hρ => c.step_guarded s v hρ, fun closed h here => ?_, fun k ρ cell hρ hcell hd => ?_,
    fun h η _ e hη hgate failed => ?_⟩
  · obtain ⟨cell', hcell', -, ⟨hold, cell, hcell, -, same | ⟨next, next'⟩⟩ | ⟨undisposed, -⟩⟩ :=
      v.client_cases s hρ
    · have before : x.world.gone (.client k) = true := by
        have hd := of_eq_some (gone_client.mp gone) hcell'
        exact gone_client.mpr ⟨cell, hcell, same.symm.trans hd⟩
      obtain ⟨-, hasHandler, hasChannel⟩ := s.has_client hold
      obtain ⟨handler, channel⟩ := c.client k ρ hold before
      exact ⟨v.ending s hasHandler handler, v.ending s hasChannel channel⟩
    · exact ⟨.of_mem next rfl, .of_mem next' rfl⟩
    · have hd := of_eq_some (gone_client.mp gone) hcell'
      cases undisposed.symm.trans hd
  · obtain ⟨cell', hcell', -, ⟨hold, -⟩ | ⟨-, -, handler, hhandler, -, run⟩⟩ := v.client_cases s hρ
    · obtain ⟨hasClient, hasHandler, -⟩ := s.has_client hold
      obtain before | ⟨cell, hcell, hd, more_eq⟩ := v.handler_cases s hasHandler gone
      · exact v.ending s hasClient (c.handler k ρ hold before)
      · refine .of_mem (a := .runHook (.clientHandler k)) ?_ rfl
        rw [more_eq]
        exact List.mem_map.mpr ⟨_, c.told k ρ cell hold hcell hd, rfl⟩
    · have hd := of_eq_some (gone_handler.mp gone) hhandler
      exact .of_mem (run hd) rfl
  · obtain ⟨cell', hcell'⟩ := Table.get?_isSome_of_lt here
    cases hd : cell'.disposed with
    | true => exact .inl (gone_handler.mpr ⟨cell', hcell', hd⟩)
    | false =>
      obtain ⟨cell, hcell, undisposed, -⟩ | ⟨-, ho, -⟩ := hooks.handlers h cell' hcell' hd
      · cases ho : x.world.isOpen near with
        | false =>
          have before := Table.lt_size_of_get? hcell
          exact v.ending s before (c.stranded ho h before)
        | true =>
          obtain ⟨_, -, entry⟩ := c.fastened.held h cell hcell undisposed ho
          rcases v.occurs.happening.run_hooks ho with stays | run
          · cases stays.symm.trans closed
          · exact .of_mem (run _ entry) rfl
      · cases ho.symm.trans closed
  · obtain ⟨cell', hcell', -, ⟨hold, -⟩ | ⟨-, -, handler, hhandler, told, -⟩⟩ := v.client_cases s hρ
    · obtain ⟨before, hbefore⟩ := Table.get?_isSome_of_lt (s.has_client hold).2.1
      obtain ⟨cell₀, hcell₀, undisposed, -, -, same⟩ | ⟨fresh, -⟩ := hooks.handlers _ cell hcell hd
      · rw [same]
        exact c.told k ρ cell₀ hold hcell₀ undisposed
      · cases fresh.symm.trans hbefore
    · cases hhandler.symm.trans hcell
      exact told hd
  · obtain ⟨cell, hold, hcell, before⟩ | next := v.gate_failed s hη hgate failed
    · exact v.ending s (s.regular.bounded.handler hold) (c.failed h η cell e hold hcell before)
    · exact .of_mem next rfl

end Collapse

end Switchboard
