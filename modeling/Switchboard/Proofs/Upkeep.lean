import Switchboard.Proofs.Orderly

/-!
# Components keep a world orderly

Making, using and closing requesters, receivers, gates and handlers keeps a world orderly. What is made
anew has to be in the ledger beforehand.
-/

namespace Switchboard

open Exchange History

variable {H : History} {L : Ledger} {N : Stock} {w : World}

/-! ## Tickets -/

variable {i p r : Nat} {ℓ : Line} {e : Fault}

/-- What the promise of a request may be kept with when the request is given up. -/
theorem Ledger.Ticket.kept (hL : L.Coherent) (hℓ : L.requester r = some ℓ)
    (h : L.Ticket r ℓ i p) (he : e = .requesterDisposed ℓ.name ∨ e = .channelDisposed) :
    ∀ ρ, L.promise p = some ρ → Kept H L ρ (.error e) := by
  intro ρ hρ
  cases ℓ with
  | client c =>
    cases hρ.symm.trans h
    refine ⟨c, hℓ, ?_⟩
    rcases he with rfl | rfl
    · exact .inl rfl
    · exact .inr (.inl rfl)
  | server =>
    obtain ⟨_, hη, hp⟩ := h
    split at hp
    · next k hk =>
      cases hρ.symm.trans hp
      obtain ⟨ρ', hρ', rfl⟩ := (hL.handler hη).2 k hk
      refine ⟨ρ', hρ', .inl ?_⟩
      rcases he with rfl | rfl
      · exact .inr (.inr (.inr (.inl rfl)))
      · exact .inr (.inr (.inl rfl))
    · cases hρ.symm.trans hp
      trivial

theorem Ledger.Ticket.fallback (hL : L.Coherent) (h : L.Ticket r ℓ i p) :
    ∃ ρ, L.promise p = some ρ ∧ Fallback L ρ (.error (.requesterDisposed ℓ.name)) := by
  cases ℓ with
  | client => exact ⟨_, h, rfl⟩
  | server =>
    obtain ⟨_, hη, hp⟩ := h
    split at hp
    · next k hk =>
      obtain ⟨ρ', hρ', rfl⟩ := (hL.handler hη).2 k hk
      exact ⟨_, hp, ρ', hρ', rfl⟩
    · exact ⟨_, hp, trivial⟩

namespace Orderly

/-! ## Channels -/

variable {c : Nat}

variable (h : Orderly H L N w)
include h

theorem modifyChannel {f : ChannelCore Handler Hook → ChannelCore Handler Hook}
    (ok : ∀ core, ChannelOk L c core → ChannelOk L c (f core))
    (closed : ∀ core, (f core).disposed = core.disposed) : Orderly H L N (w.modifyChannel c f) :=
  { h with
    transport := h.transport.modify fun _ _ ht => ht
    size := by rw [World.modifyChannel, Table.size_modify, h.size]
    channels := h.channels.modify fun ch _ hc => ok ch.core hc
    closed := h.closed.modify fun ch _ hc hn => (closed ch.core).trans (hc hn)
    channelCount := (Table.size_modify ..).symm ▸ h.channelCount }

theorem register {service : String} {handler : Handler}
    (hs : ServiceOk L c service handler) : Orderly H L N (w.register c service handler) := by
  refine h.modifyChannel (fun core hc => ?_) fun core => core.disposed_register service handler
  unfold ChannelCore.register
  split
  · exact hc
  · refine { hc with services := fun e he => ?_ }
    rcases Assoc.eq_or_mem_of_mem_set he with rfl | he
    · exact hs
    · exact hc.services e he

theorem unregister (c : Nat) (service : String) : Orderly H L N (w.unregister c service) :=
  h.modifyChannel
    (fun _ hc => { hc with services := fun e he => hc.services e (Assoc.mem_of_mem_erase he) })
    fun _ => rfl

theorem removeHook (c : Nat) (key : Option Nat) : Orderly H L N (w.removeHook c key) := by
  cases key with
  | none => exact h
  | some k =>
    show Orderly H L N (w.modifyChannel c fun core => core.removeHook k)
    exact h.modifyChannel
      (fun _ hc => { hc with hooks := fun e he => hc.hooks e (Assoc.mem_of_mem_erase he) })
      fun _ => rfl

variable {hook : Hook}

theorem addHook (hh : HookOk L c hook) : Orderly H L N (w.addHook c hook).1 := by
  unfold World.addHook
  split
  · exact h
  · dsimp only
    refine h.modifyChannel (fun core hc => ?_) fun core => core.disposed_addHook hook
    unfold ChannelCore.addHook
    split
    · exact { hc with }
    · refine { hc with hooks := fun e he => ?_ }
      rcases List.mem_append.mp he with he | he
      · exact hc.hooks e he
      · rw [List.mem_singleton.mp he]
        exact hh

theorem closed_of_addHook (hc : (w.addHook c hook).2.2 = true) : L.closed c := by
  unfold World.addHook at hc
  split at hc
  · cases hc
  · next ch hch => exact (h.channels c ch hch).closed hc

theorem send (c : Nat) (service : String) (payload : Json) : Orderly H L N (w.send c service payload).1 := by
  unfold World.send
  split
  · exact h
  · split
    · exact h
    · split
      · exact h
      · exact { h with }
      · exact (h.modifyPair fun q => q.ends_enqueue _ _).wake _
      · split
        · exact h
        · refine Orderly.wake ?_ _
          exact { h with }

/-! ## Requesters -/

variable {r : Nat}

theorem modifyRequester {f : RequesterCell → RequesterCell}
    (hf : ∀ cell, w.requesters.get? r = some cell → RequesterOk L r cell → RequesterOk L r (f cell)) :
    Orderly H L N { w with requesters := w.requesters.modify r f } :=
  { h with
    requesters := h.requesters.modify hf
    requesterCount := (Table.size_modify ..).symm ▸ h.requesterCount }

theorem disposeRequester (hL : L.Coherent) (r : Nat) : Orderly H L N (w.disposeRequester r) := by
  unfold World.disposeRequester
  split
  · exact h
  · next cell hcell =>
    split
    · exact h
    · next _ _ hd =>
      unfold Requester.dispose at hd
      split at hd
      · cases hd
      · obtain ⟨rfl, rfl⟩ := Prod.mk.inj (Option.some.inj hd)
        obtain ⟨ℓ, hℓ, hr⟩ := h.requesters r cell hcell
        refine Orderly.resolveAll (((h.modifyRequester ?_).unregister _ _).removeHook _ _) ?_
        · intro _ hcell' _
          cases hcell.symm.trans hcell'
          exact ⟨ℓ, hℓ, { hr with pending := nofun }⟩
        · intro _ hp
          obtain ⟨e, he, rfl⟩ := List.mem_map.mp hp
          refine (hr.pending e he).2.kept hL hℓ (.inl ?_)
          rw [← hr.name]
          rfl

theorem releaseRequester (hL : L.Coherent) (r : Nat) : Orderly H L N (w.releaseRequester r) := by
  unfold World.releaseRequester
  split
  · exact h
  · next cell hcell =>
    obtain ⟨ℓ, _, hr⟩ := h.requesters r cell hcell
    refine (h.modifyRequester ?_).breakPromises hL ?_
    · rintro _ - ⟨ℓ', hℓ', hr'⟩
      exact ⟨ℓ', hℓ', { hr' with pending := nofun }⟩
    · intro _ hp _ _ hk
      obtain ⟨e, he, rfl⟩ := List.mem_map.mp hp
      have ht := (hr.pending e he).2
      cases ℓ with
      | client => cases hk.symm.trans ht
      | server =>
        obtain ⟨_, -, hp⟩ := ht
        split at hp
        · cases hk.symm.trans hp
        · cases hk.symm.trans hp

theorem newRequester (hL : L.Coherent) {ℓ : Line} {p : Policy}
    (hℓ : L.requester w.requesters.size = some ℓ) (hp : ∀ h, ℓ = .server h → p = .abort) :
    Orderly H L { N with requesters := w.requesters.size + 1 } (w.newRequester ℓ.name ℓ.channel p).1 := by
  unfold World.newRequester
  let cell : RequesterCell :=
    { core := { name := ℓ.name }, channel := ℓ.channel, policy := p }
  have made : Orderly H L { N with requesters := w.requesters.size + 1 }
      { w with requesters := w.requesters.push cell } :=
    { h with
      requesters := h.requesters.push ⟨ℓ, hℓ, rfl, rfl, hp, nofun⟩
      requesterCount := by simp }
  have served := made.register (show ServiceOk L ℓ.channel _ (.responses w.requesters.size) from
    ⟨ℓ, hℓ, rfl, rfl⟩)
  have hooked := served.addHook (show HookOk L ℓ.channel (.requester w.requesters.size) from
    ⟨ℓ, hℓ, rfl⟩)
  dsimp only
  split
  · exact hooked.disposeRequester hL _
  · refine hooked.modifyRequester fun cell _ ⟨ℓ', hℓ', hr⟩ => ⟨ℓ', hℓ', { hr with }⟩

theorem post (hL : L.Coherent) {payload : Json}
    (hopen : ∀ cell ℓ, w.requesters.get? r = some cell → L.requester r = some ℓ →
      w.isOpen ℓ.channel = true → L.Ticket r ℓ cell.core.nextId w.promises.size)
    (hclosed : ∀ cell ℓ, w.requesters.get? r = some cell → L.requester r = some ℓ →
      w.isOpen ℓ.channel = false → ∃ ρ, L.promise w.promises.size = some ρ ∧
        Fallback L ρ (.error (.requesterDisposed ℓ.name)) ∧ Kept H L ρ (.error .channelDisposed)) :
    Orderly H L N (w.post r payload).1 := by
  obtain ⟨-, heq⟩ | ⟨cell, hcell, ⟨-, heq⟩ | ⟨-, ho, q, heq⟩ | ⟨-, ho, _, q, ht, heq⟩⟩ :=
    World.post_cases h.wired r payload
  · rw [heq]
    exact h
  · rw [heq]
    exact h
  all_goals
    obtain ⟨ℓ, hℓ, hr⟩ := h.requesters r cell hcell
    have gaveUp : cell.core.gaveUp = .requesterDisposed ℓ.name := by
      rw [← hr.name]
      rfl
    rw [hr.channel] at ho
    rw [heq]
  · have ticket := hopen cell ℓ hcell hℓ ho
    obtain ⟨ρ, hρ, hf⟩ := ticket.fallback hL
    refine Orderly.requeue (Orderly.emit ((h.promise hρ (gaveUp ▸ hf)).modifyRequester ?_) _ _) q
    intro cell' hcell' _
    cases hcell.symm.trans hcell'
    refine ⟨ℓ, hℓ, { hr with pending := fun e he => ?_ }⟩
    rcases List.mem_append.mp he with he | he
    · exact ⟨Nat.lt_succ_of_lt (hr.pending e he).1, (hr.pending e he).2⟩
    · rw [List.mem_singleton.mp he]
      exact ⟨Nat.lt_succ_self _, ticket⟩
  · obtain ⟨ρ, hρ, hf, hk⟩ := hclosed cell ℓ hcell hℓ ho
    have new : ∀ e ∈ (cell.core.posted w.promises.size).pending, e.1 = cell.core.nextId →
        e.2 = w.promises.size := by
      intro e he hid
      rcases List.mem_append.mp he with he | he
      · exact absurd hid (Nat.ne_of_lt (hr.pending e he).1)
      · rw [List.mem_singleton.mp he]
    obtain rfl := new _ ht rfl
    have made := h.promise hρ (gaveUp ▸ hf)
    refine (made.modifyRequester (r := r) ?_).withPromises (Table.All.modify made.promises ?_)
      (Table.size_modify ..) q
    · intro cell' hcell' _
      cases hcell.symm.trans hcell'
      refine ⟨ℓ, hℓ, { hr with pending := fun e he => ?_ }⟩
      obtain ⟨he, hid⟩ := List.mem_filter.mp he
      rcases List.mem_append.mp he with he | he
      · exact ⟨Nat.lt_succ_of_lt (hr.pending e he).1, (hr.pending e he).2⟩
      · rw [List.mem_singleton.mp he] at hid
        simp at hid
    · rintro _ - ⟨_, hρ', hc⟩
      cases hρ.symm.trans hρ'
      exact ⟨ρ, hρ, hc.keep hk⟩

/-! ## Receivers and the tracker -/

theorem newReceiver {ω : Window} {policy : Policy}
    {provider : Service.Provider} (hω : L.receiver w.receivers.size = some ω) (hc : L.WindowAt ω c)
    (served : ∀ name, Served ω { name := name, channel := c, policy := policy, provider := provider }) :
    Orderly H L { N with receivers := w.receivers.size + 1 } (w.newReceiver ω.name c policy provider).1 := by
  let cell : ReceiverCell := { name := ω.name, channel := c, policy := policy, provider := provider }
  have made : Orderly H L { N with receivers := w.receivers.size + 1 }
      { w with receivers := w.receivers.push cell } :=
    { h with
      receivers := h.receivers.push ⟨ω, hω, hc, rfl, served _⟩
      receiverCount := by simp }
  exact made.register ⟨ω, hω, hc, rfl⟩

theorem releaseReceiver (v : Nat) : Orderly H L N (w.releaseReceiver v) := by
  unfold World.releaseReceiver
  split
  · exact h
  · have off : Orderly H L N
        { w with receivers := w.receivers.modify v fun c => { c with live := false } } :=
      { h with
        receivers := h.receivers.modify fun _ _ ⟨ω, hω, hc, hn, hs⟩ =>
          ⟨ω, hω, hc, hn, by cases ω <;> exact hs⟩
        receiverCount := (Table.size_modify ..).symm ▸ h.receiverCount }
    split
    · exact off.unregister _ _
    · exact off

theorem settleTracker (t : Nat) {state : Readiness}
    (hs : ∀ e, state = .failed e → ∃ reason, e = .notReady reason) :
    Orderly H L N (w.settleTracker t state) := by
  refine Orderly.wake ?_ _
  refine { h with
    trackers := h.trackers.modify fun cell _ ht => ?_
    ready := h.ready.modify fun cell _ ht hr => ?_
    trackerCount := (Table.size_modify ..).symm ▸ h.trackerCount }
  · intro e he
    cases hstate : cell.state with
    | pending => exact hs e (by simpa [Readiness.settle, hstate] using he)
    | ready => simp [Readiness.settle, hstate] at he
    | failed => exact ht e (by simpa [Readiness.settle, hstate] using he)
  · simp [Readiness.settle, ht hr]

end Orderly

/-! ## Gates -/

variable {γ : GateRole} {job : Job} {t : Nat}

/-- A job that a shut gate turns away is told why. -/
theorem JobAt.kept_refused (hL : L.Coherent) (hj : JobAt H L γ job t) (hp : PhaseAt H L γ (.failed e)) :
    ∀ ρ, L.promise t = some ρ → Kept H L ρ (.error e) := by
  intro ρ hρ
  cases γ with
  | permission =>
    obtain ⟨ρ', _, n, _, hk, -, ht, -⟩ := hj
    cases hρ.symm.trans ht
    exact ⟨ρ', hk, .inl ⟨e, hp, rfl⟩⟩
  | readiness =>
    obtain ⟨_, _, -, -, ht⟩ := hj
    split at ht
    · obtain ⟨-, n, _, ht, -⟩ := ht
      cases hρ.symm.trans ht
      exact (hL.entry ht).imp fun ρ' hk => ⟨hk, .inl (.inr (.inr (.inr (.inr hp))))⟩
    · cases hρ.symm.trans ht
      trivial

/-- A job is dropped at the permission gate only if its client is leaving. -/
theorem JobAt.leaving (hj : JobAt H L γ job t)
    (hp : PhaseAt H L γ .disposed) : ∀ k n, L.promise t = some (.job k n) → L.leaving k := by
  intro k n hk
  cases γ with
  | permission =>
    obtain ⟨_, _, _, _, -, -, ht, -⟩ := hj
    cases hk.symm.trans ht
    exact hp
  | readiness =>
    obtain ⟨_, _, -, -, ht⟩ := hj
    split at ht
    · obtain ⟨-, n, _, ht, -⟩ := ht
      cases hk.symm.trans ht
    · cases hk.symm.trans ht

namespace Orderly

variable {g : Nat}

variable (h : Orderly H L N w)
include h

theorem modifyGate {cell : GateCell} {f : GateCell → GateCell} (hcell : w.gates.get? g = some cell)
    (ok : GateOk H L g (f cell)) (hs : cell.core.phase = .disposed → (f cell).core.phase = .disposed) :
    Orderly H L N { w with gates := w.gates.modify g f } :=
  { h with
    gates := h.gates.modify fun _ hc _ => Option.some.inj (hcell.symm.trans hc) ▸ ok
    shut := h.shut.modify fun _ hc held k hk hl => by
      cases hcell.symm.trans hc
      exact hs (held k hk hl)
    gateCount := (Table.size_modify ..).symm ▸ h.gateCount }

variable {h' : Nat} {η : HandlerRole}

/-- Make the gate of a server handler. -/
theorem newGate (hg : L.gate w.gates.size = some (.readiness h')) (hη : L.handler h' = some η) :
    Orderly H L { N with gates := w.gates.size + 1 }
      (w.newGate (.readiness η.source) (some (.serverHandler h')) none).1 := by
  refine Orderly.spawn (t := .await (.readiness η.source) (.gate w.gates.size)) ?_
    ⟨_, hg, η, hη, rfl⟩
  exact { h with
    gates := h.gates.push ⟨_, hg, rfl, trivial, nofun, fun _ hj => ⟨h', rfl, (Option.some.inj hj).symm⟩,
      fun _ same _ => by rw [GateRole.readiness.inj same]⟩
    shut := h.shut.push fun _ hk _ => absurd (hg.symm.trans hk) nofun
    gateCount := by simp }

/-- Close the gate of a server handler. -/
theorem disposeGate (hL : L.Coherent)
    (hg : L.gate g = some (.readiness h')) : Orderly H L N (w.disposeGate g) := by
  unfold World.disposeGate
  split
  · exact h
  · next cell hcell =>
    split
    · exact h
    · next _ _ hd =>
      unfold Deferred.dispose? at hd
      split at hd
      · cases hd
      · obtain ⟨rfl, rfl⟩ := Prod.mk.inj (Option.some.inj hd)
        have ok := of_eq_some (h.gates g cell hcell) hg
        refine (h.modifyGate hcell ?_ fun _ => rfl).breakPromises hL fun _ hp => ?_
        · exact ⟨_, hg, ok.live, trivial, nofun, nofun, nofun⟩
        · obtain ⟨e, he, rfl⟩ := List.mem_map.mp hp
          exact (ok.queue e he).leaving trivial

theorem addJob (hL : L.Coherent) {t : Nat} {job : Job} {γ : GateRole}
    (hg : L.gate g = some γ) (size : g < w.gates.size) (hj : JobAt H L γ job t) :
    Orderly H L N (w.addJob g job t).1 ∧ AgendaOk H L (w.addJob g job t).2 := by
  obtain ⟨cell, hcell⟩ := Table.get?_isSome_of_lt size
  have ok := of_eq_some (h.gates g cell hcell) hg
  have queued : Orderly H L N (w.setGate g (cell.core.queued job t)) := by
    refine h.modifyGate hcell ⟨γ, hg, { ok with queue := fun e he => ?_ }⟩ id
    rcases List.mem_append.mp he with he | he
    · exact ok.queue e he
    · rw [List.mem_singleton.mp he]
      exact hj
  have phase := ok.phase
  rw [World.addJob_eq hcell]
  split
  · next e hp => exact ⟨h.resolve (hj.kept_refused hL (hp ▸ phase)), .nil⟩
  · next hp => exact ⟨h.breakPromise hL (hj.leaving (hp ▸ phase)), .nil⟩
  · exact ⟨queued, .nil⟩
  · exact ⟨queued, .single trivial⟩

/-! ## Server handlers -/

theorem modifyHandler {f : ServerHandlerCell → ServerHandlerCell}
    (hf : ∀ cell η, w.serverHandlers.get? h' = some cell → L.handler h' = some η →
      HandlerAt L h' η cell → HandlerAt L h' η (f cell)) :
    Orderly H L N { w with serverHandlers := w.serverHandlers.modify h' f } :=
  { h with
    handlers := h.handlers.modify fun cell hcell ⟨η, hη, hh⟩ => ⟨η, hη, hf cell η hcell hη hh⟩
    handlerCount := (Table.size_modify ..).symm ▸ h.handlerCount }

def HandlerHooks (L : Ledger) (hooks : List Hook) : Prop :=
  ∀ hook ∈ hooks, ∃ k ρ, hook = .clientHandler k ∧ L.client k = some ρ

theorem disposeServerHandler (hL : L.Coherent) (h' : Nat) :
    Orderly H L N (w.disposeServerHandler h').1 ∧ HandlerHooks L (w.disposeServerHandler h').2 := by
  unfold World.disposeServerHandler
  split
  · exact ⟨h, nofun⟩
  · next cell hcell =>
    split
    · exact ⟨h, nofun⟩
    · obtain ⟨_, hη, ok⟩ := h.handlers h' cell hcell
      have hooks : HandlerHooks L cell.hooks := by
        intro hook hh
        obtain ⟨k, rfl, hk⟩ := ok.hooks hook hh
        obtain ⟨ρ, hρ, -⟩ := (hL.handler hη).2 k hk
        exact ⟨k, ρ, rfl, hρ⟩
      refine ⟨?_, hooks⟩
      have off : Orderly H L N { w with serverHandlers := w.serverHandlers.modify h' fun c =>
          { c with disposed := true, requester := none, hooks := [], hook := none } } :=
        h.modifyHandler fun _ _ _ _ ok' => { ok' with hooks := nofun, requester := nofun }
      have shut := (off.removeHook cell.channel cell.hook).disposeGate hL
        (ok.gate ▸ (hL.handler hη).1 : L.gate cell.gate = some (.readiness h'))
      dsimp only
      split
      · exact shut
      · refine Orderly.releaseRequester (Orderly.disposeRequester ?_ hL _) hL _
        split
        · exact shut.send _ _ _
        · exact shut

theorem newServerHandler (hL : L.Coherent)
    (hη : L.handler w.serverHandlers.size = some η) (hg : η.gate = w.gates.size) (name : String) :
    Orderly H L { N with gates := w.gates.size + 1, handlers := w.serverHandlers.size + 1 }
      (w.newServerHandler near η.source name).1 := by
  have hgate := (hL.handler hη).1
  rw [hg] at hgate
  have gated := h.newGate hgate hη
  let cell : ServerHandlerCell :=
    { id := w.serverHandlers.size, clientName := name, channel := near, gate := w.gates.size }
  let w₁ := (w.newGate (.readiness η.source) (some (.serverHandler w.serverHandlers.size)) none).1
  have made : Orderly H L { N with gates := w.gates.size + 1, handlers := w.serverHandlers.size + 1 }
      { w₁ with serverHandlers := w.serverHandlers.push cell } :=
    { gated with
      handlers := h.handlers.push ⟨η, hη, rfl, rfl, hg.symm, rfl, nofun, nofun, nofun⟩
      handlerCount := by simp }
  have hooked := made.addHook (show HookOk L near (.serverHandler w.serverHandlers.size) from
    ⟨rfl, η, hη⟩)
  unfold World.newServerHandler
  dsimp only
  split
  · next hclosed =>
    refine (Orderly.disposeServerHandler (Orderly.modifyHandler hooked ?_) hL _).1
    exact fun _ _ _ _ ok => { ok with gone := fun _ => made.closed_of_addHook hclosed }
  · exact hooked.modifyHandler fun _ _ _ _ ok => { ok with }

end Orderly

end Switchboard
