import Switchboard.Proofs.Upkeep

/-!
# Actions keep a world orderly

Carrying out one action of an orderly world gives an orderly world, for a ledger that may have grown,
and further actions that fit it.
-/

namespace Switchboard

open World

open Exchange History

variable {H : History} {L L' : Ledger} {N N' : Stock} {w w' : World}

/-! ## Regular worlds -/

structure Stock.Le (N N' : Stock) : Prop where
  promises : N.promises ≤ N'.promises
  gates : N.gates ≤ N'.gates
  requesters : N.requesters ≤ N'.requesters
  receivers : N.receivers ≤ N'.receivers
  handlers : N.handlers ≤ N'.handlers
  clients : N.clients ≤ N'.clients
  trackers : N.trackers ≤ N'.trackers
  channels : N.channels ≤ N'.channels

theorem Orderly.stock_le (h : Orderly H L N w) : N.Le w.stock :=
  ⟨h.promiseCount, h.gateCount, h.requesterCount, h.receiverCount, h.handlerCount, h.clientCount,
    h.trackerCount, h.channelCount⟩

theorem Orderly.restock (h : Orderly H L N w) (le : N'.Le w.stock) : Orderly H L N' w :=
  { h with
    promiseCount := le.promises
    gateCount := le.gates
    requesterCount := le.requesters
    receiverCount := le.receivers
    handlerCount := le.handlers
    clientCount := le.clients
    trackerCount := le.trackers
    channelCount := le.channels }

theorem Stock.Le.refl (N : Stock) : N.Le N := by constructor <;> exact Nat.le_refl _

theorem Ledger.Bounded.mono (h : L.Bounded N) (le : N.Le N') : L.Bounded N' where
  promise hρ := Nat.lt_of_lt_of_le (h.promise hρ) le.promises
  gate hρ := Nat.lt_of_lt_of_le (h.gate hρ) le.gates
  requester hρ := Nat.lt_of_lt_of_le (h.requester hρ) le.requesters
  receiver hρ := Nat.lt_of_lt_of_le (h.receiver hρ) le.receivers
  handler hρ := Nat.lt_of_lt_of_le (h.handler hρ) le.handlers
  client hρ := Nat.lt_of_lt_of_le (h.client hρ) le.clients
  ready hρ := Nat.lt_of_lt_of_le (h.ready hρ) le.trackers
  channel hρ := Nat.lt_of_lt_of_le (h.channel hρ) le.channels
  doomed hρ := Nat.lt_of_lt_of_le (h.doomed hρ) le.channels
  closed hρ := Nat.lt_of_lt_of_le (h.closed hρ) le.channels
  leaving hρ := Nat.lt_of_lt_of_le (h.leaving hρ) le.clients

/-- An orderly world with a ledger that agrees with itself and has no entries for what does not exist. -/
structure Regular (H : History) (L : Ledger) (w : World) : Prop where
  orderly : Orderly H L w.stock w
  coherent : L.Coherent
  bounded : L.Bounded w.stock

theorem Orderly.regular (h : Orderly H L N w) (hL : L.Coherent) (hN : L.Bounded N) : Regular H L w :=
  ⟨h.restock (Stock.Le.refl _), hL, hN.mono h.stock_le⟩

/-! ## How the ledger grows -/

/-- A promise for a job is entered when the request arrives, one for an entry when its job is let
through, and a channel is doomed when its closing is put on the agenda. -/
structure Ledger.Grows (H : History) (cause : Option Role) (more : List Action) (L L' : Ledger) :
    Prop extends L.Extends L' where
  newJob : ∀ {p k n}, L'.promise p = some (.job k n) →
    L.promise p = some (.job k n) ∨ n + 1 = (H.arrivals k).length
  newEntry : ∀ {p k n}, L'.promise p = some (.entry k n) →
    L.promise p = some (.entry k n) ∨ cause = some (.job k n)
  newDoom : ∀ {c}, L'.doomed c → L.doomed c ∨ .closeChannel c ∈ more

theorem Ledger.Grows.refl (H : History) (cause : Option Role) (more : List Action) (L : Ledger) :
    L.Grows H cause more L :=
  { Ledger.Extends.refl L with newJob := .inl, newEntry := .inl, newDoom := .inl }

variable {more : List Action}

theorem Ledger.Grows.trans {cause : Option Role} {L'' : Ledger}
    (h : L.Grows H cause more L') (h' : L'.Grows H cause more L'') : L.Grows H cause more L'' :=
  { h.toExtends.trans h'.toExtends with
    newJob := fun hp => (h'.newJob hp).elim h.newJob .inr
    newEntry := fun hp => (h'.newEntry hp).elim h.newEntry .inr
    newDoom := fun hc => (h'.newDoom hc).elim h.newDoom .inr }

theorem Ledger.Grows.weaken {cause : Option Role} {more' : List Action}
    (h : L.Grows H cause more L') (sub : ∀ a ∈ more, a ∈ more') : L.Grows H cause more' L' :=
  { h with newDoom := fun hc => (h.newDoom hc).imp_right (sub _) }

theorem Ledger.Grows.of_nil {cause : Option Role} (h : L.Grows H cause [] L') (more : List Action) :
    L.Grows H cause more L' :=
  h.weaken fun _ hn => absurd hn List.not_mem_nil

def Sustained (H : History) (cause : Option Role) (L : Ledger) (result : World × List Action) : Prop :=
  ∃ L', L.Grows H cause result.2 L' ∧ Regular H L' result.1 ∧ AgendaOk H L' result.2

theorem Regular.sustained (h : Regular H L w) {cause : Option Role} {result : World × List Action}
    (h' : Orderly H L w.stock result.1) (ha : AgendaOk H L result.2) : Sustained H cause L result :=
  ⟨L, .refl .., h'.regular h.coherent h.bounded, ha⟩

theorem Regular.unchanged (h : Regular H L w) {cause : Option Role} : Sustained H cause L (w, []) :=
  h.sustained h.orderly .nil

/-! ## New promises -/

def RoleOk (L : Ledger) : Role → Prop
  | .reply r _ => ∃ c, L.requester r = some (.client c)
  | .job k _ => ∃ ρ, L.client k = some ρ
  | .entry k _ => ∃ ρ, L.client k = some ρ
  | _ => True

variable {ρ : Role}

theorem RoleOk.mono (ext : L.Extends L') (h : RoleOk L ρ) : RoleOk L' ρ := by
  cases ρ with
  | free | call => trivial
  | reply => exact h.imp fun _ hc => ext.requester hc
  | job | entry => exact h.imp fun _ hc => ext.client hc

def Ledger.promised (L : Ledger) (p : Nat) (ρ : Role) : Ledger :=
  { L with promise := Ledger.put L.promise p ρ }

theorem Ledger.promise_promised (L : Ledger) (p : Nat) (ρ : Role) :
    (L.promised p ρ).promise p = some ρ := Ledger.put_self ..

variable {p : Nat}

theorem Ledger.Extends.promised (fresh : L.promise p = none) (ρ : Role) :
    L.Extends (L.promised p ρ) :=
  { Ledger.Extends.refl L with promise := Ledger.put_of_some fresh }

theorem Ledger.Coherent.promised (hL : L.Coherent) (p : Nat) (hρ : RoleOk L ρ) :
    (L.promised p ρ).Coherent := by
  have new : ∀ {p' ρ'}, (L.promised p ρ).promise p' = some ρ' → ρ' = ρ ∨ L.promise p' = some ρ' := by
    intro p' ρ' h
    rcases Ledger.put_eq_some.mp h with ⟨-, rfl⟩ | ⟨-, h⟩
    · exact .inl rfl
    · exact .inr h
  exact { hL with
    reply := fun h => (new h).elim (fun heq => by subst heq; exact hρ) hL.reply
    job := fun h => (new h).elim (fun heq => by subst heq; exact hρ) hL.job
    entry := fun h => (new h).elim (fun heq => by subst heq; exact hρ) hL.entry }

theorem Ledger.Bounded.promised (h : L.Bounded N) (hp : p < N.promises) (ρ : Role) :
    (L.promised p ρ).Bounded N :=
  { h with promise := fun h' => (Ledger.put_eq_some.mp h').elim (fun e => e.1 ▸ hp) fun e => h.promise e.2 }

theorem Orderly.promised (h : Orderly H L N w) (fresh : L.promise p = none) (ρ : Role) :
    Orderly H (L.promised p ρ) N w :=
  h.mono (.refl H) (.promised fresh ρ) h.closed h.ready h.left h.held h.shut

/-- A promise that no job or entry waits for may be entered at any time. -/
theorem Ledger.Grows.promised (fresh : L.promise p = none) (cause : Option Role)
    (more : List Action) (hj : ∀ k n, ρ = .job k n → n + 1 = (H.arrivals k).length)
    (he : ∀ k n, ρ = .entry k n → cause = some (.job k n)) : L.Grows H cause more (L.promised p ρ) :=
  { Ledger.Extends.promised fresh ρ with
    newJob := fun {_ k n} h => (Ledger.put_eq_some.mp h).elim (fun e => .inr (hj k n e.2)) fun e => .inl e.2
    newEntry := fun {_ k n} h =>
      (Ledger.put_eq_some.mp h).elim (fun e => .inr (he k n e.2)) fun e => .inl e.2
    newDoom := .inl }

theorem Regular.fresh_promise (h : Regular H L w) : L.promise w.promises.size = none :=
  Ledger.fresh h.bounded.promise

/-- Make a promise and enter it. -/
theorem Regular.promise (h : Regular H L w) {o : Outcome} (hρ : RoleOk L ρ)
    (ho : Fallback L ρ o) : Regular H (L.promised w.promises.size ρ) (w.promise o) := by
  have ext := Ledger.Extends.promised h.fresh_promise ρ
  have made := (h.orderly.promised h.fresh_promise ρ).promise (L.promise_promised _ ρ) (ho.mono ext)
  refine ⟨made.restock (Stock.Le.refl _), h.coherent.promised _ hρ, ?_⟩
  refine (h.bounded.mono made.stock_le).promised ?_ ρ
  simp [World.stock, World.promise]

/-! ## Responses -/

theorem Ledger.Ticket.kept_response (hL : L.Coherent) {r : Nat} {ℓ : Line} {v : Json} {m : Response}
    (hℓ : L.requester r = some ℓ) (ht : L.Ticket r ℓ m.id p) (hm : Response.ofJson? v = some m)
    (hs : H.sent (peer ℓ.channel) (Service.response ℓ.name, v)) :
    ∀ ρ, L.promise p = some ρ → Kept H L ρ (Requester.outcomeOf m) := by
  intro ρ hρ
  cases ℓ with
  | client c =>
    cases hρ.symm.trans ht
    exact ⟨c, hℓ, .inr (.inr ⟨v, m, hs, hm, rfl, rfl⟩)⟩
  | server =>
    obtain ⟨_, hη, hp⟩ := ht
    split at hp
    · next k hk =>
      cases hρ.symm.trans hp
      obtain ⟨ρ', hρ', rfl⟩ := (hL.handler hη).2 k hk
      refine ⟨ρ', hρ', ?_⟩
      obtain ⟨_, outcome⟩ := m
      cases outcome with
      | ok => exact ⟨v, hs, hm⟩
      | error text => exact .inr ⟨text, rfl, v, hs, hm⟩
    · cases hρ.symm.trans hp
      trivial

theorem Regular.onResponse (h : Regular H L w) {r : Nat} {v : Json}
    (hs : ∀ ℓ, L.requester r = some ℓ → H.sent (peer ℓ.channel) (Service.response ℓ.name, v)) :
    Sustained H none L (w.onResponse r v) := by
  obtain ⟨-, heq⟩ | ⟨cell, hcell, -, ⟨-, _, _, heq⟩ | ⟨m, hm, hrest⟩⟩ := onResponse_cases w r v
  · exact heq ▸ h.unchanged
  · exact heq ▸ h.sustained h.orderly (.single trivial)
  · obtain ⟨-, heq⟩ | ⟨-, -, _, _, heq⟩ | ⟨-, _, q, ht, heq⟩ := hrest
    · exact heq ▸ h.unchanged
    · exact heq ▸ h.sustained h.orderly (.single trivial)
    · obtain ⟨ℓ, hℓ, hr⟩ := h.orderly.requesters r cell hcell
      have answered := (hr.pending _ (Assoc.mem_of_lookup ht)).2
      have forgot : Orderly H L w.stock (w.setCore r (forget cell.core m.id)) := by
        refine h.orderly.modifyRequester fun _ hcell' _ => ?_
        cases hcell.symm.trans hcell'
        exact ⟨ℓ, hℓ, { hr with pending := fun e he => hr.pending e (Assoc.mem_of_mem_erase he) }⟩
      refine heq ▸ h.sustained ((forgot.withPromises ?_ (Table.size_modify ..) q)) .nil
      refine Table.All.modify forgot.promises ?_
      exact fun _ _ ⟨ρ, hρ, hc⟩ =>
        ⟨ρ, hρ, hc.keep (answered.kept_response h.coherent hℓ hm (hs ℓ hℓ) ρ hρ)⟩

/-! ## Closing -/

theorem Orderly.abort (h : Orderly H L N w) (scope detail : String) :
    Orderly H L N (w.abort scope detail) := by
  unfold World.abort
  split
  · exact h
  · exact { h with }

theorem Orderly.clearRegistry (h : Orderly H L N w) (g : Nat) : Orderly H L N (w.clearRegistry g) := by
  unfold World.clearRegistry
  split
  · exact h
  · next cell _ =>
    have cleared : Orderly H L N
        { w with registries := w.registries.modify g fun c => { c with entries := [] } } :=
      { h with registries := h.registries.modify fun _ _ ok => { ok with entries := nofun } }
    generalize cell.entries = entries
    revert cleared
    generalize ({ w with registries := w.registries.modify g fun c => { c with entries := [] } } : World)
      = w'
    intro cleared
    induction entries generalizing w' with
    | nil => exact cleared
    | cons e _ ih => exact ih _ (cleared.releaseReceiver e.2)

theorem Regular.runHook (h : Regular H L w) {hook : Hook} (hh : ActionOk H L (.runHook hook)) :
    Sustained H none L (w.runHook hook) := by
  obtain ⟨_, hc, hclosed⟩ := hh
  unfold World.runHook
  cases hook with
  | requester r =>
    dsimp only
    split
    · exact h.sustained (h.orderly.disposeRequester h.coherent r) .nil
    · exact h.unchanged
  | tracker t =>
    dsimp only
    split
    · refine h.sustained (h.orderly.settleTracker t fun _ he => ?_) .nil
      simp only [Readiness.channelLost, Readiness.failed.injEq] at he
      exact ⟨_, he.symm⟩
    · exact h.unchanged
  | serverHandler =>
    dsimp only
    split
    · refine h.sustained (h.orderly.modifyHandler ?_) (.single trivial)
      obtain ⟨rfl, -⟩ := hc
      exact fun _ _ _ _ ok => { ok with gone := fun _ => hclosed (by decide) }
    · exact h.unchanged
  | clientHandler =>
    refine h.sustained h.orderly ?_
    dsimp only
    split
    · exact .single trivial
    · exact .nil
  | registry g =>
    dsimp only
    split
    · exact h.sustained (h.orderly.clearRegistry g) .nil
    · exact h.unchanged
  | observer =>
    obtain ⟨rfl, -⟩ := hc
    exact h.sustained { h.orderly with } .nil
  | pinger | clientTable => exact absurd hc id

theorem Regular.closeServerHandler (h : Regular H L w) (h' : Nat) :
    Sustained H none L ((w.disposeServerHandler h').1, (w.disposeServerHandler h').2.map .runHook) := by
  obtain ⟨ok, hooks⟩ := h.orderly.disposeServerHandler h.coherent h'
  refine h.sustained ok (.map fun hook hh => ?_)
  obtain ⟨_, ρ, rfl, hρ⟩ := hooks hook hh
  refine ⟨ρ.channel, ⟨ρ, hρ, rfl⟩, fun hn => ?_⟩
  exact absurd hn (Nat.not_lt.mpr (two_le_of_isHandlerEnd (h.coherent.client hρ).1))

theorem Regular.closeChannel (h : Regular H L w) (c : Nat) :
    Sustained H none L (w.closeChannel c) := by
  unfold World.closeChannel
  split
  · exact h.unchanged
  · next ch hch =>
    rw [h.orderly.transport c ch hch]
    dsimp only
    split
    · exact h.unchanged
    · refine h.sustained ?_ (.cons trivial (.single trivial))
      exact (h.orderly.modifyPair (f := fun q => { q with cancelled := true })
        fun q => ⟨rfl, rfl⟩).wake _

def Ledger.closing (L : Ledger) (c : Nat) : Ledger :=
  { L with closed := fun c' => L.closed c' ∨ c' = c }

theorem Ledger.Grows.closing (L : Ledger) (c : Nat) (cause : Option Role) (more : List Action) :
    L.Grows H cause more (L.closing c) :=
  { Ledger.Grows.refl H cause more L with closed := .inl }

section

variable (h : Regular H L w)
include h

theorem Regular.closeCore (c : Nat) : Sustained H none L (w.closeCore c) := by
  unfold World.closeCore
  split
  · exact h.unchanged
  · next _ hooks hc =>
    obtain ⟨ch, hch, hd⟩ := Option.bind_eq_some_iff.mp hc
    unfold ChannelCore.dispose at hd
    split at hd
    · cases hd
    · obtain ⟨rfl, rfl⟩ := Prod.mk.inj (Option.some.inj hd)
      have ext : L.Extends (L.closing c) := (Ledger.Grows.closing (H := H) L c none []).toExtends
      have refl := Extends.refl H
      have closed : Orderly H (L.closing c) w.stock
          (w.modifyChannel c fun _ => { ch.core with disposed := true, services := [], hooks := [] }) := by
        refine h.orderly.revise ext (h.orderly.transport.modify fun _ _ ht => ht) ?_
          (h.orderly.gates.imp fun _ _ hc => hc.mono refl ext)
          (h.orderly.clients.imp fun _ _ hc => hc.mono ext)
          (h.orderly.promises.imp fun _ _ hc => hc.mono refl ext)
          (h.orderly.tasks.imp fun _ _ hc => hc.mono refl ext)
          ?_ h.orderly.ready h.orderly.left h.orderly.held h.orderly.shut
          (Nat.le_refl _) (Nat.le_refl _) (Nat.le_refl _) (Table.size_modify ..)
        · refine Table.All.modify (h.orderly.channels.imp fun _ _ hc => hc.mono ext) ?_
          exact fun _ _ _ => ⟨nofun, nofun, fun _ => .inr rfl⟩
        · intro _ _ hd hclosed
          rw [Table.get?_modify] at hd
          grind [h.orderly.closed, hclosed.resolve_right]
      have bounded : (L.closing c).Bounded w.stock := { h.bounded with
        closed := fun hc => hc.elim h.bounded.closed fun heq => heq ▸ Table.lt_size_of_get? hch }
      refine ⟨L.closing c, .closing L c none _, closed.regular { h.coherent with } bounded,
        .map fun _ hh => ?_⟩
      obtain ⟨e, he, rfl⟩ := List.mem_map.mp hh
      exact ⟨c, ((h.orderly.channels c ch hch).hooks e he).mono ext, fun _ => .inr rfl⟩

/-! ## Gates -/

theorem Regular.flush (g : Nat) : Sustained H none L (w.flush g) := by
  unfold World.flush
  split
  · exact h.unchanged
  · next _ hc =>
    obtain ⟨cell, hcell, hs⟩ := Option.bind_eq_some_iff.mp hc
    unfold Deferred.startFlush? at hs
    split at hs
    · cases hs
    · obtain rfl := Option.some.inj hs
      obtain ⟨γ, hγ, ok⟩ := h.orderly.gates g cell hcell
      exact h.sustained (h.orderly.modifyGate hcell ⟨γ, hγ, { ok with }⟩ id) (.single ⟨γ, hγ⟩)

theorem Regular.dispatchNext (g : Nat) : Sustained H none L (w.dispatchNext g) := by
  obtain ⟨-, heq⟩ | ⟨cell, hcell, ⟨-, heq⟩ | ⟨job, t, _, hp, hq, heq⟩⟩ := w.dispatchNext_cases g
  · exact heq ▸ h.unchanged
  all_goals
    obtain ⟨γ, hγ, ok⟩ := h.orderly.gates g cell hcell
    rw [heq]
  · exact h.sustained (h.orderly.modifyGate hcell ⟨γ, hγ, { ok with }⟩ id) .nil
  · refine h.sustained (h.orderly.modifyGate hcell
      ⟨γ, hγ, { ok with queue := fun e he => ok.queue e ?_ }⟩ id) ?_
    · rw [hq]
      exact .tail _ he
    · refine .cons ⟨γ, ok.queue (job, t) ?_, hp ▸ ok.phase, g, hγ⟩ (.single ⟨γ, hγ⟩)
      rw [hq]
      exact .head _

variable {g : Nat}

theorem Regular.openGate
    (hp : ∀ γ cell, L.gate g = some γ → w.gates.get? g = some cell → cell.core.phase = .waiting →
      PhaseAt H L γ .ready) : Sustained H none L (w.openGate g) := by
  obtain ⟨-, heq⟩ | ⟨cell, hcell, hw, -, heq⟩ := w.openGate_cases g
  · exact heq ▸ h.unchanged
  · obtain ⟨γ, hγ, ok⟩ := h.orderly.gates g cell hcell
    exact heq ▸ h.sustained (h.orderly.modifyGate hcell
      ⟨γ, hγ, ok.live, hp γ cell hγ hcell hw, ok.queue, nofun, nofun⟩ fun hd => nomatch hw.symm.trans hd)
      (.single trivial)

theorem Regular.failGate {e : Fault}
    (hp : ∀ γ cell, L.gate g = some γ → w.gates.get? g = some cell → cell.core.phase = .waiting →
      PhaseAt H L γ (.failed e)) : Sustained H none L (w.failGate g e) := by
  have hr : ∀ cell label script, w.gates.get? g = some cell →
      cell.onRejected ≠ some (.scripted label script) := by
    intro cell label script hcell hj
    obtain ⟨γ, -, ok⟩ := h.orderly.gates g cell hcell
    obtain ⟨h', -, hj'⟩ := ok.rejection _ hj
    cases hj'
  obtain ⟨-, heq⟩ | ⟨cell, q, _, hcell, hw, -, hmore, heq⟩ := w.failGate_cases g e hr
  · exact heq ▸ h.unchanged
  · obtain ⟨γ, hγ, ok⟩ := h.orderly.gates g cell hcell
    have shut : Orderly H L w.stock { w with gates := w.gates.modify g fun c =>
        { c with core := { cell.core with phase := .failed e, queue := [] }, onRejected := none } } :=
      h.orderly.modifyGate hcell ⟨γ, hγ, ok.live, hp γ cell hγ hcell hw, nofun, nofun, nofun⟩
        fun hd => nomatch hw.symm.trans hd
    rw [heq]
    refine h.sustained (shut.withPromises ?_ (Table.size_modifyAll ..) q) ?_
    · refine Table.All.modifyAll shut.promises fun _ hp' _ ⟨ρ, hρ, hc⟩ => ⟨ρ, hρ, hc.keep ?_⟩
      obtain ⟨e', he', rfl⟩ := List.mem_map.mp hp'
      exact (ok.queue e' he').kept_refused h.coherent (hp γ cell hγ hcell hw) ρ hρ
    · rcases hmore with ⟨rfl, -⟩ | ⟨h', -, rfl⟩
      · exact .nil
      · exact .single trivial

end

/-! ## Client handlers -/

/-- The ledger notes that a client is leaving, and that its channel will be closed. -/
def Ledger.parting (L : Ledger) (k c : Nat) : Ledger :=
  { L with leaving := fun k' => L.leaving k' ∨ k' = k, doomed := fun c' => L.doomed c' ∨ c' = c }

theorem Ledger.Extends.parting (L : Ledger) (k c : Nat) : L.Extends (L.parting k c) :=
  { Ledger.Extends.refl L with leaving := .inl, doomed := .inl }

variable {c : Nat}

theorem Ledger.Grows.parting (L : Ledger) (k : Nat) (cause : Option Role)
    (hc : .closeChannel c ∈ more) : L.Grows H cause more (L.parting k c) :=
  { Ledger.Extends.parting L k c with
    newJob := .inl
    newEntry := .inl
    newDoom := by
      rintro _ (h | rfl)
      · exact .inl h
      · exact .inr hc }

variable {k : Nat}

theorem Ledger.Coherent.parting (hL : L.Coherent) {ρ : ClientRole}
    (hρ : L.client k = some ρ) : (L.parting k ρ.channel).Coherent :=
  { hL with
    leaving := by
      rintro _ _ (hl | rfl) hρ'
      · exact .inl (hL.leaving hl hρ')
      · exact .inr (congrArg ClientRole.channel (Option.some.inj (hρ'.symm.trans hρ))) }

theorem Regular.closeClientHandler (h : Regular H L w) (k : Nat) :
    Sustained H none L (w.closeClientHandler k) := by
  unfold World.closeClientHandler
  split
  · exact h.unchanged
  · next cell hcell =>
    split
    · exact h.unchanged
    · next hd =>
      obtain ⟨ρ, hρ, ok⟩ := h.orderly.clients k cell hcell
      let L' := L.parting k ρ.channel
      have ext : L.Extends L' := .parting L k ρ.channel
      have hL' : L'.Coherent := h.coherent.parting hρ
      have refl := Extends.refl H
      let cs := w.clientHandlers.modify k fun c =>
        { c with disposed := true, gate := none, receiver := none }
      -- Gates and promises are changed together with the client handler: none of the three is in order
      -- without the others.
      have part : ∀ (gs : Table GateCell) (ps : Table Promise) (q : List Nat), gs.All (GateOk H L') →
          ps.All (PromiseOk H L') →
          (gs.All fun g cell => ∀ k', L.gate g = some (.permission k') → L'.leaving k' →
            cell.core.phase = .disposed) →
          gs.size = w.gates.size → ps.size = w.promises.size →
          Orderly H L' w.stock
            { w with gates := gs, clientHandlers := cs, promises := ps, queue := q } := by
        intro gs ps q gates promises shut hgs hps
        refine h.orderly.revise ext h.orderly.transport
          (h.orderly.channels.imp fun _ _ hc => hc.mono ext) gates ?_ promises
          (h.orderly.tasks.imp fun _ _ hc => hc.mono refl ext) h.orderly.closed h.orderly.ready ?_ ?_ shut
          (Nat.le_of_eq hps.symm) (Nat.le_of_eq hgs.symm) (Nat.le_of_eq (Table.size_modify ..).symm) rfl
        · refine Table.All.modify (h.orderly.clients.imp fun _ _ hc => hc.mono ext) ?_
          rintro _ _ ⟨ρ', hρ', ok'⟩
          exact ⟨ρ', hρ', { ok' with
            gate := by rintro _ ⟨⟩, receiver := by rintro _ ⟨⟩, disposed := fun _ => .inr rfl }⟩
        · intro k' cell' hk' hl
          rw [Table.get?_modify] at hk'
          grind [h.orderly.left, hl.resolve_right]
        · exact h.orderly.held.modify fun _ _ _ _ _ => .inl rfl
      have gates : w.gates.All (GateOk H L') := h.orderly.gates.imp fun _ _ hc => hc.mono refl ext
      have promises : w.promises.All (PromiseOk H L') :=
        h.orderly.promises.imp fun _ _ hc => hc.mono refl ext
      have others : ∀ g k' cell', w.gates.get? g = some cell' → L.gate g = some (.permission k') →
          L'.leaving k' → cell.gate ≠ some g → cell'.core.phase = .disposed := by
        rintro g k' cell' hg hk' (hl | rfl) hne
        · exact h.orderly.shut g cell' hg k' hk' hl
        · exact absurd (h.orderly.held k' cell hcell g hk') (by simp [hd, hne])
      refine ⟨L', .parting L k none (by simp [ok.channel]), Orderly.regular (N := w.stock) ?_ hL' ?_, ?_⟩
      · dsimp only
        split
        · next g hg =>
          obtain ⟨_, heq⟩ | ⟨gate, q, hgate, -, heq⟩ :=
            disposeGate_cases { w with clientHandlers := cs } g
          · grind
          · have hrole := ok.gate g hg
            have gok := of_eq_some (gates g gate hgate) hrole
            rw [heq]
            refine part _ _ q (gates.modify ?_) (promises.modifyAll ?_) ?_ (Table.size_modify ..)
              (Table.size_modifyAll ..)
            · rintro cell' _ ⟨_, hγ', ok'⟩
              cases hrole.symm.trans hγ'
              exact ⟨_, hγ', ok'.live, .inr rfl, by rintro _ ⟨⟩, by rintro _ ⟨⟩, by rintro _ _ ⟨⟩⟩
            · rintro _ hp _ ⟨ρ', hρ', hc⟩
              refine ⟨ρ', hρ', hc.keep (hc.fallback.kept hL' hρ' ?_)⟩
              rintro k' n rfl
              obtain ⟨e, he, rfl⟩ := List.mem_map.mp hp
              exact (gok.queue e he).leaving (.inr rfl) k' n hρ'
            · grind
        · grind
      · exact { h.bounded with
          leaving := fun hl => hl.elim h.bounded.leaving fun heq => heq ▸ h.bounded.client hρ
          doomed := fun hd => hd.elim h.bounded.doomed fun heq => heq ▸ h.bounded.channel hρ }
      · refine .append (.cons trivial ?_) (.single trivial)
        split
        · next v hv => exact .single ⟨k, ext.receiver (ok.receiver v hv)⟩
        · exact .nil

theorem Orderly.log (h : Orderly H L N w) (event : Event) : Orderly H L N (w.log event) := { h with }

/-- Beginning a check makes a future that may decide about a client. -/
theorem Regular.beginCheck (h : Regular H L w) (checker : CheckerRef) (origin : Option String) (k : Nat)
    (more : List Action) :
    ∃ L', L.Grows H none more L' ∧ Regular H L' (w.beginCheck checker origin).1 ∧
      GateFuture L' (.permission k) (w.beginCheck checker origin).2 ∧
      (w.beginCheck checker origin).1.clientHandlers = w.clientHandlers := by
  unfold World.beginCheck
  split
  · split
    · exact ⟨L, .refl .., h, .inl (.inl ⟨_, rfl⟩), rfl⟩
    · next cell _ =>
      have logged : Regular H L (w.log (.checked cell.label origin)) :=
        (h.orderly.log _).regular h.coherent h.bounded
      have made := logged.promise (ρ := .free) (o := .error (.other "undecided")) trivial trivial
      refine ⟨_, .promised (ρ := .free) h.fresh_promise none more nofun nofun, ?_,
        .inl (.inr (.inr ⟨_, rfl, Ledger.promise_promised ..⟩)), rfl⟩
      refine Orderly.regular (N := (World.promise _ _).stock) ?_ made.coherent made.bounded
      refine { made.orderly with checks := made.orderly.checks.modify fun _ _ hc p hp => ?_ }
      rcases List.mem_append.mp hp with hp | hp
      · exact hc p hp
      · rw [List.mem_singleton.mp hp]
        exact Ledger.promise_promised ..
  · split
    · refine ⟨L, .refl .., Orderly.regular (N := w.stock) ?_ h.coherent h.bounded, .inr ⟨_, _, rfl⟩, rfl⟩
      exact { h.orderly with }
    · exact ⟨L, .refl .., h, .inl (.inl ⟨_, rfl⟩), rfl⟩

def Ledger.gated (L : Ledger) (g k : Nat) : Ledger :=
  { L with gate := Ledger.put L.gate g (.permission k) }

theorem Ledger.Grows.gated (fresh : L.gate g = none) (k : Nat) (cause : Option Role)
    (more : List Action) : L.Grows H cause more (L.gated g k) :=
  { Ledger.Grows.refl H cause more L with gate := Ledger.put_of_some fresh }

theorem Ledger.Coherent.gated (hL : L.Coherent) (fresh : L.gate g = none) {ρ : ClientRole}
    (hρ : L.client k = some ρ) (alone : ∀ g', L.gate g' ≠ some (.permission k)) :
    (L.gated g k).Coherent :=
  { hL with
    handler := fun h => ⟨Ledger.put_of_some fresh (hL.handler h).1, (hL.handler h).2⟩
    permission := fun h => (Ledger.put_eq_some.mp h).elim
      (fun e => ⟨ρ, by cases e.2; exact hρ⟩) fun e => hL.permission e.2
    single := fun h₁ h₂ => by
      rcases Ledger.put_eq_some.mp h₁ with ⟨rfl, e₁⟩ | ⟨-, old₁⟩
      · rcases Ledger.put_eq_some.mp h₂ with ⟨rfl, -⟩ | ⟨-, old₂⟩
        · rfl
        · cases e₁
          exact absurd old₂ (alone _)
      · rcases Ledger.put_eq_some.mp h₂ with ⟨rfl, e₂⟩ | ⟨-, old₂⟩
        · cases e₂
          exact absurd old₁ (alone _)
        · exact hL.single old₁ old₂
    readiness := fun h => (Ledger.put_eq_some.mp h).elim (fun e => nomatch e.2) fun e => hL.readiness e.2 }

/-- The permission gate of a client that is not leaving. -/
theorem Regular.permissionGate (h : Regular H L w) {cell : ClientHandlerCell}
    (hcell : w.clientHandlers.get? k = some cell) (hd : cell.disposed = false) (more : List Action) :
    ∃ L' g, L.Grows H none more L' ∧ Regular H L' (w.permissionGate k).1 ∧
      (w.permissionGate k).2 = some g ∧ L'.gate g = some (.permission k) := by
  obtain ⟨_, hρ, ok⟩ := h.orderly.clients k cell hcell
  unfold World.permissionGate
  simp only [hcell, hd, Bool.false_eq_true, if_false]
  split
  · next g hg => exact ⟨L, g, .refl .., h, rfl, ok.gate g hg⟩
  · next hg =>
    obtain ⟨L₁, grows, checked, hfuture, hsame⟩ := h.beginCheck cell.checker cell.origin k more
    revert hsame hfuture checked
    generalize w.beginCheck cell.checker cell.origin = begun
    obtain ⟨w₁, check⟩ := begun
    intro checked hfuture hsame
    have hρ₁ := grows.client hρ
    have hcell₁ : w₁.clientHandlers.get? k = some cell := hsame ▸ hcell
    have fresh : L₁.gate w₁.gates.size = none := Ledger.fresh checked.bounded.gate
    have stays : ¬ L₁.leaving k := fun hl =>
      absurd (checked.orderly.left k cell hcell₁ hl) (by simp [hd])
    have alone : ∀ g, L₁.gate g ≠ some (.permission k) := fun g hg' =>
      absurd (checked.orderly.held k cell hcell₁ g hg') (by simp [hd, hg])
    have grows' := Ledger.Grows.gated (H := H) fresh k none more
    have ext := grows'.toExtends
    have refl := Extends.refl H
    have put : (L₁.gated w₁.gates.size k).gate w₁.gates.size = some (.permission k) := Ledger.put_self ..
    refine ⟨L₁.gated w₁.gates.size k, w₁.gates.size, grows.trans grows', ?_, rfl, put⟩
    have gate : GateOk H (L₁.gated w₁.gates.size k) w₁.gates.size {} :=
      ⟨_, put, rfl, trivial, nofun, nofun, nofun⟩
    have final : Orderly H (L₁.gated w₁.gates.size k) w₁.stock
        { w₁ with
          gates := w₁.gates.push {}
          clientHandlers := w₁.clientHandlers.modify k fun c => { c with gate := some w₁.gates.size }
          tasks := w₁.tasks.push (.await check (.gate w₁.gates.size))
          queue := w₁.queue ++ [w₁.tasks.size] } := by
      refine checked.orderly.revise ext checked.orderly.transport
        (checked.orderly.channels.imp fun _ _ hc => hc.mono ext)
        (Table.All.push (checked.orderly.gates.imp fun _ _ hc => hc.mono refl ext) gate) ?_
        (checked.orderly.promises.imp fun _ _ hc => hc.mono refl ext)
        (Table.All.push (checked.orderly.tasks.imp fun _ _ hc => hc.mono refl ext)
          ⟨_, put, hfuture.mono ext⟩)
        checked.orderly.closed checked.orderly.ready ?_ ?_ ?_
        (Nat.le_refl _) (by simp) (Nat.le_of_eq (Table.size_modify ..).symm) rfl
      · refine Table.All.modify (checked.orderly.clients.imp fun _ _ hc => hc.mono ext) ?_
        rintro cell' hcell' ⟨ρ', hρ', ok'⟩
        exact ⟨ρ', hρ', { ok' with gate := fun g hg' => Option.some.inj hg' ▸ put }⟩
      · exact checked.orderly.left.modify fun _ _ hl => hl
      · intro k' cell' _ g hg'
        rcases Ledger.put_eq_some.mp hg' with ⟨rfl, heq⟩ | ⟨-, hg'⟩
        · grind
        · grind [checked.orderly.held]
      · intro g cell' hcell' k' hg' hl
        rw [Table.get?_push] at hcell'
        rcases Ledger.put_eq_some.mp hg' with ⟨rfl, heq⟩ | ⟨hne, hg'⟩
        · cases heq
          exact absurd hl stays
        · rw [if_neg hne] at hcell'
          exact checked.orderly.shut g cell' hcell' k' hg' hl
    refine ⟨final.restock (Stock.Le.refl _), checked.coherent.gated fresh hρ₁ alone, ?_⟩
    have bounded := checked.bounded.mono final.stock_le
    refine { bounded with gate := fun hg' => ?_ }
    rcases Ledger.put_eq_some.mp hg' with ⟨rfl, -⟩ | ⟨-, hg'⟩
    · show w₁.gates.size < (w₁.gates.push {}).size
      simp
    · exact bounded.gate hg'

def Ledger.dooming (L : Ledger) (c : Nat) : Ledger :=
  { L with doomed := fun c' => L.doomed c' ∨ c' = c }

theorem Ledger.Grows.dooming (L : Ledger) (cause : Option Role)
    (hc : .closeChannel c ∈ more) : L.Grows H cause more (L.dooming c) :=
  { Ledger.Grows.refl H cause more L with
    doomed := .inl
    newDoom := by
      rintro _ (h | rfl)
      · exact .inl h
      · exact .inr hc }

/-- A client's request gets its place among the arrivals, and what answers it is the promise of that
place or the fault of a channel that is about to be closed. -/
theorem Regular.handleClientRequest (h : Regular H L w) {ρ : ClientRole} {m : Request}
    (hρ : L.client k = some ρ)
    (ha : ∀ call, Call.ofJson? m.payload = some call → ∃ l, H.arrivals k = l ++ [(m.id, call)]) :
    ∃ L', L.Grows H none (w.handleClientRequest k m.payload).2.1 L' ∧
      Regular H L' (w.handleClientRequest k m.payload).1 ∧
      AgendaOk H L' (w.handleClientRequest k m.payload).2.1 ∧
      ClientAnswer H L' k ρ.channel m.id (w.handleClientRequest k m.payload).2.2 := by
  obtain ⟨cell, hcell, ok⟩ := h.orderly.clients.of_lt (h.bounded.client hρ) hρ
  unfold World.handleClientRequest
  simp only [hcell, ok.live, Bool.not_true, Bool.false_eq_true, if_false]
  split
  · -- No call: the channel is going to be closed.
    refine ⟨L.dooming ρ.channel, .dooming L none (by simp [ok.channel]), ?_, .single trivial,
      .inr ⟨.inr rfl, _, rfl, .inr ⟨_, rfl⟩⟩⟩
    refine Orderly.regular (N := w.stock) ?_ { h.coherent with leaving := fun hl hk => ?_ } ?_
    · exact h.orderly.mono (.refl H) (Ledger.Grows.dooming (H := H) L none
        (List.mem_singleton_self _)).toExtends h.orderly.closed h.orderly.ready h.orderly.left
        h.orderly.held h.orderly.shut
    · exact .inl (h.coherent.leaving hl hk)
    · exact { h.bounded with
        doomed := fun hd => hd.elim h.bounded.doomed fun heq => heq ▸ h.bounded.channel hρ }
  · next call hcall =>
    cases hd : cell.disposed with
    | true =>
      have refused : w.permissionGate k = (w, none) := by
        simp only [World.permissionGate, hcell, hd, if_true]
      rw [refused]
      exact ⟨L, .refl .., h, .nil, .inr ⟨h.coherent.leaving (ok.disposed hd) hρ, _, rfl, .inl rfl⟩⟩
    | false =>
      obtain ⟨L₁, _, grows, gated, hgate, hg⟩ := h.permissionGate hcell hd []
      revert hgate gated
      generalize w.permissionGate k = result
      obtain ⟨w₁, _⟩ := result
      rintro gated rfl
      obtain ⟨l, hl⟩ := ha call hcall
      have hρ₁ := grows.client hρ
      have made := gated.promise (ρ := .job k l.length) (o := .error .jobSkipped) ⟨ρ, hρ₁⟩ rfl
      have job : JobAt H (L₁.promised w₁.promises.size (.job k l.length)) (.permission k)
          (.forward cell.serverHandler call) w₁.promises.size := by
        refine ⟨ρ, call, l.length, m.id, hρ₁, by rw [ok.handler], Ledger.promise_promised .., ?_⟩
        simp [Arrived, hl]
      obtain ⟨added, actions⟩ := made.orderly.addJob made.coherent hg (made.bounded.gate hg) job
      refine ⟨_, ?_, added.regular made.coherent made.bounded, actions,
        .inl ⟨_, l.length, call, rfl, Ledger.promise_promised .., by simp [Arrived, hl]⟩⟩
      refine (grows.of_nil _).trans (.promised gated.fresh_promise none _ ?_ nofun)
      rintro _ _ heq
      cases heq
      simp [hl]

/-! ## Messages -/

theorem Regular.onRequest (h : Regular H L w) {v : Nat} {payload : Json}
    (hclient : ∀ k cell m call, L.receiver v = some (.client k) → w.receivers.get? v = some cell →
      cell.live = true → Request.ofJson? payload = some m → Call.ofJson? m.payload = some call →
      ∃ l, H.arrivals k = l ++ [(m.id, call)])
    (hserver : ∀ h', L.receiver v = some (.registry h') →
      H.sent near (Service.request (Service.callFunction h'), payload)) :
    Sustained H none L (w.onRequest v payload) := by
  unfold World.onRequest
  split
  · exact h.unchanged
  · next cell hcell =>
    split
    · exact h.unchanged
    · next hlive =>
      split
      · exact h.sustained h.orderly (.single trivial)
      · next m hm =>
        obtain ⟨ω, hω, hat, hname, served⟩ := h.orderly.receivers v cell hcell
        cases ω with
        | client k =>
          obtain ⟨ρ, hρ, hc⟩ := hat
          rw [served.1]
          have hlive' : cell.live = true := by simpa using hlive
          obtain ⟨L', grows, regular, actions, answer⟩ := h.handleClientRequest hρ
            fun call hcall => hclient k cell m call hω hcell hlive' hm hcall
          refine ⟨L', grows.weaken fun _ => List.mem_append_left _, regular, actions.append (.single ?_)⟩
          refine ⟨.inr ⟨k, ρ, grows.client hρ, hc.symm, by rw [hname]; rfl, ?_⟩, rfl⟩
          exact hc ▸ answer
        | registry h' =>
          obtain ⟨⟨b, hb⟩, -⟩ := served
          have answers : ∀ f, ServerAnswer H L h' m.id f →
              AnswerOk H L f cell.channel (Service.response cell.name) m.id :=
            fun f hf => .inl ⟨hat, h', by rw [hname]; rfl, hf⟩
          rw [hb]
          unfold answerTo
          dsimp only
          split
          · next call hcall =>
            refine h.sustained h.orderly (.single ⟨answers _ (.inl ⟨b, call, rfl, ?_⟩), rfl⟩)
            exact ⟨payload, m, hserver h' hω, hm, rfl, hcall⟩
          · exact h.sustained (h.orderly.abort _ _) (.single ⟨answers _ (.inr (.inl ⟨_, rfl⟩)), rfl⟩)

def Ledger.opened (L : Ledger) (v h : Nat) : Ledger :=
  { L with receiver := Ledger.put L.receiver v (.registry h) }

theorem Regular.arrive (h : Regular H L w) (g : Nat) (payload : Json) :
    ∃ L', L.Grows H none [] L' ∧ Regular H L' (w.arrive g payload) := by
  unfold World.arrive
  split
  · exact ⟨L, .refl .., h⟩
  · next cell hcell =>
    have rok := h.orderly.registries g cell hcell
    split
    · exact ⟨L, .refl .., (h.orderly.abort _ _).regular h.coherent h.bounded⟩
    · next m _ =>
      split
      · exact ⟨L, .refl .., (h.orderly.abort _ _).regular h.coherent h.bounded⟩
      · have fresh : L.receiver w.receivers.size = none := Ledger.fresh h.bounded.receiver
        let L' := L.opened w.receivers.size m.handler
        have ext : L.Extends L' := { Ledger.Extends.refl L with receiver := Ledger.put_of_some fresh }
        have hω : L'.receiver w.receivers.size = some (.registry m.handler) := Ledger.put_self ..
        have later : Orderly H L' w.stock w := h.orderly.mono (.refl H) ext h.orderly.closed
          h.orderly.ready h.orderly.left h.orderly.held h.orderly.shut
        have made : Orderly H L' { w.stock with receivers := w.receivers.size + 1 }
            (w.newReceiver (Service.callFunction m.handler) cell.channel .abort
              (.backend cell.backend m.handler)).1 :=
          later.newReceiver hω rok.channel fun _ => ⟨⟨_, rfl⟩, rfl⟩
        refine ⟨L', { Ledger.Grows.refl H none [] L with receiver := ext.receiver }, ?_⟩
        have noted : Orderly H L' { w.stock with receivers := w.receivers.size + 1 }
            { (w.newReceiver (Service.callFunction m.handler) cell.channel .abort
                (.backend cell.backend m.handler)).1 with
              registries := w.registries.modify g fun c =>
                { c with entries := c.entries ++ [(m.handler, w.receivers.size)] } } := by
          refine { made with registries := Table.All.modify made.registries fun _ _ ok =>
            { ok with entries := fun e _ => ?_ } }
          grind [ok.entries]
        have task : TaskOk H L' (.backendCreated cell.backend m.handler m.clientName) := trivial
        exact (noted.spawn task).regular { h.coherent with } { h.bounded with
          receiver := Ledger.lt_of_put h.bounded.receiver (Nat.le_succ _) (Nat.lt_succ_self _) }

theorem Orderly.depart (h : Orderly H L N w) (g : Nat) (payload : Json) :
    Orderly H L N (w.depart g payload) := by
  unfold World.depart
  split
  · exact h
  · split
    · exact h.abort _ _
    · split
      · exact h.abort _ _
      · next _ _ v _ =>
        refine Orderly.spawn (Orderly.releaseReceiver ?_ v) trivial
        exact { h with registries := h.registries.modify fun _ _ ok =>
          { ok with entries := fun e he => ok.entries e (Assoc.mem_of_mem_erase he) } }

/-- What handles a message on a channel of an orderly world. -/
theorem Orderly.service (h : Orderly H L N w) {service : String} {handler : Handler}
    (hh : ((w.channels.get? c).bind fun ch => ch.core.handler? service) = some handler) :
    ServiceOk L c service handler := by
  obtain ⟨ch, hch, hs⟩ := Option.bind_eq_some_iff.mp hh
  unfold ChannelCore.handler? at hs
  split at hs
  · cases hs
  · exact (h.channels c ch hch).services _ (Assoc.mem_of_lookup hs)

theorem Regular.deliver (h : Regular H L w) {service : String} {payload : Json}
    (hsent : H.sent (peer c) (service, payload))
    (harr : ∀ k m call, w.serves k c service = true → Request.ofJson? payload = some m →
      Call.ofJson? m.payload = some call → ∃ l, H.arrivals k = l ++ [(m.id, call)]) :
    Sustained H none L (w.deliver c service payload) := by
  unfold World.deliver
  split
  · exact h.unchanged
  · next handler hh =>
    have ok := h.orderly.service hh
    cases handler with
    | responses =>
      obtain ⟨_, hℓ, rfl, rfl⟩ := ok
      refine h.onResponse fun _ hℓ' => ?_
      cases hℓ.symm.trans hℓ'
      exact hsent
    | requests v =>
      obtain ⟨_, hω, hat, rfl⟩ := ok
      refine h.onRequest ?_ ?_
      · intro k cell m call hk hcell hlive hm hcall
        refine harr k m call ?_ hm hcall
        obtain ⟨-, -, served⟩ := of_eq_some (h.orderly.receivers v cell hcell) hk
        unfold serves
        obtain ⟨_, _, _, _, live⟩ := cell
        obtain ⟨rfl, -⟩ := served
        obtain rfl : live = true := hlive
        simp [hh, hcell]
      · intro _ hk
        cases hk.symm.trans hω
        obtain rfl : c = far := hat
        exact hsent
    | readiness t =>
      dsimp only
      split
      · exact h.sustained (h.orderly.settleTracker t nofun) .nil
      · exact h.unchanged
    | arrivals g =>
      dsimp only
      split
      · obtain ⟨L', grows, regular⟩ := h.arrive g payload
        exact ⟨L', grows, regular, .nil⟩
      · exact h.unchanged
    | departures g =>
      dsimp only
      split
      · exact h.sustained (h.orderly.depart g payload) .nil
      · exact h.unchanged
    | observer =>
      obtain ⟨rfl, -⟩ := ok
      exact h.sustained { h.orderly with } .nil
    | pongs | pings => exact absurd ok id

/-! ## Jobs that are let through -/

namespace World

def nextNumber (w : World) (h : Nat) : Nat :=
  match (w.serverHandlers.get? h).bind fun cell => cell.requester with
  | some r => ((w.requesters.get? r).map fun cell => cell.core.nextId).getD 0
  | none => 0

def canPost (w : World) (h : Nat) : Prop :=
  w.isOpen near = true ∧ ∃ cell, w.serverHandlers.get? h = some cell ∧ cell.disposed = false

end World

variable {h' : Nat}

theorem Orderly.serverRequester (h : Orderly H L N w) (hL : L.Coherent)
    (hr : L.requester w.requesters.size = some (.server h')) :
    Orderly H L N (w.serverRequester h').1 := by
  unfold World.serverRequester
  split
  · exact h
  · next cell hcell =>
    split
    · exact h
    · split
      · exact h
      · split
        · exact h
        · obtain ⟨_, _, ok⟩ := h.handlers h' cell hcell
          have made : Orderly H L { N with requesters := w.requesters.size + 1 }
              (w.newRequester (Service.callFunction h') near .abort).1 :=
            h.newRequester hL hr fun _ _ => rfl
          replace made : Orderly H L N _ := made.restock { made.stock_le with
            requesters := Nat.le_trans (Nat.le_succ_of_le h.requesterCount) made.requesterCount }
          have number := newRequester_snd (Service.callFunction h') near .abort w
          rw [ok.id, ok.channel]
          revert made number
          generalize w.newRequester (Service.callFunction h') near .abort = result
          obtain ⟨w₁, r⟩ := result
          dsimp only
          rintro made rfl
          have named : Orderly H L N { w₁ with
              serverHandlers := w₁.serverHandlers.modify h' fun c =>
                { c with requester := some w.requesters.size } } :=
            made.modifyHandler fun _ _ _ _ ok' =>
              { ok' with requester := fun r heq => Option.some.inj heq ▸ hr }
          have sent := named.send near Service.createHandler (Arrival.mk h' cell.clientName).toJson
          grind

/-- What has to be known of the promise by which a call that is posted waits at the requester. -/
structure PostRole (H : History) (L : Ledger) (h t : Nat) (ρ : Role) : Prop where
  role : RoleOk L ρ
  fallback : Fallback L ρ (.error (.requesterDisposed (Service.callFunction h)))
  closed : Kept H L ρ (.error .channelDisposed)
  fresh : (∀ k n, ρ ≠ .job k n) ∧ ∀ k n, ρ ≠ .entry k n
  ticket : ∀ {L' : Ledger} {r p i : Nat}, L.Extends L' → L'.promise p = some ρ →
    (∀ k n, L.promise t = some (.entry k n) → n = i) → L'.Ticket r (.server h) i p
  link : ∀ {L' : Ledger} {p : Nat}, L.Extends L' → L'.promise p = some ρ → LinkOk H L' (.promise p) t
  fault : ∀ {L' : Ledger} {e : Fault}, L.Extends L' → Local h e →
    LinkOk H L' (.done (.outcome (.error e))) t

variable {t : Nat} {job : Job}

theorem JobAt.postRole (hL : L.Coherent) {h : Nat} (hj : JobAt H L (.readiness h) job t) :
    ∃ ρ, PostRole H L h t ρ := by
  obtain ⟨η, _, hη, -, ht⟩ := hj
  split at ht
  · next k hk =>
    obtain ⟨-, n, _, ht, -⟩ := ht
    obtain ⟨ρ, hρ, rfl⟩ := (hL.handler hη).2 k hk
    refine ⟨.call k n, trivial, ⟨ρ, hρ, rfl⟩, ⟨ρ, hρ, .inl (.inr (.inr (.inl rfl)))⟩, ⟨nofun, nofun⟩,
      ?_, ?_, ?_⟩
    · intro _ _ _ _ ext hp hn
      obtain rfl := hn k n ht
      exact ⟨η, ext.handler hη, by rw [hk]; exact hp⟩
    · exact fun ext hp => .inl ⟨k, n, ext.promise ht, .inl ⟨_, rfl, hp⟩⟩
    · exact fun ext hl => .inl ⟨k, n, ext.promise ht, .inr ⟨_, ρ, rfl, ext.client hρ, hl⟩⟩
  · next hk =>
    refine ⟨.free, trivial, trivial, trivial, ⟨nofun, nofun⟩, ?_, ?_, ?_⟩
    · exact fun ext hp _ => ⟨η, ext.handler hη, by rw [hk]; exact hp⟩
    · exact fun ext hp => .inr (.inr ⟨ext.promise ht, .inr (.inr ⟨_, rfl, hp⟩)⟩)
    · exact fun ext _ => .inr (.inr ⟨ext.promise ht, .inl ⟨_, rfl⟩⟩)

def Ledger.announced (L : Ledger) (r h : Nat) : Ledger :=
  { L with requester := Ledger.put L.requester r (.server h) }

theorem Regular.serverRequester (h : Regular H L w) (h' : Nat) (cause : Option Role) :
    ∃ L', L.Grows H cause [] L' ∧ Regular H L' (w.serverRequester h').1 ∧
      ((∃ e, w.serverRequester h' = (w, .error e) ∧ Local h' e) ∨
      ∃ w₁ r, w.serverRequester h' = (w₁, .ok r) ∧ L'.requester r = some (.server h') ∧
        (w₁.isOpen near = true → w.canPost h') ∧
        ∀ cell, w₁.requesters.get? r = some cell → cell.core.nextId = w.nextNumber h') := by
  have keep : ∀ {result}, w.serverRequester h' = (w, result) →
      Regular H L (w.serverRequester h').1 := fun heq => heq ▸ h
  obtain ⟨-, heq⟩ | ⟨cell, hcell, ⟨-, heq⟩ | ⟨hd, r, hr, heq⟩ | ⟨-, -, -, heq⟩ |
    ⟨hd, hr, -, ho, ch, _, -, heq⟩⟩ := serverRequester_cases h.orderly.wired h'
  · exact ⟨L, .refl .., keep heq, .inl ⟨_, heq, .inr (.inl rfl)⟩⟩
  · exact ⟨L, .refl .., keep heq, .inl ⟨_, heq, .inr (.inl rfl)⟩⟩
  · obtain ⟨η', hη', ok⟩ := h.orderly.handlers h' cell hcell
    refine ⟨L, .refl .., keep heq, .inr ⟨w, r, heq, ok.requester r hr,
      fun ho => ⟨ho, cell, hcell, hd⟩, fun rcell hrcell => ?_⟩⟩
    simp [nextNumber, hcell, hr, hrcell]
  · exact ⟨L, .refl .., keep heq, .inl ⟨_, heq, .inr (.inr (.inl rfl))⟩⟩
  · obtain ⟨η', hη', ok⟩ := h.orderly.handlers h' cell hcell
    have fresh : L.requester w.requesters.size = none := Ledger.fresh h.bounded.requester
    let L' := L.announced w.requesters.size h'
    have ext : L.Extends L' := { Ledger.Extends.refl L with requester := Ledger.put_of_some fresh }
    have entered : L'.requester w.requesters.size = some (.server h') := Ledger.put_self ..
    have coherent : L'.Coherent := { h.coherent with
      line := fun hc => (Ledger.put_eq_some.mp hc).elim (fun e => nomatch e.2) fun e =>
        h.coherent.line e.2
      reply := fun hp => (h.coherent.reply hp).imp fun _ hc => ext.requester hc }
    have later : Orderly H L' w.stock w := h.orderly.mono (.refl H) ext h.orderly.closed
      h.orderly.ready h.orderly.left h.orderly.held h.orderly.shut
    have final := later.serverRequester coherent entered
    refine ⟨L', { Ledger.Grows.refl H cause [] L with requester := ext.requester },
      ⟨final.restock (Stock.Le.refl _), coherent, ?_⟩, .inr ⟨_, _, heq, entered, ?_, ?_⟩⟩
    · have bounded := h.bounded.mono final.stock_le
      refine { bounded with requester := fun hr' => ?_ }
      rcases Ledger.put_eq_some.mp hr' with ⟨rfl, -⟩ | ⟨-, hr'⟩
      · rw [heq]
        show w.requesters.size < (w.requesters.push _).size
        simp
      · exact bounded.requester hr'
    · exact fun _ => ⟨ok.channel ▸ ho, cell, hcell, hd⟩
    · intro rcell hrcell
      have hnew : (w.requesters.push (freshRequester (Service.callFunction cell.id) cell.channel
          .abort ch.core.nextKey)).get? w.requesters.size = some rcell := hrcell
      grind [nextNumber, freshRequester]

theorem Regular.postToServer (h : Regular H L w) {c : Call}
    (hj : JobAt H L (.readiness h') job t) (cause : Option Role)
    (hn : w.canPost h' → ∀ k n, L.promise t = some (.entry k n) → n = w.nextNumber h') :
    ∃ L', L.Grows H cause [] L' ∧ Regular H L' (w.postToServer h' c).1 ∧
      LinkOk H L' (w.postToServer h' c).2 t := by
  obtain ⟨ρ, role⟩ := hj.postRole h.coherent
  obtain ⟨L₁, grows, regular, ⟨_, heq, hl⟩ | ⟨w₁, r, heq, hr, hcan, hnext⟩⟩ := h.serverRequester h' cause
  · unfold World.postToServer
    rw [heq] at regular ⊢
    exact ⟨L₁, grows, regular, role.fault grows.toExtends hl⟩
  · unfold World.postToServer
    rw [heq] at regular ⊢
    dsimp only
    have fresh := regular.fresh_promise
    obtain ⟨cell, hcell, rok⟩ := regular.orderly.requesters.of_lt (regular.bounded.requester hr) hr
    have gaveUp : cell.core.gaveUp = .requesterDisposed (Service.callFunction h') :=
      congrArg Fault.requesterDisposed rok.name
    let L₂ := L₁.promised w₁.promises.size ρ
    have ext₂ : L₁.Extends L₂ := .promised fresh ρ
    have ext := grows.toExtends.trans ext₂
    have entered : L₂.promise w₁.promises.size = some ρ := Ledger.promise_promised ..
    have role₁ : RoleOk L₁ ρ := role.role.mono grows.toExtends
    have posted : Orderly H L₂ w₁.stock (w₁.post r c.toJson).1 := by
      refine (regular.orderly.promised fresh ρ).post (regular.coherent.promised _ role₁) ?_ ?_
      · intro cell' ℓ' hcell' hℓ' ho
        cases hcell.symm.trans hcell'
        cases hr.symm.trans hℓ'
        refine role.ticket ext entered fun k n ht => ?_
        rw [hnext cell hcell]
        exact hn (hcan ho) k n ht
      · intro cell' ℓ' hcell' hℓ' ho
        cases hr.symm.trans hℓ'
        exact ⟨ρ, entered, role.fallback.mono ext, role.closed.mono (.refl H) ext⟩
    have grows₂ : L.Grows H cause [] L₂ := grows.trans (.promised fresh cause []
      (fun k n heq => absurd heq (role.fresh.1 k n)) fun k n heq => absurd heq (role.fresh.2 k n))
    have final : w₁.promises.size < (w₁.post r c.toJson).1.promises.size →
        Regular H L₂ (w₁.post r c.toJson).1 := fun hlt =>
      ⟨posted.restock (Stock.Le.refl _), regular.coherent.promised _ role₁,
        (regular.bounded.mono posted.stock_le).promised hlt ρ⟩
    obtain ⟨hnone, -⟩ | ⟨cell', hcell', ⟨-, heq'⟩ | ⟨-, -, q, heq'⟩ | ⟨-, -, _, q, -, heq'⟩⟩ :=
      post_cases regular.orderly.wired r c.toJson
    · cases hcell.symm.trans hnone
    · cases hcell.symm.trans hcell'
      rw [heq', gaveUp]
      exact ⟨L₁, grows, regular, role.fault grows.toExtends (.inr (.inr (.inr (.inl rfl))))⟩
    · refine ⟨L₂, grows₂, final ?_, ?_⟩
      · rw [heq']
        show w₁.promises.size < (w₁.promises.push _).size
        simp
      · rw [heq']
        exact role.link ext entered
    · refine ⟨L₂, grows₂, final ?_, ?_⟩
      · rw [heq']
        show w₁.promises.size < ((w₁.promises.push _).modify _ _).size
        simp
      · rw [heq']
        exact role.link ext entered

theorem Regular.invoke (h : Regular H L w) (hj : ActionOk H L (.invoke job t))
    (hn : ∀ h' call, job = .post h' call → w.canPost h' → ∀ k n, L.promise t = some (.entry k n) →
      n = w.nextNumber h') :
    Sustained H (L.promise t) L (w.invoke job t) := by
  obtain ⟨γ, hat, hphase, -⟩ := hj
  cases γ with
  | permission k =>
    obtain ⟨ρ, call, n, id, hρ, rfl, ht, harr⟩ := hat
    obtain ⟨-, η, hη, howner⟩ := h.coherent.client hρ
    obtain ⟨cell, hcell, ok⟩ := h.orderly.handlers.of_lt (h.bounded.handler hη) hη
    have made := h.promise (ρ := .entry k n) (o := .error .jobSkipped) ⟨ρ, hρ⟩ rfl
    have entered := L.promise_promised w.promises.size (.entry k n)
    have ext := Ledger.Extends.promised h.fresh_promise (.entry k n)
    have hgate : (L.promised w.promises.size (.entry k n)).gate cell.gate =
        some (.readiness ρ.handler) := by
      rw [ok.gate]
      exact (h.coherent.handler hη).1
    have post : JobAt H (L.promised w.promises.size (.entry k n)) (.readiness ρ.handler)
        (.post ρ.handler call) w.promises.size := by
      refine ⟨η, call, hη, rfl, ?_⟩
      rw [howner]
      exact ⟨hphase, n, id, entered, harr⟩
    obtain ⟨added, actions⟩ := made.orderly.addJob made.coherent hgate (made.bounded.gate hgate) post
    unfold invoke
    simp only [hcell]
    refine ⟨_, ?_, added.regular made.coherent made.bounded, actions.append (.single ?_)⟩
    · refine .promised h.fresh_promise _ _ nofun fun _ _ heq => ?_
      cases heq
      exact ht
    · exact ⟨.inr (.inl ⟨_, k, n, rfl, entered, ext.promise ht, hphase⟩), rfl⟩
  | readiness h' =>
    have hat' := hat
    obtain ⟨η, call, hη, rfl, -⟩ := hat'
    obtain ⟨cell, hcell⟩ := Table.get?_isSome_of_lt (h.bounded.handler hη)
    obtain ⟨_, _, ok⟩ := h.orderly.handlers h' cell hcell
    obtain ⟨L', grows, regular, link⟩ := h.postToServer (c := call) hat (L.promise t)
      (hn h' call rfl)
    unfold invoke
    simp only [hcell, ok.live, Option.any_some, if_true]
    exact ⟨L', grows.of_nil _, regular, .single ⟨link, rfl⟩⟩

/-! ## All actions -/

/-- The role of the promise by which the job waited that an action lets through. -/
def Ledger.cause (L : Ledger) : Action → Option Role
  | .invoke _ t => L.promise t
  | _ => none

theorem Regular.guardChannel (h : Regular H L w) {hook : Hook}
    (hh : HookOk L c hook) : Sustained H none L (w.guardChannel c hook) := by
  refine h.sustained (h.orderly.addHook hh) ?_
  unfold World.guardChannel
  dsimp only
  split
  · next closed => exact .single ⟨c, hh, fun _ => h.orderly.closed_of_addHook closed⟩
  · exact .nil

theorem Pair.ends_next? {q rest : Pair} {second : Bool} {m : String × Json}
    (h : q.next? second = some (m, rest)) : rest.first = q.first ∧ rest.second = q.second := by
  grind [Pair.next?]

theorem Regular.pumpNext (h : Regular H L w) (p : Nat) (second : Bool) :
    Sustained H none L (w.pumpNext p second) := by
  unfold World.pumpNext
  split
  · exact h.unchanged
  · next _ hpair =>
    split
    · exact h.unchanged
    · next _ hnext =>
      refine h.sustained ?_ (.cons trivial (.single trivial))
      have ends := Pair.ends_next? hnext
      exact { h.orderly with
        ends := h.orderly.ends.modify fun _ hq hends => by
          cases hpair.symm.trans hq
          exact ⟨ends.1.trans hends.1, ends.2.trans hends.2⟩
        size := by rw [Table.size_modify, h.orderly.size] }

/-- An action of the agenda of a regular world leads to a regular world. -/
theorem Regular.perform (h : Regular H L w) {a : Action} (ha : ActionOk H L a)
    (hdeliver : ∀ c service payload, a = .deliver c service payload →
      H.sent (peer c) (service, payload) ∧
      ∀ k m call, w.serves k c service = true → Request.ofJson? payload = some m →
        Call.ofJson? m.payload = some call → ∃ l, H.arrivals k = l ++ [(m.id, call)])
    (hpost : ∀ h' call t, a = .invoke (.post h' call) t → w.canPost h' →
      ∀ k n, L.promise t = some (.entry k n) → n = w.nextNumber h') :
    Sustained H (L.cause a) L (w.perform a) := by
  cases a with
  | deliver c service payload =>
    obtain ⟨hsent, harr⟩ := hdeliver c service payload rfl
    exact h.deliver hsent harr
  | closeChannel c => exact h.closeChannel c
  | closeCore c => exact h.closeCore c
  | runHook => exact h.runHook ha
  | closeServerHandler h' => exact h.closeServerHandler h'
  | closeClientHandler k => exact h.closeClientHandler k
  | releaseReceiver v => exact h.sustained (h.orderly.releaseReceiver v) .nil
  | violation policy scope detail =>
    cases policy with
    | abort => exact h.sustained (h.orderly.abort scope detail) .nil
    | disposeChannel => exact h.sustained h.orderly (.single trivial)
  | flush g => exact h.flush g
  | dispatchNext g => exact h.dispatchNext g
  | invoke _ t => exact h.invoke ha fun h' call heq => hpost h' call t (heq ▸ rfl)
  | guardChannel => exact h.guardChannel ha.1
  | spawn => exact h.sustained (h.orderly.spawn ha.1) .nil
  | pumpNext p second => exact h.pumpNext p second
  | nested | log | cancelStream | track | readNext | frame | readOn | finishReader | writeNext
  | pingNext | bind => exact absurd ha id

end Switchboard
