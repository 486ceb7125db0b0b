import Switchboard.Proofs.Agenda
import Switchboard.Proofs.Teardown

/-!
# A client handler goes down as a whole

Whatever begins it, the closing of a client handler ends with its server handler and its channel closed,
as soon as the agenda is empty; and the agenda is worked off in the end. Nothing is sent for a client
handler that is closed.
-/

namespace Switchboard

open World

open Exchange History

namespace Exchange.Transition

/-- How the readiness that a server handler waits for was seen to end, while its gate waited for that. -/
def readiness? (t : Transition) (h : Nat) : Option Outcome :=
  match t.polled? with
  | some (_, .await future (.gate g)) =>
    if (t.before.world.serverHandlers.get? h).any (fun c => c.gate == g) &&
        (t.before.world.gates.get? g).any (fun c => c.core.phase = .waiting) then
      (t.before.world.look future).2.2.map outcomeOf
    else none
  | _ => none

/-- A reason for a client handler to close: it, its server handler, its channel or the server channel is
closed by an owner, its readiness fails, or it gets a message that is no request for a call. -/
inductive Topples (t : Transition) (k : Nat) (cell : ClientHandlerCell) : Prop
  | client (move : t.event = .closeClient k)
  | handler (move : t.event = .closeHandler cell.serverHandler)
  | channel {c : Nat} (move : t.event = .close c) (ends : c / 2 = cell.channel / 2)
  | server {c : Nat} (move : t.event = .close c) (ends : c / 2 = near / 2)
  | unready {e : Fault} (seen : t.readiness? cell.serverHandler = some (.error e))
  | malformed {c : Nat} {service : String} {v : Json} (delivered : t.delivered? = some (c, service, v))
      (serves : t.before.world.serves k c service = true)
      (none : t.before.world.arrival? k c service v = none)

def topples (t : Transition) (k : Nat) : Prop :=
  t.before.world.aborted = none ∧
    ∃ cell, t.before.world.clientHandlers.get? k = some cell ∧ t.Topples k cell

end Exchange.Transition

variable {H : History} {L L' : Ledger} {w w' : World} {κ : Cause} {more rest : List Action}
  {ts : List Transition} {x : Exchange} {m : Move}

/-! ## What begins the closing -/

theorem Regular.refuses (reg : Regular H L w) {k c : Nat} {ρ : ClientRole} {service : String} {v : Json}
    (hρ : L.client k = some ρ) (serves : w.serves k c service = true)
    (none : w.arrival? k c service v = none) :
    ∃ a ∈ (w.perform (.deliver c service v)).2, a.closes (.channel ρ.channel) := by
  show ∃ a ∈ (w.deliver c service v).2, a.closes (.channel ρ.channel)
  unfold World.arrival? at none
  rw [if_pos serves] at none
  unfold World.serves at serves
  split at serves
  · next i hi =>
    unfold World.deliver
    simp only [hi]
    cases hcell : w.receivers.get? i with
    | none => rw [hcell] at serves; cases serves
    | some cell =>
      obtain ⟨ω, -, channel, -, served⟩ := reg.orderly.receivers i cell hcell
      rw [hcell] at serves
      obtain ⟨_, _, _, provider, _⟩ := cell
      cases provider with
      | client k' =>
        obtain ⟨rfl, same⟩ := Bool.and_eq_true_iff.mp serves
        obtain rfl : k' = k := beq_iff_eq.mp same
        cases ω with
        | registry => obtain ⟨⟨_, heq⟩, -⟩ := served; cases heq
        | client =>
          obtain ⟨heq, rfl⟩ := served
          obtain rfl := Service.Provider.client.inj heq
          obtain rfl := of_eq_some channel hρ
          obtain ⟨client, hclient, ok⟩ := reg.client_get? hρ
          unfold World.onRequest
          simp only [hcell]
          cases hm : Request.ofJson? v with
          | none => exact ⟨_, List.mem_singleton.mpr rfl, rfl⟩
          | some m =>
            rw [hm] at none
            have uncalled : Call.ofJson? m.payload = Option.none := by simpa using none
            refine ⟨.closeChannel client.channel, ?_, congrArg (· / 2) ok.channel⟩
            simp [World.answerTo, World.handleClientRequest, hclient, ok.live, uncalled]
      | _ => cases serves
  · cases serves

theorem Regular.fails (reg : Regular H L w) {t g h : Nat} {f : Future} {cell : ServerHandlerCell}
    {gate : GateCell} {r : Settled} {e : Fault} (hap : Happening L w (.task t) w' more)
    (task : w.tasks.get? t = some (.await f (.gate g))) (hcell : w.serverHandlers.get? h = some cell)
    (hg : cell.gate = g) (hgate : w.gates.get? g = some gate) (waiting : gate.core.phase = .waiting)
    (looked : (w.look f).2.2 = some r) (outcome : outcomeOf r = .error e) :
    more = [.closeServerHandler h] := by
  subst hg
  obtain ⟨_, hη, fit⟩ := reg.orderly.handlers h cell hcell
  have watched : gate.onRejected = some (.serverHandler h) := by
    obtain ⟨_, hγ, ok⟩ := reg.orderly.gates cell.gate gate hgate
    have mine := (reg.coherent.handler hη).1
    rw [← fit.gate] at mine
    cases hγ.symm.trans mine
    exact ok.watched h rfl waiting
  have same : ∀ {f' : Future} {κ : Continuation}, w.tasks.get? t = some (.await f' κ) → f = f' ∧ .gate cell.gate = κ :=
    fun h => Task.await.inj (Option.some.inj (task.symm.trans h))
  cases hap with
  | calm _ _ _ _ closing => exact absurd task (closing f _)
  | pumping task' => cases task.symm.trans task'
  | waited task' _ looked' =>
    obtain ⟨rfl, -⟩ := same task'
    rw [looked'] at looked
    cases looked
  | finished task' _ quiet =>
    obtain ⟨g, heq, moot | ⟨_, -, unwaiting⟩⟩ := quiet f _ (Option.some.inj (task'.symm.trans task))
    · simp [isMoot, hgate, waiting] at moot
    · obtain rfl := Continuation.gate.inj heq
      exact absurd waiting (unwaiting gate hgate)
  | resolved task' | answered task' | muted task' => cases (same task').2
  | opened =>
    grind
  | failed =>
    grind [fit.live]

/-- What readiness was seen is what a task found. -/
theorem Advance.readiness (v : Advance ts x m L L' κ w' more rest) {h : Nat} {o : Outcome}
    (seen : (x.transition m).readiness? h = some o) :
    ∃ t f cell gate r, κ = .task t ∧ x.world.tasks.get? t = some (.await f (.gate cell.gate)) ∧
      x.world.serverHandlers.get? h = some cell ∧ x.world.gates.get? cell.gate = some gate ∧
      gate.core.phase = .waiting ∧ (x.world.look f).2.2 = some r ∧ outcomeOf r = o := by
  unfold Transition.readiness? at seen
  rw [v.occurs.polled] at seen
  cases κ with
  | action | owner => cases seen
  | task t =>
    rw [Cause.polled?] at seen
    split at seen
    · split at seen
      · next hc =>
        obtain ⟨holds, waits⟩ := Bool.and_eq_true_iff.mp hc
        obtain ⟨cell, _, _⟩ := (Option.any_eq_true _ _).mp holds
        obtain ⟨gate, _, _⟩ := (Option.any_eq_true _ _).mp waits
        grind
      · cases seen
    · cases seen

/-! ## A client handler that falls -/

def Exchange.Falling (x : Exchange) (k : Nat) (ρ : ClientRole) : Prop :=
  x.Ending (.client k) ∨ x.Ending (.handler ρ.handler) ∨ x.Ending (.channel ρ.channel) ∨
    x.Ending (.channel near)

section

variable (s : Steady ts x L) (v : Advance ts x m L L' κ w' more rest) {k : Nat}
include s v

theorem Advance.falling {ρ : ClientRole} (hρ : L.client k = some ρ) (h : x.Falling k ρ) :
    Exchange.Falling ⟨w', more ++ rest⟩ k ρ := by
  obtain ⟨client, handler, channel⟩ := s.has_client hρ
  exact h.imp (v.ending s client) (.imp (v.ending s handler) (.imp (v.ending s channel)
    (v.ending s (Nat.lt_of_lt_of_le Nat.zero_lt_two s.linked))))

theorem Advance.topples (h : (x.transition m).topples k) :
    ∃ ρ, L.client k = some ρ ∧ Exchange.Falling ⟨w', more ++ rest⟩ k ρ := by
  obtain ⟨going, cell, hcell, reason⟩ := h
  replace going : x.world.aborted = none := going
  obtain ⟨ρ, hρ, ok⟩ := s.regular.orderly.clients k cell hcell
  refine ⟨ρ, hρ, ?_⟩
  -- An owner's move puts its action on the agenda.
  have ordered : ∀ (a : Action) {target : Target}, x.step m = ⟨x.world, a :: x.agenda⟩ → a.closes target →
      Exchange.Ending ⟨w', more ++ rest⟩ target := by
    intro a target after closes
    rw [← v.occurs.after, after]
    exact .inr ⟨a, .head _, closes⟩
  cases reason with
  | client move =>
    obtain rfl : m = .closeClient k := move
    exact .inl (ordered (.closeClientHandler k) (by simp [step, going, Move.apply]) rfl)
  | handler move =>
    obtain rfl : m = .closeHandler cell.serverHandler := move
    exact .inr (.inl (ordered (.closeServerHandler _) (by simp [step, going, Move.apply]) ok.handler))
  | @channel c move ends =>
    obtain rfl : m = .close c := move
    exact .inr (.inr (.inl (ordered (.closeChannel c) (by simp [step, going, Move.apply]) (ok.channel ▸ ends))))
  | @server c move ends =>
    obtain rfl : m = .close c := move
    exact .inr (.inr (.inr (ordered (.closeChannel c) (by simp [step, going, Move.apply]) ends)))
  | unready seen =>
    obtain ⟨_, _, handler, _, _, rfl, task, hhandler, hgate, waiting, looked, outcome⟩ :=
      v.readiness seen
    have next := s.regular.fails v.occurs.happening task hhandler rfl hgate waiting looked outcome
    refine .inr (.inl (.of_mem (a := .closeServerHandler cell.serverHandler) ?_ ok.handler))
    rw [next]
    exact List.mem_singleton.mpr rfl
  | @malformed c service payload delivered serves none =>
    rw [v.occurs.delivered] at delivered
    obtain ⟨a, ha, closes⟩ := s.regular.refuses hρ serves none
    refine .inr (.inr (.inl (.of_mem ?_ closes)))
    cases κ with
    | task | owner => cases delivered
    | action b =>
      cases b with
      | deliver c' service' payload' =>
        obtain ⟨rfl, rfl, rfl⟩ : c' = c ∧ service' = service ∧ payload' = payload := by
          simpa [Cause.delivered?] using delivered
        have outcome : (w', more) = x.world.perform _ := v.occurs.outcome
        rwa [← outcome] at ha
      | _ => cases delivered

end

def Toppled (ts : List Transition) (x : Exchange) (L : Ledger) : Prop :=
  ∀ k, (∃ t ∈ ts, t.topples k) → ∃ ρ, L.client k = some ρ ∧ x.Falling k ρ

theorem Toppled.step (s : Steady ts x L) (h : Toppled ts x L) (v : Advance ts x m L L' κ w' more rest) :
    Toppled (ts ++ [x.transition m]) ⟨w', more ++ rest⟩ L' := by
  rintro k ⟨t, ht, tops⟩
  rcases List.mem_append.mp ht with old | new
  · obtain ⟨ρ, hρ, falling⟩ := h k ⟨t, old, tops⟩
    exact ⟨ρ, v.grows.client hρ, v.falling s hρ falling⟩
  · obtain rfl := List.mem_singleton.mp new
    obtain ⟨ρ, hρ, falling⟩ := v.topples s tops
    exact ⟨ρ, v.grows.client hρ, falling⟩

namespace Collapse

variable (c : Collapse x L) (idle : x.agenda = []) {k : Nat} {ρ : ClientRole} (hρ : L.client k = some ρ)
include c idle hρ

/-- A client handler is closed just when its server handler is, and then its channel is closed. -/
theorem closed_iff : (x.world.gone (.client k) = true ↔ x.world.gone (.handler ρ.handler) = true) ∧
    (x.world.gone (.client k) = true → x.world.isOpen ρ.channel = false) := by
  refine ⟨⟨fun gone => ?_, fun gone => ?_⟩, fun gone => ?_⟩
  · exact (c.client k ρ hρ gone).1.gone idle
  · exact (c.handler k ρ hρ gone).gone idle
  · exact isOpen_of_gone ((c.client k ρ hρ gone).2.gone idle)

theorem falls (s : Steady ts x L) (h : x.Falling k ρ) : x.world.gone (.client k) = true := by
  have stands : x.world.gone (.handler ρ.handler) = true → x.world.gone (.client k) = true :=
    (c.closed_iff idle hρ).1.mpr
  obtain client | handler | channel | server := h
  · exact client.gone idle
  · exact stands (handler.gone idle)
  · have closed := isOpen_of_gone (channel.gone idle)
    obtain ending | pending | ⟨isOpen, -⟩ := c.guarded k ρ hρ
    · exact ending.gone idle
    · exact absurd (idle ▸ pending) List.not_mem_nil
    · cases isOpen.symm.trans closed
  · have closed := isOpen_of_gone (server.gone idle)
    exact stands ((c.stranded closed ρ.handler (s.has_client hρ).2.1).gone idle)

end Collapse

/-- Nothing is sent on a closed channel that a client handler served, nor for a closed server handler. -/
theorem Advance.silent (s : Steady ts x L) (v : Advance ts x m L L' κ w' more rest) {c h : Nat}
    (hc : isHandlerEnd c = true) (closed : x.world.isOpen c = false)
    (gone : x.world.gone (.handler h) = true) :
    (x.transition m).sent c = [] ∧
      ((x.transition m).sent near).filter (concerns h) = [] := by
  have world : (x.step m).world = w' := by rw [v.occurs.after]
  constructor
  · cases s.regular.reporting v.occurs.happening hc with
    | silent same => exact v.sent_of_silent same
    | report _ _ _ isOpen => cases closed.symm.trans isOpen
  · obtain ⟨_, side⟩ := v.nearSide s
    rw [side.sent world]
    exact ((side.conduct h).of_gone (gone_handler_iff_standing.mp gone)).2

/-- Nothing is ever sent for a client handler that is closed with all that belongs to it. -/
theorem Steady.silent (s : Steady ts x L) {c h : Nat} (hc : isHandlerEnd c = true)
    (closed : x.world.gone (.channel c) = true) (gone : x.world.gone (.handler h) = true) (ms : List Move) :
    ∀ t ∈ x.trace ms, t.sent c = [] ∧ (t.sent near).filter (concerns h) = [] := by
  induction ms generalizing ts x L with
  | nil => exact fun t ht => absurd ht List.not_mem_nil
  | cons m _ ih =>
    obtain ⟨_, w', _, _, _, v⟩ := s.advance m
    intro t ht
    rcases List.mem_cons.mp ht with rfl | later
    · exact v.silent s hc (isOpen_of_gone closed) gone
    · have after : (x.step m).world = w' := by rw [v.occurs.after]
      exact ih (v.steady s) (by rw [after]; exact v.gone_mono s closed)
        (by rw [after]; exact v.gone_mono s gone) t later

/-- Once the agenda is worked off, which it is in the end, a client handler is closed just when its server
handler is, and then its channel is closed; it is closed if its channel or the server channel is, or if it
was made to close; and from then on nothing is sent on its channel, nor for it on the server channel. -/
theorem client_handler_falls_whole (serve : Serving) (ms : List Move) (k : Nat)
    (cell : ClientHandlerCell)
    (client : ((opening serve).run ms).world.clientHandlers.get? k = some cell) :
    let x := (opening serve).run ms
    (∃ bound, ∀ n, bound ≤ n → (x.run (List.replicate n .proceed)).world = drain n x.agenda x.world ∧
      ((x.run (List.replicate n .proceed)).agenda = [] ∨
        (x.run (List.replicate n .proceed)).world.aborted.isSome = true)) ∧
    (x.agenda = [] → ∃ handler, x.world.serverHandlers.get? cell.serverHandler = some handler ∧
      (cell.disposed = true ↔ handler.disposed = true) ∧
      (cell.disposed = true → x.world.isOpen cell.channel = false) ∧
      (x.world.isOpen cell.channel = false ∨ x.world.isOpen near = false ∨
        (∃ t ∈ (opening serve).trace ms, t.topples k) → cell.disposed = true) ∧
      (cell.disposed = true → ∀ later, ∀ t ∈ x.trace later, t.sent cell.channel = [] ∧
        (t.sent near).filter (concerns cell.serverHandler) = [])) := by
  obtain ⟨L, s, c, toppled⟩ := steady_induction (A := fun _ => True)
    (P := fun ts x L => Collapse x L ∧ Toppled ts x L)
    ⟨.opening serve, fun k ⟨t, ht, _⟩ => absurd ht List.not_mem_nil⟩
    (fun ts x _ L _ _ _ _ _ s ⟨c, toppled⟩ _ v => ⟨c.step s v, toppled.step s v⟩) ms
    fun _ _ => trivial
  obtain ⟨ρ, hρ, ok⟩ := s.regular.orderly.clients k cell client
  obtain ⟨-, hasHandler, hasChannel⟩ := s.has_client hρ
  refine ⟨⟨_, fun n hn => ⟨run_proceed _ n, s.settles hn⟩⟩, fun idle => ?_⟩
  obtain ⟨handler, hhandler⟩ := Table.get?_isSome_of_lt hasHandler
  -- The cells say what `gone` says.
  have client_gone : ((opening serve).run ms).world.gone (.client k) = cell.disposed := by
    simp [gone, client]
  have handler_gone : ((opening serve).run ms).world.gone (.handler ρ.handler) = handler.disposed := by
    simp [gone, hhandler]
  obtain ⟨both, closed⟩ := c.closed_iff idle hρ
  have falls := c.falls idle hρ s
  rw [client_gone] at both closed falls
  rw [handler_gone] at both
  rw [ok.handler, ok.channel]
  refine ⟨handler, hhandler, both, closed, fun reason => falls ?_, fun gone later => ?_⟩
  · obtain closed | closed | tops := reason
    · exact .inr (.inr (.inl (.inl (gone_of_isOpen hasChannel closed))))
    · exact .inr (.inr (.inr (.inl (gone_of_isOpen
        (Nat.lt_of_lt_of_le Nat.zero_lt_two s.linked) closed))))
    · obtain ⟨_, hρ', falling⟩ := toppled k tops
      exact Option.some.inj (hρ.symm.trans hρ') ▸ falling
  · exact s.silent (s.regular.coherent.client hρ).1 (gone_of_isOpen hasChannel (closed gone))
      (handler_gone.trans (both.mp gone)) later

def outburst : List Move :=
  [.hire "checker", .connect, .accept 3 .always none (.manual 0), .proceed,
    .send 2 (Service.request Service.clientRequester) .null, .poll 2] ++ List.replicate 16 .proceed

/-- A client handler that gets what is no request is closed, and silent ever after. -/
theorem client_handler_falls_whole_malformed : ∃ cell,
    ((opening oblige).run outburst).world.clientHandlers.get? 0 = some cell ∧
      cell.disposed = true ∧
      ((opening oblige).run outburst).world.isOpen cell.channel = false ∧
      ∀ later, ∀ t ∈ ((opening oblige).run outburst).trace later,
        t.sent cell.channel = [] ∧ (t.sent near).filter (concerns cell.serverHandler) = [] := by
  have served : (((opening oblige).run outburst).world.clientHandlers.get?
      0).isSome = true := by decide +kernel
  have idle : ((opening oblige).run outburst).agenda.isEmpty = true := by
    decide +kernel
  have refused : ((opening oblige).trace outburst).any (fun t =>
      t.before.world.aborted.isNone && (t.before.world.clientHandlers.get? 0).isSome &&
        t.delivered?.any fun (c, service, v) => t.before.world.serves 0 c service &&
          (t.before.world.arrival? 0 c service v).isNone) = true := by decide +kernel
  obtain ⟨cell, hcell⟩ := Option.isSome_iff_exists.mp served
  obtain ⟨t, _, seen⟩ := List.any_eq_true.mp refused
  obtain ⟨⟨going, known⟩, garbled⟩ := by simpa only [Bool.and_eq_true] using seen
  obtain ⟨⟨c, service, v⟩, delivered, garbled⟩ := (Option.any_eq_true _ _).mp garbled
  obtain ⟨serves, none⟩ := Bool.and_eq_true_iff.mp garbled
  obtain ⟨before, hbefore⟩ := Option.isSome_iff_exists.mp known
  have tops : t.topples 0 := ⟨Option.isNone_iff_eq_none.mp going, before, hbefore,
    .malformed delivered serves (Option.isNone_iff_eq_none.mp none)⟩
  obtain ⟨_, -, -, _, _, _⟩ :=
    (client_handler_falls_whole _ _ 0 cell hcell).2 (List.isEmpty_iff.mp idle)
  grind

end Switchboard
