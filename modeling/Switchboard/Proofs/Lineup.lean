import Switchboard.Proofs.Conduct
import Switchboard.Proofs.GateSteps

/-!
# Requests keep their order

The jobs of a gate stand in a line: the one that is being let through, and then those that wait. The
requests of a client are in the line of its permission gate and after that in the line of its readiness
gate, in the order of their arrival and without a gap; those before them have been sent to the server,
each under its own number. `Steady` is the invariant of all runs that says so, together with what was
shown before.
-/

namespace Switchboard

open Exchange History

variable {H : History} {L L' : Ledger} {w w' : World} {κ : Cause} {more rest : List Action}

/-! ## Crews -/

/-- Who is at work at a gate: nobody, or one who looks for the next job after at most one job. -/
inductive Crewed (g : Nat) : Bool → List Action → Prop
  | resting : Crewed g false []
  | looking : Crewed g true [.dispatchNext g]
  | handing (job : Job) (t : Nat) : Crewed g true [.invoke job t, .dispatchNext g]

variable {γ : GateRole} {g : Nat}

variable {d d' : Deferred Job Nat}

theorem GateStep.crewed (h : GateStep L w γ g d κ d' more) (hγ : L.gate g = some γ)
    (hc : Crewed g d.flushing (crew L γ κ.consumed ++ rest)) : Crewed g d'.flushing (more ++ rest) := by
  cases h with
  | idle taken | joined _ taken | refused taken => rwa [taken] at hc
  | started resting =>
    rw [resting, show crew L γ (Cause.action (.flush g)).consumed = [] from rfl] at hc
    cases hc
    exact .looking
  | paused =>
    rw [Cause.consumed, crew_dispatchNext hγ] at hc
    generalize d.flushing = f at hc
    cases hc
    exact .resting
  | released =>
    rw [Cause.consumed, crew_dispatchNext hγ] at hc
    generalize d.flushing = f at hc ⊢
    cases hc
    exact .handing ..
  | invoked lane =>
    rw [Cause.consumed, crew_of_pos lane] at hc
    generalize d.flushing = f at hc ⊢
    cases hc
    exact .looking
  | shut taken _ _ flushing =>
    rw [taken] at hc
    rwa [flushing]
  | opened | failed => exact hc

/-! ## Lines -/

namespace Deferred

def Intact (d : Deferred Job Nat) : Prop := d.phase = .waiting ∨ d.phase = .ready

def tickets (d : Deferred Job Nat) : List Nat :=
  match d.phase with
  | .waiting => d.queue.map Prod.snd
  | .ready => d.queue.map Prod.snd
  | _ => []

variable {d : Deferred Job Nat}

theorem tickets_of_intact (h : d.Intact) : d.tickets = d.queue.map Prod.snd := by
  unfold tickets
  rcases h with h | h <;> rw [h]

theorem tickets_of_not_intact (h : ¬ d.Intact) : d.tickets = [] := by
  unfold tickets
  split
  · next hp => exact absurd (.inl hp) h
  · next hp => exact absurd (.inr hp) h
  · rfl

end Deferred

/-- The tickets of the jobs at a gate: of those that are being let through, and of those that wait. -/
def line (crew : List Action) (d : Deferred Job Nat) : List Nat :=
  crew.filterMap Action.ticket? ++ d.tickets

/-- What can happen to the line of a gate. -/
inductive LineStep (L : Ledger) (w : World) (γ : GateRole) (κ : Cause) (d d' : Deferred Job Nat)
    (line line' : List Nat) : Prop
  | kept (same : line' = line)
      (away : ∀ job t, κ = .action (.invoke job t) → (Action.invoke job t).lane L ≠ some γ)
      (unentered : Entering w κ γ → d' = d ∧ ¬ d'.Intact) (intact : d'.Intact → d.Intact)
  | joined (entered : Entered w κ γ) (intact : d.Intact) (intact' : d'.Intact)
      (grown : line' = line ++ [w.promises.size]) (job : Job) (mem : (job, w.promises.size) ∈ d'.queue)
  | taken (job : Job) (t : Nat) (cause : κ = .action (.invoke job t))
      (lane : (Action.invoke job t).lane L = some γ) (line_eq : line = t :: line') (same : d' = d)
  | cut (shut : ¬ d'.Intact) (less : line' <+: line)
      (away : ∀ job t, κ = .action (.invoke job t) → (Action.invoke job t).lane L ≠ some γ)
      (reason : d'.phase = .disposed ∨ (∃ t, κ = .task t) ∧ (∃ e, d'.phase = .failed e) ∧
        d.phase = .waiting ∧ ∀ t ∈ line, t ∈ line' ∨ t ∈ d.queue.map Prod.snd)

theorem lane_ne_of_taken (taken : crew L γ κ.consumed = []) (job : Job) (t : Nat)
    (hκ : κ = .action (.invoke job t)) : (Action.invoke job t).lane L ≠ some γ := by
  subst hκ
  intro lane
  rw [Cause.consumed, crew_of_pos lane] at taken
  cases taken

/-- What can happen to the line of a gate, given that its crew is in order. -/
theorem GateStep.line (h : GateStep L w γ g d κ d' more) (hγ : L.gate g = some γ)
    (hc : Crewed g d.flushing (crew L γ κ.consumed ++ rest)) :
    LineStep L w γ κ d d' (line (crew L γ κ.consumed ++ rest) d) (line (more ++ rest) d') := by
  unfold Switchboard.line
  cases h with
  | idle taken none =>
    exact .kept (by rw [taken]) (lane_ne_of_taken taken) (fun he => absurd he none) id
  | joined job taken entered phase =>
    have intact' : (d.queued job w.promises.size).Intact := phase
    refine .joined entered phase intact' ?_ job ?_
    · rw [taken, Deferred.tickets_of_intact phase, Deferred.tickets_of_intact intact']
      simp [Deferred.queued]
    · simp [Deferred.queued]
  | refused taken _ phase =>
    refine .kept (by rw [taken]) (lane_ne_of_taken taken) (fun _ => ⟨rfl, fun hi => ?_⟩) id
    exact hi.elim phase.1 phase.2
  | started =>
    refine .kept rfl (by rintro _ _ ⟨⟩) ?_ id
    rintro ⟨⟨⟩⟩
  | paused =>
    rw [Cause.consumed, crew_dispatchNext hγ]
    refine .kept rfl (by rintro _ _ ⟨⟩) ?_ id
    rintro ⟨⟨⟩⟩
  | @released job t rest' ready queue =>
    rw [Cause.consumed, crew_dispatchNext hγ] at hc ⊢
    obtain rfl : rest = [] := by
      generalize d.flushing = f at hc
      cases hc
      rfl
    refine .kept ?_ (by rintro _ _ ⟨⟩) ?_ fun _ => .inr ready
    · rw [Deferred.tickets_of_intact (.inr ready), queue,
        Deferred.tickets_of_intact (d := { d with queue := rest' }) (.inr ready)]
      rfl
    · rintro ⟨⟨⟩⟩
  | @invoked job t lane =>
    rw [Cause.consumed, crew_of_pos lane]
    exact .taken job t rfl lane rfl rfl
  | shut taken _ phase =>
    have shut : ¬ d'.Intact := by
      rintro (h | h) <;> cases phase.symm.trans h
    refine .cut shut ?_ (lane_ne_of_taken taken) (.inl phase)
    rw [taken, Deferred.tickets_of_not_intact shut, List.append_nil]
    exact List.prefix_append ..
  | opened waiting =>
    refine .kept ?_ (by rintro _ _ ⟨⟩) ?_ fun _ => .inl waiting
    · rw [Deferred.tickets_of_intact (.inl waiting),
        Deferred.tickets_of_intact (d := { d with phase := .ready }) (.inr rfl)]
      rfl
    · rintro ⟨⟨⟩⟩
  | failed e waiting =>
    have shut : ¬ ({ d with phase := .failed e, queue := [] } : Deferred Job Nat).Intact := by
      rintro (h | h) <;> cases h
    refine .cut shut ?_ (by rintro _ _ ⟨⟩) (.inr ⟨⟨_, rfl⟩, ⟨e, rfl⟩, waiting, fun t ht => ?_⟩)
    · rw [Deferred.tickets_of_not_intact shut, List.append_nil]
      exact List.prefix_append ..
    · rw [Deferred.tickets_of_intact (.inl waiting)] at ht
      rw [Deferred.tickets_of_not_intact shut, List.append_nil]
      exact List.mem_append.mp ht

/-! ## Ranks -/

def Ranked (L : Ledger) (role : Nat → Role) : Nat → List Nat → Prop
  | _, [] => True
  | n, t :: ts => L.promise t = some (role n) ∧ Ranked L role (n + 1) ts

namespace Ranked

variable {role : Nat → Role} {n t : Nat} {ts ts' : List Nat}

theorem mono (ext : L.Extends L') (h : Ranked L role n ts) : Ranked L' role n ts := by
  induction ts generalizing n with
  | nil => trivial
  | cons _ _ ih => exact ⟨ext.promise h.1, ih h.2⟩

theorem concat (h : Ranked L role n ts) (ht : L.promise t = some (role (n + ts.length))) :
    Ranked L role n (ts ++ [t]) := by
  induction ts generalizing n with
  | nil => exact ⟨ht, trivial⟩
  | cons t' ts ih =>
    refine ⟨h.1, ih h.2 ?_⟩
    rwa [show n + 1 + ts.length = n + (t' :: ts).length by simp; omega]

theorem initial (h : Ranked L role n ts) (hp : ts' <+: ts) : Ranked L role n ts' := by
  induction ts' generalizing n ts with
  | nil => trivial
  | cons _ _ ih =>
    cases ts with
    | nil => exact absurd (List.prefix_nil.mp hp) nofun
    | cons =>
      obtain ⟨rfl, tail⟩ := List.cons_prefix_cons.mp hp
      exact ⟨h.1, ih h.2 tail⟩

end Ranked

/-! ## Newcomers -/

/-- Who is new in a world. -/
inductive Newcomers (L : Ledger) (w : World) (κ : Cause) (w' : World) : Prop
  | none (gates : w'.gates.size = w.gates.size)
      (asked : ∀ k id call, κ.arrival? w k = some (id, call) → (∃ ρ, L.client k = some ρ) ∧
        ∃ cell, w.clientHandlers.get? k = some cell ∧ (cell.disposed = true ∨ cell.gate.isSome = true))
  | gate {k p : Nat} {ρ : ClientRole} {cell : ClientHandlerCell} {id : Nat} {call : Call}
      (client : L.client k = some ρ) (handler : w.clientHandlers.get? k = some cell)
      (undisposed : cell.disposed = false)
      (asked : ∀ k', κ.arrival? w k' = if k' = k then some (id, call) else none)
      (gates : w'.gates = w.gates.push { core := { queue := [(.forward ρ.handler call, p)] } })
      (fresh : w.promises.size ≤ p)
      (clients : w'.clientHandlers = w.clientHandlers.modify k fun c =>
        { c with gate := some w.gates.size })
  | handler {gate : GateCell} (unasked : ∀ k, κ.arrival? w k = .none) (gates : w'.gates = w.gates.push gate)
      (empty : gate.core.queue = [] ∧ gate.core.flushing = false) (unfailed : ∀ e, gate.core.phase ≠ .failed e)
      (clients : ∀ k cell, w.clientHandlers.get? k = some cell → w'.clientHandlers.get? k = some cell)

variable {h : Nat} {gate : GateCell}

theorem World.freshGate_empty (hg : gate = freshGate h ∨ gate = shutGate (freshGate h)) :
    gate.core.queue = [] ∧ gate.core.flushing = false := by
  rcases hg with rfl | rfl <;> exact ⟨rfl, rfl⟩

theorem World.freshGate_unfailed (hg : gate = freshGate h ∨ gate = shutGate (freshGate h)) (e : Fault) :
    gate.core.phase ≠ .failed e := by
  rcases hg with rfl | rfl <;> exact nofun

/-- Newcomers are few. -/
theorem Happening.newcomers (hap : Happening L w κ w' more) : Newcomers L w κ w' := by
  have quiet : ∀ {κ : Cause} {w' : World}, w'.gates.size = w.gates.size →
      (∀ k, κ.arrival? w k = none) → Newcomers L w κ w' := fun gates asked =>
    .none gates fun k id call heq => absurd ((asked k).symm.trans heq) nofun
  -- A request that comes to a client handler which has a gate, or is closed.
  have known : ∀ {κ : Cause} {w' : World} {k id : Nat} {ρ : ClientRole} {cell : ClientHandlerCell}
      {call : Call}, w'.gates.size = w.gates.size → L.client k = some ρ →
      w.clientHandlers.get? k = some cell → cell.disposed = true ∨ cell.gate.isSome = true →
      (∀ k', κ.arrival? w k' = if k' = k then some (id, call) else none) → Newcomers L w κ w' := by
    refine fun gates client handler settled arrival => .none gates fun k' _ _ heq => ?_
    rw [arrival k'] at heq
    split at heq
    · next hk => exact hk ▸ ⟨⟨_, client⟩, _, handler, settled⟩
    · cases heq
  cases hap with
  | calm trifling calm =>
    refine quiet (by rw [calm.gates]) fun k => ?_
    cases κ with
    | action a => cases a <;> first | rfl | cases trifling
    | task | owner => rfl
  | ignored none calm => exact quiet (by rw [calm.gates]) none
  | vacant reason =>
    refine quiet rfl fun k => ?_
    obtain ⟨_, rfl⟩ | ⟨_, rfl, -⟩ := reason <;> rfl
  | breach cause =>
    obtain ⟨_, _, _, rfl⟩ | ⟨_, _, _, rfl, none⟩ := cause
    · exact quiet rfl fun _ => rfl
    · exact quiet rfl none
  | settled _ none | garbled _ none | asked none | arrived _ none | departed none => exact quiet rfl none
  | joined client handler held arrival =>
    exact known (Table.size_modify ..) client handler (.inr (by rw [held]; rfl)) arrival
  | late client handler disposed arrival => exact known rfl client handler (.inl disposed) arrival
  | first client handler undisposed _ arrival _ made =>
    refine .gate client handler undisposed arrival rfl ?_ rfl
    grind
  | shutHandler | flushed | paused | released | opened | failed | forwarded | handled =>
    exact quiet (Table.size_modify ..) fun _ => rfl
  | @shutClient _ cell =>
    refine quiet ?_ fun _ => rfl
    cases cell.gate with
    | none => rfl
    | some => exact Table.size_modify ..
  | admitted _ _ gate_eq =>
    exact .handler (fun _ => rfl) rfl (World.freshGate_empty gate_eq) (World.freshGate_unfailed gate_eq)
      fun _ _ hk => (Table.get?_push_of_lt (Table.lt_size_of_get? hk) _).trans hk
  | attached _ _ gate_eq =>
    exact .handler (fun _ => rfl) rfl (World.freshGate_empty gate_eq) (World.freshGate_unfailed gate_eq)
      fun _ _ hk => hk
  | _ => exact quiet rfl fun _ => rfl

end Switchboard
