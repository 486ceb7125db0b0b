import Switchboard.Proofs.Happening

/-!
# Moves and their causes

A move of an exchange lets one thing happen: an action of the agenda, a task, or a call of an owner.
What a transition shows, and how the history grows by it, is read off its cause.
-/

namespace Switchboard

open Exchange History

namespace Cause

def delivered? : Cause → Option (Nat × String × Json)
  | .action (.deliver c service payload) => some (c, service, payload)
  | _ => none

/-- What a cause leads to: the world afterwards, and what is to be done at once. -/
def Yields (w : World) : Cause → World × List Action → Prop
  | .action a, after => after = w.perform a
  | .task t, after => after = w.poll t
  | .owner m, after => after = m.apply w ∨ after.2 = [] ∧ ∃ clock, after.1 = { w with clock := clock }

def polled? (w : World) : Cause → Option (Nat × Task)
  | .task t => (w.tasks.get? t).map fun task => (t, task)
  | _ => none

end Cause

/-- A move lets something happen: the head of the agenda, a task or a call of an owner. -/
structure Occurs (L : Ledger) (x : Exchange) (m : Move) (κ : Cause) (w' : World)
    (more rest : List Action) : Prop where
  agenda : x.agenda = κ.consumed ++ rest
  after : x.step m = ⟨w', more ++ rest⟩
  happening : Happening L x.world κ w' more
  delivered : (x.transition m).delivered? = κ.delivered?
  polled : (x.transition m).polled? = κ.polled? x.world
  idle : ∀ t, κ = .task t → x.agenda = []
  outcome : κ.Yields x.world (w', more)
  owner : ∀ m', κ = .owner m' → m' = m

variable {H : History} {L : Ledger}

/-- What an exchange does next, by its cause. -/
inductive Next (x : Exchange) (m : Move) : Prop
  | action (a : Action) (rest : List Action) (agenda : x.agenda = a :: rest)
      (delivered : (x.transition m).delivered? = (Cause.action a).delivered?)
      (polled : (x.transition m).polled? = none)
      (after : x.step m = ⟨(x.world.perform a).1, (x.world.perform a).2 ++ rest⟩)
  | task (t : Nat) (agenda : x.agenda = [])
      (delivered : (x.transition m).delivered? = none)
      (polled : (x.transition m).polled? = (Cause.task t).polled? x.world)
      (after : x.step m = ⟨(x.world.poll t).1, (x.world.poll t).2⟩)
  | owner (after : x.step m = ⟨(m.apply x.world).1, (m.apply x.world).2 ++ x.agenda⟩)
      (delivered : (x.transition m).delivered? = none)
      (polled : (x.transition m).polled? = none)
  | tick (ms : Nat) (move : m = .tick ms) (agenda : x.agenda = [])
      (delivered : (x.transition m).delivered? = none)
      (polled : (x.transition m).polled? = none)
      (after : x.step m = ⟨{ x.world with clock := x.world.clock + ms }, []⟩)
  | none (after : x.step m = x)
      (delivered : (x.transition m).delivered? = none)
      (polled : (x.transition m).polled? = none)

theorem Exchange.next (x : Exchange) (m : Move) : Next x m := by
  cases ha : x.world.aborted with
  | some =>
    refine .none ?_ ?_ ?_
    · simp [step, ha]
    · simp [Transition.delivered?, ha]
    · simp [Transition.polled?, ha]
  | none =>
    cases m with
    | proceed =>
      cases hg : x.agenda with
      | nil =>
        refine .none ?_ ?_ ?_
        · simp [step, ha, hg]
        · simp [Transition.delivered?, ha, hg]
        · simp [Transition.polled?]
      | cons a rest =>
        refine .action a rest hg ?_ ?_ (by simp [step, ha, hg])
        · simp only [Transition.delivered?, ha, hg]
          cases a <;> rfl
        · simp [Transition.polled?]
    | poll t =>
      cases hg : x.agenda with
      | nil =>
        refine .task t hg ?_ ?_ (by simp [step, ha, hg])
        · simp [Transition.delivered?]
        · simp only [Transition.polled?, ha, hg, Cause.polled?]
      | cons =>
        refine .none ?_ ?_ ?_
        · simp [step, ha, hg]
        · simp [Transition.delivered?]
        · simp [Transition.polled?, ha, hg]
    | tick ms =>
      cases hg : x.agenda with
      | nil =>
        refine .tick ms rfl hg ?_ ?_ (by simp [step, ha, hg])
        · simp [Transition.delivered?]
        · simp [Transition.polled?]
      | cons =>
        refine .none ?_ ?_ ?_
        · simp [step, ha, hg]
        · simp [Transition.delivered?]
        · simp [Transition.polled?]
    | _ =>
      refine .owner ?_ ?_ ?_
      · simp [step, ha]
      · simp [Transition.delivered?]
      · simp [Transition.polled?]

theorem Happening.tick (L : Ledger) (w : World) (ms : Nat) :
    Happening L w (.owner (.tick ms)) { w with clock := w.clock + ms } [] :=
  .calm rfl { World.Calm.refl w with outgoing := fun _ => rfl } (.nil _) (.inl rfl) trivial
    ⟨rfl, rfl, rfl, fun _ => rfl⟩

theorem Happening.refl (L : Ledger) (w : World) (m : Move) : Happening L w (.owner m) w [] :=
  .calm rfl (.refl w) (.nil _) (.inl rfl) trivial (.refl nofun nofun)

/-! ## The history grows -/

namespace History

theorem arrivals_ofTrace (ts : List Transition) (t : Transition) (k : Nat) :
    (ofTrace (ts ++ [t])).arrivals k = (ofTrace ts).arrivals k ++ (t.request? k).toList := by
  unfold ofTrace
  cases h : t.request? k <;> simp [h]

theorem extends_ofTrace (ts : List Transition) (t : Transition) :
    (ofTrace ts).Extends (ofTrace (ts ++ [t])) where
  sent := fun ⟨t', ht', hm⟩ => ⟨t', List.mem_append_left _ ht', hm⟩
  arrivals k := by
    rw [arrivals_ofTrace]
    exact List.prefix_append ..
  verdict := fun ⟨t', ht', hv⟩ => ⟨t', List.mem_append_left _ ht', hv⟩

end History

theorem Occurs.request {x : Exchange} {m : Move} {κ : Cause} {w' : World} {more rest : List Action}
    (h : Occurs L x m κ w' more rest) (k : Nat) :
    (x.transition m).request? k = κ.arrival? x.world k := by
  unfold Transition.request?
  rw [h.delivered]
  cases κ with
  | action a => cases a <;> rfl
  | task | owner => rfl

theorem Regular.later {H' : History} {w : World} (h : Regular H L w) (hH : H.Extends H') :
    Regular H' L w :=
  ⟨h.orderly.mono hH (.refl L) h.orderly.closed h.orderly.ready h.orderly.left h.orderly.held
    h.orderly.shut, h.coherent, h.bounded⟩

end Switchboard
