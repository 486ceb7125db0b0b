import Switchboard.Proofs.Answering

/-!
# Whom a client handler asks

Nobody asks a checker but a client handler that gets its first request: it asks the checker with which it
was made, about the origin of its client, and has a gate wait for the answer. The gate never waits for
anything else.
-/

namespace Switchboard

open Exchange History

namespace World

/-- How many checks a checker has been asked for. -/
def consulted (w : World) : CheckerRef → Option Nat
  | .manual j => (w.checkers.get? j).map (·.checks.length)
  | .desk d => (w.desks.get? d).map (·.desk.checks.size)

/-- A checker is asked about an origin, and a future is had for the answer. Where somebody decides from
outside, that is a new promise; at a desk, it is a new check. A desk has no question about the
application's own client, which has no origin; a checker that does not exist cannot be asked. -/
inductive Asks (w w' : World) : CheckerRef → Option String → Future → Prop
  | manual {j : Nat} {cell : ManualCell} {origin : Option String} (found : w.checkers.get? j = some cell)
      (noted : w'.checkers = w.checkers.modify j fun c => { c with checks := c.checks ++ [w.promises.size] })
      (logged : w'.events = w.events ++ [⟨w.clock, .checked cell.label origin⟩]) (desks : w'.desks = w.desks) :
      Asks w w' (.manual j) origin (.promise w.promises.size)
  | desk {d : Nat} {cell : DeskCell} {origin : String} (found : w.desks.get? d = some cell)
      (begun : w'.desks = w.desks.modify d fun c =>
        { c with desk := { c.desk with checks := c.desk.checks.push { origin := origin } } })
      (checkers : w'.checkers = w.checkers) :
      Asks w w' (.desk d) (some origin) (.check d cell.desk.checks.size)
  | own {d : Nat} (desks : w'.desks = w.desks) (checkers : w'.checkers = w.checkers) :
      Asks w w' (.desk d) none (.done (.outcome (.ok .null)))
  | missing {checker : CheckerRef} {origin : Option String} {r : Settled} (absent : w.consulted checker = none)
      (desks : w'.desks = w.desks) (checkers : w'.checkers = w.checkers) : Asks w w' checker origin (.done r)

/-- The answer of a checker that has been asked: what was decided from outside, or what a look at the
desk's check brings. -/
def answer? (w : World) : Future → Option Outcome
  | .promise p => (w.promises.get? p).bind Promise.outcome
  | .check d c => (w.desks.get? d).bind fun cell => (cell.desk.look c).2.2.map (·.map fun _ => .null)
  | .done r => some (outcomeOf r)
  | _ => none

variable {w w' : World} {checker : CheckerRef} {origin : Option String} {f : Future}

theorem asks_beginCheck {w₁ : World} (h : w.beginCheck checker origin = (w₁, f))
    (checkers : w'.checkers = w₁.checkers) (desks : w'.desks = w₁.desks) (events : w'.events = w₁.events) :
    Asks w w' checker origin f := by
  unfold beginCheck at h
  cases checker with
  | manual j =>
    dsimp only at h
    split at h
    · next absent =>
      cases h
      exact .missing (by rw [consulted, absent]; rfl) desks checkers
    · next found =>
      cases h
      exact .manual found checkers events desks
  | desk d =>
    cases origin with
    | none =>
      cases h
      exact .own desks checkers
    | some origin =>
      dsimp only at h
      cases found : w.desks.get? d with
      | none =>
        rw [found] at h
        cases h
        exact .missing (by rw [consulted, found]; rfl) desks checkers
      | some cell =>
        rw [found] at h
        cases h
        exact .desk found desks checkers

end World

open World

/-- The first request of a client reaches its handler. -/
def Exchange.Transition.checks (t : Transition) (k : Nat) : Bool :=
  (t.before.world.clientHandlers.get? k).any (fun c => !c.disposed && c.gate.isNone) &&
    (t.after.world.clientHandlers.get? k).any (·.gate.isSome)

variable {H : History} {L L' : Ledger} {w w' : World} {κ : Cause} {more rest : List Action}
  {ts : List Transition} {x : Exchange} {m : Move}

/-- Whether a checker is asked: by nobody, or by the client handler that gets its permission gate. -/
inductive Asking (w w' : World) (κ : Cause) : Prop
  | none (asked : ∀ checker n, w.consulted checker = some n → w'.consulted checker = some n ∨
        ∃ d desk, checker = .desk d ∧ κ = .owner (.revise d desk))
      (gates : ∀ k cell g, w'.clientHandlers.get? k = some cell → cell.gate = some g →
        w.clientHandlers.get? k = some cell)
  | first {k : Nat} {cell : ClientHandlerCell} {f : Future} (handler : w.clientHandlers.get? k = some cell)
      (undisposed : cell.disposed = false) (gate : cell.gate = none)
      (handlers : w'.clientHandlers = w.clientHandlers.modify k fun c => { c with gate := some w.gates.size })
      (asks : Asks w w' cell.checker cell.origin f)
      (tasks : w'.tasks = w.tasks.push (.await f (.gate w.gates.size)))

theorem Asking.of_tables (checkers : ∀ {j cell}, w.checkers.get? j = some cell → w'.checkers.get? j = some cell)
    (desks : SameChecks w.desks w'.desks)
    (gates : ∀ k cell g, w'.clientHandlers.get? k = some cell → cell.gate = some g →
      w.clientHandlers.get? k = some cell) : Asking w w' κ := by
  refine .none (fun checker n h => .inl ?_) gates
  cases checker with
  | manual =>
    obtain ⟨_, found, rfl⟩ := Option.map_eq_some_iff.mp h
    rw [consulted, checkers found]
    rfl
  | desk d =>
    obtain ⟨cell, found, rfl⟩ := Option.map_eq_some_iff.mp h
    obtain ⟨cell', found', same⟩ := desks d cell found
    rw [consulted, found', ← same]
    rfl

theorem Happening.asking (hap : Happening L w κ w' more) : Asking w w' κ := by
  have same : ∀ {w' : World}, w'.checkers = w.checkers → w'.desks = w.desks →
      w'.clientHandlers = w.clientHandlers → Asking w w' κ := fun hc hd hh =>
    .of_tables (fun h => hc ▸ h) (hd ▸ .refl _) fun _ _ _ h _ => hh ▸ h
  cases hap with
  | calm _ calm | ignored _ calm =>
    exact .of_tables calm.checkers calm.desks fun _ _ _ h _ => calm.clients ▸ h
  | first _ handler undisposed gate _ checked =>
    exact .first handler undisposed gate rfl (asks_beginCheck checked rfl rfl rfl) rfl
  | @shutClient k =>
    refine .of_tables id (.refl _) fun k' cell' g h held => ?_
    replace h : (w.clientHandlers.modify k _).get? k' = some cell' := h
    rw [Table.get?_modify] at h
    split at h
    · obtain ⟨_, -, rfl⟩ := Option.map_eq_some_iff.mp h
      cases held
    · exact h
  | admitted =>
    refine .of_tables id (.refl _) fun k' cell' g h held => ?_
    replace h : (w.clientHandlers.push _).get? k' = some cell' := h
    rw [Table.get?_push] at h
    split at h
    · cases h
      cases held
    · exact h
  | waited _ _ _ glance | resolved _ _ glance | muted _ _ glance | answered _ _ glance | opened _ _ _ glance
  | failed _ _ glance =>
    exact .of_tables id glance.desks fun _ _ _ h _ => h
  | finished _ _ _ desks => exact .of_tables id desks fun _ _ _ h _ => h
  | @revised d desk =>
    refine .none (fun checker n h => ?_) fun _ _ _ h _ => h
    cases checker with
    | manual => exact .inl h
    | desk d' =>
      by_cases eq : d' = d
      · exact .inr ⟨d, desk, by rw [eq], rfl⟩
      · refine .inl ?_
        rw [← h]
        exact congrArg (Option.map _) ((Table.get?_modify ..).trans (if_neg (Ne.symm eq)))
  | _ => exact same rfl rfl rfl

theorem World.Glance.task_of {s : Sight} (h : Glance w s) {t : Nat} {f : Future} {c : Continuation}
    (ht : s.tasks.get? t = some (.await f c)) : w.tasks.get? t = some (.await f c) := by
  obtain ⟨grants, tasks⟩ := h.tasks
  rw [tasks] at ht
  clear tasks
  induction grants using List.reverseRecOn with
  | nil => exact ht
  | append_singleton _ grant ih =>
    rw [List.foldl_append, List.foldl_cons, List.foldl_nil, Table.get?_push] at ht
    split at ht
    · cases ht
    · exact ih ht

/-- A gate that was there waits for nothing new. -/
theorem Regular.gate_task (reg : Regular H L w) (ok : ∀ a, κ = .action a → ActionOk H L a)
    (hap : Happening L w κ w' more) {t g : Nat} {f : Future} (old : g < w.gates.size)
    (ht : w'.tasks.get? t = some (.await f (.gate g))) : w.tasks.get? t = some (.await f (.gate g)) := by
  have pushed : ∀ {tasks : Table Task} {task : Task}, (tasks.push task).get? t = some (.await f (.gate g)) →
      task ≠ .await f (.gate g) → tasks.get? t = some (.await f (.gate g)) := fun ht other => by
    rw [Table.get?_push] at ht
    split at ht
    · exact absurd (Option.some.inj ht) other
    · exact ht
  have elsewhere : ∀ f', Task.await f' (.gate w.gates.size) ≠ .await f (.gate g) := by
    rintro _ ⟨⟩
    exact Nat.lt_irrefl _ old
  have modified : ∀ {s : Sight} {i : Nat} {task : Task}, Glance w s →
      (s.tasks.modify i fun _ => task).get? t = some (.await f (.gate g)) →
      (task = .await f (.gate g) → w.tasks.get? i = some (.await f (.gate g))) →
      w.tasks.get? t = some (.await f (.gate g)) := fun glance ht same => by
    rw [Table.get?_modify] at ht
    split at ht
    · next eq =>
      obtain ⟨_, -, heq⟩ := Option.map_eq_some_iff.mp ht
      exact eq ▸ same heq
    · exact glance.task_of ht
  cases hap with
  | calm _ calm | ignored _ calm => rwa [← calm.tasks]
  | first | admitted | attached => exact pushed ht (elsewhere _)
  | arrived | departed => exact pushed ht nofun
  | connected => exact pushed (pushed ht nofun) nofun
  | @spawned task =>
    refine pushed ht ?_
    rintro rfl
    cases (ok _ rfl).2
  | @waited i f' f'' c _ task _ looked glance =>
    refine modified glance ht fun heq => ?_
    obtain ⟨rfl, rfl⟩ := Task.await.inj heq
    obtain ⟨_, -, future⟩ : TaskOk H L (.await f' (.gate g)) := reg.orderly.tasks i _ task
    rw [look_of_plain future.plain] at looked
    obtain rfl : f' = _ := congrArg (·.2.1) looked
    exact task
  | finished _ glance | resolved _ _ glance | answered _ _ glance | muted _ _ glance | opened _ _ _ glance
  | failed _ _ glance => exact modified glance ht nofun
  | _ => exact ht

/-- The permission gate of a client handler waits for the answer of the client's checker, which was asked
about the client's origin. -/
def Consulted (ts : List Transition) (x : Exchange) : Prop :=
  ∀ k cell g, x.world.clientHandlers.get? k = some cell → cell.gate = some g → ∃ t ∈ ts, ∃ f,
    t.checks k = true ∧ t.before.world.Asks t.after.world cell.checker cell.origin f ∧
      ∀ i f', x.world.tasks.get? i = some (.await f' (.gate g)) → f' = f

section

variable (v : Advance ts x m L L' κ w' more rest)
include v

theorem Advance.checks_of_gate {k g : Nat} {cell : ClientHandlerCell}
    (handler : x.world.clientHandlers.get? k = some cell) (undisposed : cell.disposed = false)
    (gate : cell.gate = none)
    (handlers : w'.clientHandlers = x.world.clientHandlers.modify k fun c => { c with gate := some g }) :
    (x.transition m).checks k = true := by
  refine Bool.and_eq_true_iff.mpr ⟨?_, ?_⟩
  · exact (Option.any_eq_true _ _).mpr ⟨cell, handler, by simp [undisposed, gate]⟩
  · refine (Option.any_eq_true _ _).mpr ⟨{ cell with gate := some g }, ?_, rfl⟩
    show (x.step m).world.clientHandlers.get? k = _
    rw [v.occurs.after, handlers, Table.get?_modify_self, handler]
    rfl

/-- No checker is asked, unless a client handler gets its permission gate: then it is the client's checker
that is asked, and about the client's origin. -/
theorem Advance.asking : (∀ checker n, x.world.consulted checker = some n →
      (x.step m).world.consulted checker = some n ∨ ∃ d desk, checker = .desk d ∧ m = .revise d desk) ∨
    ∃ k cell f, x.world.clientHandlers.get? k = some cell ∧ (x.transition m).checks k = true ∧
      x.world.Asks (x.step m).world cell.checker cell.origin f := by
  have world : (x.step m).world = w' := by rw [v.occurs.after]
  rw [world]
  cases v.occurs.happening.asking with
  | none asked =>
    refine .inl fun checker n h => (asked checker n h).imp_right ?_
    rintro ⟨d, desk, rfl, cause⟩
    exact ⟨d, desk, rfl, (v.occurs.owner _ cause).symm⟩
  | first handler undisposed gate handlers asks =>
    exact .inr ⟨_, _, _, handler, v.checks_of_gate handler undisposed gate handlers, asks⟩

theorem Consulted.step (s : Steady ts x L) (h : Consulted ts x) :
    Consulted (ts ++ [x.transition m]) ⟨w', more ++ rest⟩ := by
  have world : (x.step m).world = w' := by rw [v.occurs.after]
  have kept : ∀ {k cell g}, x.world.clientHandlers.get? k = some cell → cell.gate = some g →
      ∃ t ∈ ts ++ [x.transition m], ∃ f, t.checks k = true ∧
        t.before.world.Asks t.after.world cell.checker cell.origin f ∧
        ∀ i f', w'.tasks.get? i = some (.await f' (.gate g)) → f' = f := by
    intro k cell g hcell hg
    obtain ⟨t, ht, f, checks, asks, waits⟩ := h k cell g hcell hg
    obtain ⟨_, -, ok⟩ := s.regular.orderly.clients k cell hcell
    refine ⟨t, List.mem_append_left _ ht, f, checks, asks, fun i f' hi => waits i f' ?_⟩
    exact s.regular.gate_task (v.action_ok s) v.occurs.happening (s.regular.bounded.gate (ok.gate g hg)) hi
  intro k cell g hcell hg
  cases hasking : v.occurs.happening.asking with
  | none _ gates => exact kept (gates k cell g hcell hg) hg
  | @first k' cell' f handler undisposed gate handlers asks tasks =>
    replace hcell : w'.clientHandlers.get? k = some cell := hcell
    rw [handlers, Table.get?_modify] at hcell
    split at hcell
    · next eq =>
      subst eq
      rw [handler] at hcell
      cases hcell
      cases hg
      refine ⟨_, List.mem_append_right _ (.head _), f, v.checks_of_gate handler undisposed gate handlers, ?_, ?_⟩
      · exact world ▸ asks
      · intro i f' hi
        replace hi : w'.tasks.get? i = some (.await f' (.gate x.world.gates.size)) := hi
        rw [tasks, Table.get?_push] at hi
        split at hi
        · cases hi
          rfl
        · obtain ⟨_, hγ, -⟩ : TaskOk _ L (.await f' (.gate _)) := s.regular.orderly.tasks i _ hi
          exact absurd (s.regular.bounded.gate hγ) (Nat.lt_irrefl _)
    · exact kept hcell hg

end

end Switchboard
