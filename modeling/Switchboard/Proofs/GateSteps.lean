import Switchboard.Proofs.Mail

/-!
# What happens at a gate

A gate lets its jobs through one at a time: while it does, its number is on the agenda once, with at
most one of its jobs before it. `GateStep` lists what a move can do to one gate.
-/

namespace Switchboard

open World

open Exchange History

variable {H : History} {L L' : Ledger} {w w' : World} {κ : Cause} {more : List Action}

/-! ## Lanes -/

namespace Action

def lane (L : Ledger) : Action → Option GateRole
  | .dispatchNext g => L.gate g
  | .invoke (.post h _) _ => some (.readiness h)
  | .invoke (.forward h _) _ => ((L.handler h).bind HandlerRole.owner).map .permission
  | _ => none

def ticket? : Action → Option Nat
  | .invoke _ t => some t
  | _ => none

theorem lane_of_isErrand (L : Ledger) {a : Action} (h : a.isErrand = true) : a.lane L = none := by
  cases a <;> first | rfl | cases h

end Action

def crew (L : Ledger) (γ : GateRole) (agenda : List Action) : List Action :=
  agenda.filter fun a => a.lane L = some γ

theorem crew_append (L : Ledger) (γ : GateRole) (l l' : List Action) :
    crew L γ (l ++ l') = crew L γ l ++ crew L γ l' := List.filter_append ..

variable {γ : GateRole} {a : Action}

theorem crew_of_pos (h : a.lane L = some γ) (l : List Action) :
    crew L γ (a :: l) = a :: crew L γ l := List.filter_cons_of_pos (by simpa using h)

theorem crew_of_neg (h : a.lane L ≠ some γ) (l : List Action) :
    crew L γ (a :: l) = crew L γ l := List.filter_cons_of_neg (by simpa using h)

variable {g : Nat}

theorem crew_dispatchNext (h : L.gate g = some γ) (l : List Action) :
    crew L γ (.dispatchNext g :: l) = .dispatchNext g :: crew L γ l :=
  crew_of_pos (a := .dispatchNext g) h l

theorem crew_dispatchNext_of_ne (h : L.gate g ≠ some γ) (l : List Action) :
    crew L γ (.dispatchNext g :: l) = crew L γ l :=
  crew_of_neg (a := .dispatchNext g) h l

theorem crew_eq_nil {agenda : List Action} (h : ∀ a ∈ agenda, a.lane L = none) :
    crew L γ agenda = [] := by
  refine List.filter_eq_nil_iff.mpr fun a ha => ?_
  simp [h a ha]

theorem Cause.Chores.crew_more (h : κ.Chores more) (L : Ledger) (γ : GateRole) : crew L γ more = [] :=
  crew_eq_nil fun a ha => a.lane_of_isErrand L (a.isErrand_of_isChore (h a ha).1)

theorem Protest.crew_more {c : Nat} (h : Protest c more) (L : Ledger) (γ : GateRole) :
    crew L γ more = [] := by
  obtain rfl | ⟨_, _, _, rfl⟩ := h <;> rfl

theorem crew_runHook (L : Ledger) (γ : GateRole) (hooks : List Hook) :
    crew L γ (hooks.map .runHook) = [] := by
  refine crew_eq_nil fun _ ha => ?_
  obtain ⟨_, -, rfl⟩ := List.mem_map.mp ha
  rfl

variable {job : Job}

theorem crew_flushes (L : Ledger) (γ : GateRole) (g : Nat) (cell : GateCell) :
    crew L γ (flushes g cell) = [] := by
  unfold flushes
  split <;> rfl

/-- A gate is known by what it is for. -/
theorem Ledger.Coherent.gate_injective (h : L.Coherent) {g' : Nat}
    (hg : L.gate g = some γ) (hg' : L.gate g' = some γ) : g = g' := by
  cases γ with
  | permission => exact h.single hg hg'
  | readiness =>
    grind [h.readiness]

/-- A job that is let through belongs to the gate it waited before. -/
theorem JobAt.lane (hL : L.Coherent) {t : Nat} (h : JobAt H L γ job t) :
    (Action.invoke job t).lane L = some γ := by
  cases γ with
  | permission =>
    obtain ⟨_, call, _, _, hρ, rfl, -⟩ := h
    obtain ⟨-, η, hη, ho⟩ := hL.client hρ
    simp [Action.lane, hη, ho]
  | readiness =>
    obtain ⟨η, call, -, rfl, -⟩ := h
    rfl

/-- What an action does stays the same when the ledger grows. -/
theorem ActionOk.lane_eq (hL : L.Coherent) (ext : L.Extends L') (h : ActionOk H L a) :
    a.lane L' = a.lane L := by
  cases a with
  | dispatchNext =>
    obtain ⟨γ, hγ⟩ := h
    exact (ext.gate hγ).trans hγ.symm
  | invoke =>
    obtain ⟨γ, hjob, -⟩ := h
    cases γ with
    | permission =>
      obtain ⟨_, call, _, _, hρ, rfl, -⟩ := hjob
      obtain ⟨-, η, hη, -⟩ := hL.client hρ
      simp [Action.lane, hη, ext.handler hη]
    | readiness =>
      obtain ⟨η, call, -, rfl, -⟩ := hjob
      rfl
  | _ => rfl

/-! ## Steps of a gate -/

/-- A job of a client comes before a gate: a request before the permission gate, and then its call before
the readiness gate. -/
inductive Entering (w : World) : Cause → GateRole → Prop
  | request {κ : Cause} {k id : Nat} {call : Call} (arrival : κ.arrival? w k = some (id, call)) :
      Entering w κ (.permission k)
  | forward {h t : Nat} {call : Call} :
      Entering w (.action (.invoke (.forward h call) t)) (.readiness h)

theorem Entering.not_of (unasked : ∀ k, κ.arrival? w k = none)
    (other : ∀ h call t, κ ≠ .action (.invoke (.forward h call) t)) : ¬ Entering w κ γ := by
  rintro (⟨arrival⟩ | _)
  · exact absurd ((unasked _).symm.trans arrival) nofun
  · exact other _ _ _ rfl

def Entered (w : World) (κ : Cause) (γ : GateRole) : Prop :=
  Entering w κ γ ∨ ∃ h call, κ = .owner (.handle h call) ∧ γ = .readiness h ∧ w.isOwned h = false

/-- What can happen at gate `g`, which is for `γ`: how it stands afterwards, and what is to be done at
once to let its jobs through. -/
inductive GateStep (L : Ledger) (w : World) (γ : GateRole) (g : Nat) (d : Deferred Job Nat) :
    Cause → Deferred Job Nat → List Action → Prop
  | idle {κ : Cause} (taken : crew L γ κ.consumed = []) (none : ¬ Entering w κ γ) :
      GateStep L w γ g d κ d []
  | joined {κ : Cause} (job : Job) (taken : crew L γ κ.consumed = []) (entered : Entered w κ γ)
      (phase : d.phase = .waiting ∨ d.phase = .ready) :
      GateStep L w γ g d κ (d.queued job w.promises.size) []
  | refused {κ : Cause} (taken : crew L γ κ.consumed = []) (entered : Entered w κ γ)
      (phase : d.phase ≠ .waiting ∧ d.phase ≠ .ready) : GateStep L w γ g d κ d []
  | started (resting : d.flushing = false) :
      GateStep L w γ g d (.action (.flush g)) { d with flushing := true } [.dispatchNext g]
  | paused (empty : d.phase = .ready → d.queue = []) :
      GateStep L w γ g d (.action (.dispatchNext g)) { d with flushing := false } []
  | released {job : Job} {t : Nat} {rest : List (Job × Nat)} (ready : d.phase = .ready)
      (queue : d.queue = (job, t) :: rest) :
      GateStep L w γ g d (.action (.dispatchNext g)) { d with queue := rest }
        [.invoke job t, .dispatchNext g]
  | invoked {job : Job} {t : Nat} (lane : (Action.invoke job t).lane L = some γ) :
      GateStep L w γ g d (.action (.invoke job t)) d []
  | shut {κ : Cause} {d' : Deferred Job Nat} (taken : crew L γ κ.consumed = [])
      (none : ¬ Entering w κ γ) (phase : d'.phase = .disposed) (flushing : d'.flushing = d.flushing) :
      GateStep L w γ g d κ d' []
  | opened {t : Nat} (waiting : d.phase = .waiting) :
      GateStep L w γ g d (.task t) { d with phase := .ready } []
  | failed {t : Nat} (e : Fault) (waiting : d.phase = .waiting) :
      GateStep L w γ g d (.task t) { d with phase := .failed e, queue := [] } []

theorem World.core_shutGate (c : GateCell) : (shutGate c).core.phase = .disposed ∧
    (shutGate c).core.flushing = c.core.flushing := by
  grind [shutGate]

/-- The step of a gate to which a job is added. -/
theorem World.joining_gateStep {g' : Nat} {cell : GateCell} (hcell : w.gates.get? g = some cell)
    (taken : crew L γ κ.consumed = []) (entered : g = g' → Entered w κ γ) (entering : Entering w κ γ → g = g') :
    ∃ cell', (w.gates.modify g' (joinGate job w.promises.size)).get? g = some cell' ∧
      GateStep L w γ g cell.core κ cell'.core [] := by
  rw [Table.get?_modify]
  by_cases hg : g' = g
  · subst hg
    rw [if_pos rfl, hcell]
    refine ⟨_, rfl, ?_⟩
    unfold joinGate
    split
    · next hp => exact .joined job taken (entered rfl) (.inl hp)
    · next hp => exact .joined job taken (entered rfl) (.inr hp)
    · next hw hr => exact .refused taken (entered rfl) ⟨hw, hr⟩
  · rw [if_neg hg]
    exact ⟨cell, hcell, .idle taken fun he => hg (entering he).symm⟩

/-- What can happen at a gate. -/
theorem Regular.gateStep (h : Regular H L w) (hκ : ∀ a, κ = .action a → ActionOk H L a)
    (hap : Happening L w κ w' more) {cell : GateCell}
    (hγ : L.gate g = some γ) (hcell : w.gates.get? g = some cell) :
    ∃ cell', w'.gates.get? g = some cell' ∧
      GateStep L w γ g cell.core κ cell'.core (crew L γ more) := by
  -- Most of what happens leaves all gates alone.
  have idle : ∀ {κ : Cause} {more : List Action} {gates : Table GateCell}, gates = w.gates →
      crew L γ κ.consumed = [] → crew L γ more = [] → ¬ Entering w κ γ →
      ∃ cell', gates.get? g = some cell' ∧ GateStep L w γ g cell.core κ cell'.core (crew L γ more) := by
    rintro κ more gates rfl taken left none
    exact ⟨cell, hcell, left ▸ .idle taken none⟩
  have unentered : ∀ {κ : Cause}, (∀ k, κ.arrival? w k = none) →
      (∀ h call t, κ ≠ .action (.invoke (.forward h call) t)) → ¬ Entering w κ γ :=
    fun unasked other => Entering.not_of unasked other
  have shut : ∀ {κ : Cause} {g' : Nat}, crew L γ κ.consumed = [] → ¬ Entering w κ γ →
      ∃ cell', (w.gates.modify g' shutGate).get? g = some cell' ∧
        GateStep L w γ g cell.core κ cell'.core [] := by
    intro κ g' taken none
    rw [Table.get?_modify, hcell]
    split
    · exact ⟨_, rfl, .shut taken none (core_shutGate cell).1 (core_shutGate cell).2⟩
    · exact ⟨cell, rfl, .idle taken none⟩
  have pushed : ∀ {κ : Cause} {gate : GateCell}, crew L γ κ.consumed = [] → ¬ Entering w κ γ →
      ∃ cell', (w.gates.push gate).get? g = some cell' ∧ GateStep L w γ g cell.core κ cell'.core [] := by
    intro κ gate taken none
    rw [Table.get?_push_of_lt (Table.lt_size_of_get? hcell)]
    exact ⟨cell, hcell, .idle taken none⟩
  -- The gate whose turn it is, or another one.
  have turn : ∀ {g'}, L.gate g' ≠ some γ → crew L γ (Cause.action (.dispatchNext g')).consumed = [] :=
    fun hne => crew_dispatchNext_of_ne hne []
  have other : ∀ {g'}, g' ≠ g → L.gate g' ≠ some γ :=
    fun hne hg' => hne (h.coherent.gate_injective hg' hγ)
  have posting : ∀ {h' t : Nat} {call : Call} {more : List Action} {gates : Table GateCell},
      gates = w.gates → crew L γ more = [] → ∃ cell', gates.get? g = some cell' ∧
        GateStep L w γ g cell.core (.action (.invoke (.post h' call) t)) cell'.core (crew L γ more) := by
    rintro h' t call more gates rfl left
    rw [left]
    by_cases hh : γ = .readiness h'
    · exact ⟨cell, hcell, .invoked (congrArg some hh.symm)⟩
    · have away : (Action.invoke (.post h' call) t).lane L ≠ some γ :=
        fun heq => hh (Option.some.inj heq).symm
      exact ⟨cell, hcell, .idle (crew_of_neg away []) (unentered (fun _ => rfl) nofun)⟩
  -- A request is one client's.
  have asked_only : ∀ {k k' id call₁ call₂ c service v} {m : Request},
      (∀ k', w.arrival? k' c service v = if k' = k then some (m.id, call₁) else none) →
      (Cause.action (.deliver c service v)).arrival? w k' = some (id, call₂) → k' = k := by
    intro k k' id call₁ call₂ c service v m arrival asked
    by_contra hne
    exact absurd (((arrival k').trans (if_neg hne)).symm.trans asked) nofun
  cases hap with
  | calm trifling calm chores =>
    cases κ with
    | action a =>
      refine idle calm.gates ?_ (chores.crew_more L γ) (unentered ?_ ?_)
      · exact crew_eq_nil fun _ hb => List.mem_singleton.mp hb ▸ a.lane_of_isErrand L trifling
      · intro k
        cases a <;> first | rfl | cases trifling
      · rintro h call t ⟨⟩
        cases trifling
    | task | owner => exact idle calm.gates rfl (chores.crew_more L γ) (unentered (fun _ => rfl) nofun)
  | ignored none calm protest =>
    exact idle calm.gates rfl (protest.crew_more L γ) (unentered none nofun)
  | vacant reason =>
    obtain ⟨g', rfl⟩ | ⟨g', rfl, hn⟩ := reason
    · exact idle rfl rfl rfl (unentered (fun _ => rfl) nofun)
    · refine idle rfl (turn (other ?_)) rfl (unentered (fun _ => rfl) nofun)
      rintro rfl
      cases hn.symm.trans hcell
  | @breach a _ _ cause more_eq =>
    have left : crew L γ more = [] := by obtain rfl | ⟨_, _, rfl⟩ := more_eq <;> rfl
    obtain ⟨_, _, _, rfl⟩ | ⟨_, _, _, rfl, none⟩ := cause
    · exact idle rfl rfl left (unentered (fun _ => rfl) nofun)
    · exact idle rfl rfl left (unentered none nofun)
  | settled _ none | garbled _ none | asked none | arrived _ none | departed none =>
    exact idle rfl rfl rfl (unentered none nofun)
  | @joined service v k g' ρ cell' _ _ _ _ _ _ handler held arrival =>
    have role : L.gate g' = some (.permission k) := by
      obtain ⟨_, -, ok⟩ := h.orderly.clients k cell' handler
      exact ok.gate g' held
    rw [crew_append, crew_flushes]
    refine joining_gateStep hcell rfl ?_ ?_
    · rintro rfl
      cases hγ.symm.trans role
      exact .inl (.request (κ := .action (.deliver ρ.channel service v)) ((arrival k).trans (if_pos rfl)))
    · rintro ⟨asked⟩
      exact h.coherent.gate_injective hγ ((asked_only arrival asked).symm ▸ role)
  | @first _ _ _ _ cell' _ _ _ _ _ _ _ _ _ handler undisposed gate arrival =>
    refine pushed rfl ?_
    rintro ⟨asked⟩
    obtain rfl := asked_only arrival asked
    exact absurd (h.orderly.held _ cell' handler g hγ) (by simp [undisposed, gate])
  | @late service v k ρ cell' m call client handler disposed arrival =>
    by_cases hk : γ = .permission k
    · subst hk
      have leaving : L.leaving k := by
        obtain ⟨_, -, ok⟩ := h.orderly.clients k cell' handler
        exact ok.disposed disposed
      refine ⟨cell, hcell, .refused rfl (.inl (.request ((arrival k).trans (if_pos rfl)))) ?_⟩
      rw [h.orderly.shut g cell hcell k hγ leaving]
      exact ⟨nofun, nofun⟩
    · refine idle rfl rfl rfl ?_
      rintro ⟨asked⟩
      exact hk (congrArg _ (asked_only arrival asked))
  | shutCore =>
    exact idle rfl rfl (crew_runHook L γ _) (unentered (fun _ => rfl) nofun)
  | shutHandler =>
    rw [crew_runHook]
    exact shut rfl (unentered (fun _ => rfl) nofun)
  | @shutClient k cell' _ _ _ _ _ _ chores =>
    rw [chores.crew_more]
    cases cell'.gate with
    | none => exact ⟨cell, hcell, .idle rfl (unentered (fun _ => rfl) nofun)⟩
    | some => exact shut rfl (unentered (fun _ => rfl) nofun)
  | @flushed g' cell' gate resting =>
    by_cases hg : g' = g
    · subst hg
      cases hcell.symm.trans gate
      refine ⟨_, by rw [setGate, Table.get?_modify_self, hcell]; rfl, ?_⟩
      rw [crew_dispatchNext hγ]
      exact .started resting
    · refine ⟨cell, by rw [setGate, Table.get?_modify_of_ne hg, hcell], ?_⟩
      rw [crew_dispatchNext_of_ne (other hg)]
      exact .idle rfl (unentered (fun _ => rfl) nofun)
  | @paused g' cell' gate empty =>
    by_cases hg : g' = g
    · subst hg
      cases hcell.symm.trans gate
      exact ⟨_, by rw [setGate, Table.get?_modify_self, hcell]; rfl, .paused empty⟩
    · refine ⟨cell, by rw [setGate, Table.get?_modify_of_ne hg, hcell], ?_⟩
      exact .idle (turn (other hg)) (unentered (fun _ => rfl) nofun)
  | @released g' cell' job t _ gate ready queue =>
    obtain ⟨γ', hγ', ok⟩ := h.orderly.gates g' cell' gate
    have lane : (Action.invoke job t).lane L = some γ' :=
      (ok.queue (job, t) (queue ▸ (.head _))).lane h.coherent
    by_cases hg : g' = g
    · subst hg
      cases hcell.symm.trans gate
      cases hγ.symm.trans hγ'
      refine ⟨_, by rw [setGate, Table.get?_modify_self, hcell]; rfl, ?_⟩
      rw [crew_of_pos lane, crew_dispatchNext hγ]
      exact .released ready queue
    · have away : some γ' ≠ some γ := fun heq => other hg (hγ'.trans heq)
      refine ⟨cell, by rw [setGate, Table.get?_modify_of_ne hg, hcell], ?_⟩
      rw [crew_of_neg (lane ▸ away), crew_dispatchNext_of_ne (other hg)]
      exact .idle (turn (other hg)) (unentered (fun _ => rfl) nofun)
  | @forwarded h' _ _ cell' _ _ _ handler =>
    obtain ⟨γ', job, -⟩ := hκ _ rfl
    have lane := job.lane h.coherent
    obtain ⟨η, hη, at_⟩ := h.orderly.handlers h' cell' handler
    have role : L.gate cell'.gate = some (.readiness h') := at_.gate ▸ (h.coherent.handler hη).1
    rw [crew_append, crew_flushes]
    by_cases hγ' : γ' = γ
    · -- The job leaves this gate, which is not the one that it goes on to.
      subst hγ'
      have away : cell'.gate ≠ g := by
        rintro rfl
        cases hγ.symm.trans role
        obtain ⟨_, _, -, heq, -⟩ := job
        cases heq
      exact ⟨cell, (Table.get?_modify_of_ne away _ _).trans hcell, .invoked lane⟩
    · refine joining_gateStep hcell
        (crew_of_neg (fun heq => hγ' (Option.some.inj (lane.symm.trans heq))) []) ?_ ?_
      · rintro rfl
        cases hγ.symm.trans role
        exact .inl .forward
      · rintro (⟨asked⟩ | _)
        · cases asked
        · exact h.coherent.gate_injective hγ role
  | announced | posted | unposted => exact posting rfl rfl
  | @opened _ g' _ _ _ _ _ cell' _ _ _ _ _ gate waiting =>
    by_cases hg : g' = g
    · subst hg
      cases hcell.symm.trans gate
      exact ⟨_, by rw [Table.get?_modify_self, hcell]; rfl, .opened waiting⟩
    · refine ⟨cell, by rw [Table.get?_modify_of_ne hg, hcell], ?_⟩
      exact .idle rfl (unentered (fun _ => rfl) nofun)
  | @failed _ g' _ _ e cell' _ _ _ _ _ gate waiting chores =>
    rw [chores.crew_more]
    by_cases hg : g' = g
    · subst hg
      cases hcell.symm.trans gate
      exact ⟨_, by rw [Table.get?_modify_self, hcell]; rfl, .failed e waiting⟩
    · refine ⟨cell, by rw [Table.get?_modify_of_ne hg, hcell], ?_⟩
      exact .idle rfl (unentered (fun _ => rfl) nofun)
  | admitted _ _ _ _ chores =>
    rw [chores.crew_more]
    exact pushed rfl (unentered (fun _ => rfl) nofun)
  | attached => exact pushed rfl (unentered (fun _ => rfl) nofun)
  | @handled h' call cell' _ _ _ handler unowned =>
    obtain ⟨η, hη, at_⟩ := h.orderly.handlers h' cell' handler
    have role : L.gate cell'.gate = some (.readiness h') := at_.gate ▸ (h.coherent.handler hη).1
    rw [crew_flushes]
    refine joining_gateStep hcell rfl ?_ ?_
    · rintro rfl
      exact .inr ⟨h', call, rfl, Option.some.inj (hγ.symm.trans role), unowned⟩
    · exact fun he => absurd he (unentered (fun _ => rfl) nofun)
  | _ => exact idle rfl rfl rfl (unentered (fun _ => rfl) nofun)

end Switchboard
