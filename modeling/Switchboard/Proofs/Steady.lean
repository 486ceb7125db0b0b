import Switchboard.Proofs.Lineup

/-!
# The invariant of all runs

The requests of a client are in the line of its permission gate and then in the line of its readiness
gate, in the order of their arrival and without a gap, and those before them have been sent to the
server, each under its own number. `Steady` says so, together with what was shown before: every object
does what a ledger says it is for, and every message is handed over once. Every move of an exchange
keeps it, so that it holds after every run.
-/

namespace Switchboard

open World

open Exchange History

variable {H H' : History} {L L' : Ledger} {w w' : World} {κ : Cause} {more rest : List Action}

/-! ## Gates that are not there -/

theorem Regular.gate_get? (reg : Regular H L w) {g : Nat} {γ : GateRole} (hγ : L.gate g = some γ) :
    ∃ cell, w.gates.get? g = some cell :=
  Table.get?_isSome_of_lt (reg.bounded.gate hγ)

variable {h : Nat}

theorem Regular.handler_get? (reg : Regular H L w) {η : HandlerRole}
    (hη : L.handler h = some η) : ∃ cell, w.serverHandlers.get? h = some cell :=
  Table.get?_isSome_of_lt (reg.bounded.handler hη)

variable {k : Nat} {ρ : ClientRole}

theorem Regular.client_get? (reg : Regular H L w)
    (hρ : L.client k = some ρ) : ∃ cell, w.clientHandlers.get? k = some cell ∧ ClientAt L k ρ cell := by
  obtain ⟨cell, hcell, ok⟩ := reg.orderly.clients.of_lt (reg.bounded.client hρ) hρ
  exact ⟨cell, hcell, ok⟩

theorem Ledger.Coherent.owner_eq (h : L.Coherent) {k' : Nat} {ρ' : ClientRole}
    (hρ : L.client k = some ρ) (hρ' : L.client k' = some ρ') (same : ρ.handler = ρ'.handler) : k = k' := by
  obtain ⟨-, _, hη, ho⟩ := h.client hρ
  obtain ⟨-, _, hη', ho'⟩ := h.client hρ'
  rw [same] at hη
  cases hη.symm.trans hη'
  exact Option.some.inj (ho.symm.trans ho')

section

variable (reg : Regular H L w)
include reg

/-- A client handler owns its server handler. -/
theorem Regular.isOwned (hρ : L.client k = some ρ) : w.isOwned ρ.handler = true := by
  obtain ⟨cell, hcell, ok⟩ := reg.client_get? hρ
  unfold World.isOwned
  rw [Table.any_cells]
  exact ⟨k, cell, hcell, by simp [ok.handler]⟩

theorem Regular.more_ok (hap : Happening L w κ w' more) :
    ∀ a ∈ more, (∀ L : Ledger, a.lane L = none) ∨ ActionOk H L a := by
  have laneless : ∀ {l : List Action}, (∀ a ∈ l, ∀ L : Ledger, a.lane L = none) →
      ∀ a ∈ l, (∀ L : Ledger, a.lane L = none) ∨ ActionOk H L a := fun h a ha => .inl (h a ha)
  have chores : ∀ {κ : Cause} {l : List Action}, κ.Chores l →
      ∀ a ∈ l, (∀ L : Ledger, a.lane L = none) ∨ ActionOk H L a := fun h =>
    laneless fun a ha L => a.lane_of_isErrand L (a.isErrand_of_isChore (h a ha).1)
  have hooks : ∀ hooks : List Hook, ∀ a ∈ hooks.map Action.runHook,
      (∀ L : Ledger, a.lane L = none) ∨ ActionOk H L a := fun hooks a ha => by
    obtain ⟨_, -, rfl⟩ := List.mem_map.mp ha
    exact .inl fun _ => rfl
  cases hap with
  | calm _ _ more_ok | shutClient _ _ _ more_ok | failed _ _ _ _ _ more_ok | admitted _ _ _ _ more_ok =>
    exact chores more_ok
  | ignored _ _ protest =>
    obtain rfl | ⟨_, _, _, rfl⟩ := protest
    · exact laneless (List.forall_mem_nil _)
    · exact laneless (by simp [Action.lane])
  | breach | joined | forwarded | handled => grind [Action.lane, flushes]
  | shutCore | shutHandler => exact hooks _
  | @flushed g cell gate _ =>
    obtain ⟨γ, hγ, -⟩ := reg.orderly.gates g cell gate
    intro a ha
    rw [List.mem_singleton.mp ha]
    exact .inr ⟨γ, hγ⟩
  | @released g cell job t _ gate ready queue =>
    obtain ⟨γ, hγ, ok⟩ := reg.orderly.gates g cell gate
    have hjob : JobAt H L γ job t := ok.queue (job, t) (queue ▸ (.head _))
    intro a ha
    rcases List.mem_cons.mp ha with rfl | ha
    · exact .inr ⟨γ, hjob, ready ▸ ok.phase, g, hγ⟩
    · rw [List.mem_singleton.mp ha]
      exact .inr ⟨γ, hγ⟩
  | _ => exact laneless (by simp [Action.lane])

theorem Regular.crew_eq (ext : L.Extends L') {agenda : List Action}
    (h : ∀ a ∈ agenda, (∀ L : Ledger, a.lane L = none) ∨ ActionOk H L a) (γ : GateRole) :
    crew L' γ agenda = crew L γ agenda :=
  List.filter_congr fun a ha => by
    rcases h a ha with none | ok
    · rw [none, none]
    · rw [ok.lane_eq reg.coherent ext]

theorem Regular.crew_nil {agenda : List Action} {γ : GateRole}
    (h : ∀ a ∈ agenda, (∀ L : Ledger, a.lane L = none) ∨ ActionOk H L a)
    (missing : ∀ g, L.gate g ≠ some γ) : crew L γ agenda = [] := by
  refine List.filter_eq_nil_iff.mpr fun a ha hlane => ?_
  have lane : a.lane L = some γ := by simpa using hlane
  rcases h a ha with none | ok
  · exact absurd ((none L).symm.trans lane) nofun
  · cases a with
    | dispatchNext g => exact missing g lane
    | invoke =>
      obtain ⟨_, hjob, -, g, hg⟩ := ok
      cases (hjob.lane reg.coherent).symm.trans lane
      exact missing g hg
    | _ => cases lane

end

/-! ## Numbers to come -/

/-- The number under which a handler will send its next call, as long as it can send any. -/
def World.upcoming (w : World) (h : Nat) : Option Nat :=
  if w.isOpen near = true then
    match w.standing h with
    | some .unannounced => some 0
    | some (.announced n) => some n
    | _ => none
  else none

theorem World.upcoming_eq_some {b : Nat} : w.upcoming h = some b ↔ w.isOpen near = true ∧
    (w.standing h = some .unannounced ∧ b = 0 ∨ w.standing h = some (.announced b)) := by
  unfold upcoming
  split
  · grind
  · next ho => simp [ho]

theorem World.upcoming_ne_some (absent : w.standing h = none) (b : Nat) :
    w.upcoming h ≠ some b := fun hb => by
  obtain ⟨-, ⟨hs, -⟩ | hs⟩ := upcoming_eq_some.mp hb <;> exact absurd (absent.symm.trans hs) nofun

theorem World.nextNumber_of_upcoming {b : Nat} (hb : w.upcoming h = some b) : w.nextNumber h = b := by
  obtain ⟨-, ⟨hs, rfl⟩ | hs⟩ := upcoming_eq_some.mp hb
  · exact nextNumber_of_unannounced hs
  · exact nextNumber_of_standing hs

/-- How the number to come changes. -/
theorem Conduct.upcoming {b' : Nat} {out : List (String × Json)} (c : Conduct w w' κ h out)
    (open_mono : w'.isOpen near = true → w.isOpen near = true) (hb : w'.upcoming h = some b') :
    (w.standing h = none ∧ b' = 0) ∨
      (w.upcoming h = some b' ∧ ∀ call t, κ ≠ .action (.invoke (.post h call) t)) ∨
      ∃ b call t, κ = .action (.invoke (.post h call) t) ∧ w.upcoming h = some b ∧ b' = b + 1 := by
  obtain ⟨ho', hs'⟩ := upcoming_eq_some.mp hb
  have ho := open_mono ho'
  cases c with
  | same eq _ =>
    rw [eq] at hs'
    have hup : w.upcoming h = some b' := upcoming_eq_some.mpr ⟨ho, hs'⟩
    grind
  | stranded closed => cases ho.symm.trans closed
  | made =>
    grind
  | @announced call t _ cause isOpen before after =>
    refine .inr (.inr ⟨0, call, t, cause, upcoming_eq_some.mpr ⟨ho, .inl ⟨before, rfl⟩⟩, ?_⟩)
    grind
  | @posted call t n cause isOpen before after =>
    refine .inr (.inr ⟨n, call, t, cause, upcoming_eq_some.mpr ⟨ho, .inr before⟩, ?_⟩)
    grind
  | left _ _ _ after =>
    rcases hs' with ⟨hs', -⟩ | hs' <;> exact absurd (after.symm.trans hs') nofun

theorem Conduct.uncut {out : List (String × Json)} (c : Conduct w w' κ h out)
    (before : w.isOpen near = true) (uncut : w.standing h ≠ some .cutOff) :
    w'.standing h ≠ some .cutOff := by
  intro hs
  cases c with
  | same eq => exact uncut (eq.symm.trans hs)
  | stranded closed => cases before.symm.trans closed
  | made _ after => rcases after with ha | ha <;> exact absurd (ha.symm.trans hs) nofun
  | announced _ _ _ after | posted _ _ _ after | left _ _ _ after => cases after.symm.trans hs

/-! ## The order of a client's requests -/

/-- The first `a` requests of a client have been let through at its permission gate, and the next ones are
in its line; those from `b` on are in the line of the readiness gate, where `b` is the number to come. -/
structure InOrder (H : History) (L : Ledger) (x : Exchange) (k : Nat) (ρ : ClientRole) (η : HandlerRole)
    (a : Nat) : Prop where
  waiting : ∀ g cell, L.gate g = some (.permission k) → x.world.gates.get? g = some cell →
    Ranked L (.job k) a (line (crew L (.permission k) x.agenda) cell.core) ∧
      (cell.core.Intact →
        a + (line (crew L (.permission k) x.agenda) cell.core).length = (H.arrivals k).length)
  unasked : (∀ g, L.gate g ≠ some (.permission k)) → a = 0 ∧ (¬ L.leaving k → H.arrivals k = [])
  passed : ∀ cell b, x.world.gates.get? η.gate = some cell → x.world.upcoming ρ.handler = some b →
    Ranked L (.entry k) b (line (crew L (.readiness ρ.handler) x.agenda) cell.core) ∧
      (cell.core.Intact → b + (line (crew L (.readiness ρ.handler) x.agenda) cell.core).length = a)

/-- What holds of an exchange after a run. -/
structure Steady (ts : List Transition) (x : Exchange) (L : Ledger) : Prop where
  regular : Regular (ofTrace ts) L x.world
  agenda : AgendaOk (ofTrace ts) L x.agenda
  delivery : Delivery ts x
  linked : 2 ≤ x.world.channels.size
  uncut : x.world.isOpen near = true → ∀ h, x.world.standing h ≠ some .cutOff
  crewed : ∀ g γ cell, L.gate g = some γ → x.world.gates.get? g = some cell →
    Crewed g cell.core.flushing (crew L γ x.agenda)
  unasked : ∀ k, L.client k = none → (ofTrace ts).arrivals k = []
  inOrder : ∀ k ρ η, L.client k = some ρ → L.handler ρ.handler = some η →
    ∃ a, InOrder (ofTrace ts) L x k ρ η a

/-! ## A move -/

theorem Happening.channels_le (hap : Happening L w κ w' more) : w.channels.size ≤ w'.channels.size := by
  obtain shape | ⟨_, _, _, -, -, -, shut⟩ | ⟨_, _, added⟩ := hap.channels
  · exact Nat.le_of_eq shape.size.symm
  · exact Nat.le_of_eq (by rw [shut, Table.size_modify])
  · rw [added, Table.size_push, Table.size_push]
    omega

variable {ts : List Transition} {x : Exchange} {m : Move}

/-- The role of the promise by which the job waited that a cause lets through. -/
def Cause.role (L : Ledger) : Cause → Option Role
  | .action a => L.cause a
  | _ => none

/-- What a move leads to. -/
structure Advance (ts : List Transition) (x : Exchange) (m : Move) (L L' : Ledger) (κ : Cause)
    (w' : World) (more rest : List Action) : Prop where
  occurs : Occurs L x m κ w' more rest
  grows : L.Grows (ofTrace (ts ++ [x.transition m])) (κ.role L) more L'
  regular : Regular (ofTrace (ts ++ [x.transition m])) L' w'
  agenda : AgendaOk (ofTrace (ts ++ [x.transition m])) L' (more ++ rest)

variable {t : Nat}

/-- The call that is to be sent next is the one whose turn it is. -/
theorem Steady.numbered (s : Steady ts x L) {n : Nat} {call : Call} {rest : List Action}
    (agenda : x.agenda = .invoke (.post h call) t :: rest) (can : x.world.canPost h)
    (hp : L.promise t = some (.entry k n)) : x.world.upcoming h = some n := by
  obtain ⟨ho, cell, hcell, hd⟩ := can
  obtain ⟨γ, hjob, -, _, _⟩ := s.agenda _ (agenda ▸ List.mem_cons_self)
  have lane := hjob.lane s.regular.coherent
  obtain rfl : γ = .readiness h := (Option.some.inj lane).symm
  obtain ⟨η, _, hη, -, hrole⟩ := hjob
  -- The handler stands somewhere from where it can post.
  obtain ⟨b, hb⟩ : ∃ b, x.world.upcoming h = some b := by
    have hs := standing_eq_some hcell
    cases hst : standingOf x.world.tally cell.stage with
    | unannounced => exact ⟨0, upcoming_eq_some.mpr ⟨ho, .inl ⟨hs.trans (by rw [hst]), rfl⟩⟩⟩
    | announced n => exact ⟨n, upcoming_eq_some.mpr ⟨ho, .inr (hs.trans (by rw [hst]))⟩⟩
    | cutOff => exact absurd (hs.trans (by rw [hst])) (s.uncut ho h)
    | gone =>
      have := standingOf_eq_gone.mp hst
      exact absurd (hd.symm.trans this) nofun
  cases howner : η.owner with
  | none =>
    rw [howner] at hrole
    exact absurd (hrole.symm.trans hp) nofun
  | some k' =>
    obtain ⟨hgate, hown⟩ := s.regular.coherent.handler hη
    obtain ⟨ρ, hρ, rfl⟩ := hown k' howner
    obtain ⟨gcell, hgcell⟩ := s.regular.gate_get? hgate
    obtain ⟨_, order⟩ := s.inOrder k' ρ η hρ hη
    obtain ⟨ranked, -⟩ := order.passed gcell b hgcell hb
    rw [agenda, crew_of_pos lane] at ranked
    have rank : L.promise t = some (.entry k' b) := ranked.1
    obtain ⟨-, rfl⟩ := Role.entry.inj (Option.some.inj (rank.symm.trans hp))
    exact hb

theorem Regular.gate_held (reg : Regular H L w) {g : Nat} (hg : L.gate g = some (.permission k))
    (wanted : w.isMoot (.gate g) = false) :
    (w.clientHandlers.get? k).any (fun c => c.gate == some g) = true := by
  obtain ⟨_, hρ⟩ := reg.coherent.permission hg
  obtain ⟨cell, hcell, ok⟩ := reg.client_get? hρ
  obtain ⟨gate, hgate⟩ := reg.gate_get? hg
  rcases reg.orderly.held k cell hcell g hg with gone | held
  · have phase := reg.orderly.shut g gate hgate k hg (ok.disposed gone)
    simp [isMoot, hgate, phase] at wanted
  · simp [hcell, held]

/-- Every move of a steady exchange leads to something. -/
theorem Steady.advance (s : Steady ts x L) (m : Move) :
    ∃ κ w' more rest L', Advance ts x m L L' κ w' more rest := by
  have ext := extends_ofTrace ts (x.transition m)
  have later := s.regular.later ext
  have stay : AgendaOk (ofTrace (ts ++ [x.transition m])) L x.agenda := s.agenda.mono ext (.refl L)
  obtain ⟨a, rest, agenda, delivered, polled, after⟩ | ⟨t, agenda, delivered, polled, after⟩ |
    ⟨after, delivered, polled⟩ | ⟨ms, rfl, agenda, delivered, polled, after⟩ | ⟨after, delivered, polled⟩ :=
    x.next m
  · have ok : ActionOk (ofTrace ts) L a := s.agenda a (agenda ▸ (.head _))
    have o : Occurs L x m (.action a) _ _ rest :=
      ⟨agenda, after, s.regular.happens_perform ok, delivered, polled, by rintro _ ⟨⟩, rfl,
        by rintro _ ⟨⟩⟩
    obtain ⟨L', grows, regular, more_ok⟩ := later.perform (ok.mono ext (.refl L))
      (by
        rintro _ _ _ rfl
        refine ⟨ext.sent (s.delivery.sent (agenda ▸ (.head _))), ?_⟩
        intro k _ call serves request payload_eq
        rw [arrivals_ofTrace, o.request k]
        simp [Cause.arrival?, arrival?, serves, request, payload_eq])
      (by
        rintro _ call t rfl can k _ hp
        exact (nextNumber_of_upcoming (s.numbered agenda can hp)).symm)
    have tail : AgendaOk (ofTrace (ts ++ [x.transition m])) L' rest := fun b hb =>
      (stay b (agenda ▸ .tail _ hb)).mono (.refl _) grows.toExtends
    exact ⟨_, _, _, _, L', o, grows, regular, more_ok.append tail⟩
  · have o : Occurs L x m (.task t) _ _ [] :=
      ⟨by rw [agenda]; rfl, by rw [after, List.append_nil], s.regular.happens_poll t, delivered, polled,
        fun _ _ => agenda, rfl, by rintro _ ⟨⟩⟩
    obtain ⟨L', grows, regular, more_ok⟩ := later.poll t (by
      intro _ _ k _ _ task hg wanted looked hcell waiting
      refine ⟨_, List.mem_append_right _ (.head _), ?_⟩
      obtain ⟨_, -, seen⟩ := s.regular.glanced task
      rw [seen] at hcell
      replace hcell : x.world.gates.get? _ = some _ := hcell
      unfold Transition.verdict?
      rw [polled, Cause.polled?, task]
      simp [s.regular.gate_held hg wanted, hcell, waiting, looked])
    exact ⟨_, _, _, _, L', o, grows, regular, by rwa [List.append_nil]⟩
  · have o : Occurs L x m (.owner m) _ _ x.agenda :=
      ⟨rfl, after, s.regular.happens_apply m, delivered, polled, by rintro _ ⟨⟩, .inl rfl, by rintro _ ⟨⟩; rfl⟩
    obtain ⟨L', grows, regular, more_ok⟩ := later.apply m
    exact ⟨_, _, _, _, L', o, grows, regular, more_ok.append (stay.mono (.refl _) grows.toExtends)⟩
  · exact ⟨.owner (.tick ms), _, [], [], L,
      ⟨by rw [agenda]; rfl, after, .tick L x.world ms, delivered, polled, by rintro _ ⟨⟩, .inr ⟨rfl, _, rfl⟩,
        by rintro _ ⟨⟩; rfl⟩, .refl ..,
      ⟨{ later.orderly with }, later.coherent, later.bounded⟩, .nil⟩
  · exact ⟨.owner m, x.world, [], x.agenda, L,
      ⟨rfl, after, .refl L x.world m, delivered, polled, by rintro _ ⟨⟩, .inr ⟨rfl, _, rfl⟩,
        by rintro _ ⟨⟩; rfl⟩, .refl .., later, stay⟩

namespace Advance

variable (s : Steady ts x L) (v : Advance ts x m L L' κ w' more rest)
include v

theorem rest_ok (h : AgendaOk H L x.agenda) : AgendaOk H L rest := fun a ha =>
  h a (v.occurs.agenda ▸ List.mem_append_right _ ha)

include s

theorem action_ok (a : Action) (hκ : κ = .action a) : ActionOk (ofTrace ts) L a := by
  subst hκ
  exact s.agenda a (v.occurs.agenda ▸ List.mem_append_left _ (.head _))

omit s in
theorem crew_before (γ : GateRole) :
    crew L γ x.agenda = crew L γ κ.consumed ++ crew L γ rest := by
  rw [v.occurs.agenda, crew_append]

theorem crew_after (γ : GateRole) :
    crew L' γ (more ++ rest) = crew L γ more ++ crew L γ rest := by
  have ext := v.grows.toExtends
  rw [crew_append, s.regular.crew_eq ext (s.regular.more_ok v.occurs.happening),
    s.regular.crew_eq ext fun a ha => .inr (v.rest_ok s.agenda a ha)]

omit s in
theorem arrivals (k : Nat) : (ofTrace (ts ++ [x.transition m])).arrivals k =
    (ofTrace ts).arrivals k ++ (κ.arrival? x.world k).toList := by
  rw [arrivals_ofTrace, v.occurs.request]

/-- A channel that is open was open. -/
theorem open_mono {c : Nat} (hc : c < x.world.channels.size) (ho : w'.isOpen c = true) :
    x.world.isOpen c = true := by
  by_contra hn
  obtain ⟨ch, hch⟩ := Table.get?_isSome_of_lt hc
  have disposed : ch.core.disposed = true := by simpa [isOpen, hch] using hn
  have closed := v.grows.closed ((s.regular.orderly.channels c ch hch).closed disposed)
  cases ho.symm.trans (v.regular.orderly.isOpen_of_closed closed)

theorem near_mono (ho : w'.isOpen near = true) : x.world.isOpen near = true :=
  v.open_mono s (Nat.lt_of_lt_of_le Nat.zero_lt_two s.linked) ho

theorem nearSide : ∃ out, NearSide x.world w' κ out :=
  s.regular.nearSide (v.action_ok s) v.occurs.happening

variable {γ : GateRole}

/-- What happens at a gate that was there. -/
theorem gate_step {g : Nat} {cell cell' : GateCell} (hγ : L.gate g = some γ)
    (hcell : x.world.gates.get? g = some cell) (hcell' : w'.gates.get? g = some cell') :
    Crewed g cell'.core.flushing (crew L' γ (more ++ rest)) ∧
      LineStep L x.world γ κ cell.core cell'.core (line (crew L γ x.agenda) cell.core)
        (line (crew L' γ (more ++ rest)) cell'.core) := by
  obtain ⟨_, hget, step⟩ := s.regular.gateStep (v.action_ok s) v.occurs.happening hγ hcell
  cases hget.symm.trans hcell'
  have crewed := s.crewed g γ cell hγ hcell
  rw [v.crew_before] at crewed ⊢
  rw [v.crew_after s]
  exact ⟨step.crewed hγ crewed, step.line hγ crewed⟩

theorem crew_new (missing : ∀ g, L.gate g ≠ some γ) : crew L' γ (more ++ rest) = [] := by
  rw [v.crew_after s, s.regular.crew_nil (s.regular.more_ok v.occurs.happening) missing,
    s.regular.crew_nil (fun a ha => .inr (v.rest_ok s.agenda a ha)) missing]
  rfl

omit s in
theorem permission_of_forward {k t : Nat} {ρ : ClientRole} {call : Call} (hρ : L.client k = some ρ)
    (hjob : JobAt (ofTrace (ts ++ [x.transition m])) L' γ (.forward ρ.handler call) t) :
    γ = .permission k := by
  cases γ with
  | readiness =>
    obtain ⟨_, _, -, heq, -⟩ := hjob
    cases heq
  | permission =>
    obtain ⟨_, _, _, _, hρ', heq, -⟩ := hjob
    obtain ⟨same, -⟩ := Job.forward.inj heq
    rw [v.regular.coherent.owner_eq (v.grows.client hρ) hρ' same]

/-- What a new gate is like. -/
theorem new_gate {g : Nat} {cell' : GateCell} (hnew : L.gate g = none)
    (hγ : L'.gate g = some γ) (hcell' : w'.gates.get? g = some cell') :
    (∀ g', L.gate g' ≠ some γ) ∧ cell'.core.flushing = false ∧
      ((cell'.core.queue = [] ∧ (∀ k, κ.arrival? x.world k = none) ∧
          ∀ k cell, x.world.clientHandlers.get? k = some cell → w'.clientHandlers.get? k = some cell) ∨
        ∃ k p ρ cell id call, γ = .permission k ∧ L.client k = some ρ ∧
          x.world.clientHandlers.get? k = some cell ∧ cell.disposed = false ∧
          κ.arrival? x.world k = some (id, call) ∧ x.world.promises.size ≤ p ∧
          cell'.core.queue = [(.forward ρ.handler call, p)] ∧ cell'.core.phase = .waiting) := by
  have missing : ∀ g', L.gate g' ≠ some γ := fun g' hg' => by
    rw [v.regular.coherent.gate_injective (v.grows.gate hg') hγ] at hg'
    cases hnew.symm.trans hg'
  have absent : x.world.gates.get? g = none := by
    cases hg : x.world.gates.get? g with
    | none => rfl
    | some c =>
      obtain ⟨_, hγ', -⟩ := s.regular.orderly.gates g c hg
      cases hnew.symm.trans hγ'
  have pushed : ∀ {cell : GateCell}, w'.gates = x.world.gates.push cell → cell' = cell := by
    grind
  refine ⟨missing, ?_⟩
  cases v.occurs.happening.newcomers with
  | none gates =>
    have hlt : g < x.world.gates.size := gates ▸ Table.lt_size_of_get? hcell'
    obtain ⟨c, hc⟩ := Table.get?_isSome_of_lt hlt
    cases absent.symm.trans hc
  | @gate k p ρ cell id call client handler undisposed asked gates fresh =>
    obtain rfl := pushed gates
    have ok := of_eq_some (v.regular.orderly.gates g _ hcell') hγ
    have perm := v.permission_of_forward client (ok.queue _ (.head _))
    exact ⟨rfl, .inr ⟨k, p, ρ, cell, id, call, perm, client, handler, undisposed,
      (asked k).trans (if_pos rfl), fresh, rfl, rfl⟩⟩
  | handler => grind

end Advance

theorem line_nil {d : Deferred Job Nat} (h : d.queue = []) : line [] d = [] := by
  unfold line Deferred.tickets
  rw [h]
  split <;> rfl

/-! ## The order is kept -/

theorem Ledger.Coherent.forward_of_lane (h : L.Coherent) {job : Job}
    (hρ : L.client k = some ρ) (lane : (Action.invoke job t).lane L = some (.permission k)) :
    ∃ call, job = .forward ρ.handler call := by
  cases job with
  | forward _ call =>
    obtain ⟨o, ho, heq⟩ := Option.map_eq_some_iff.mp lane
    obtain rfl := GateRole.permission.inj heq
    obtain ⟨_, hη, howner⟩ := Option.bind_eq_some_iff.mp ho
    obtain ⟨_, hρ', rfl⟩ := (h.handler hη).2 o howner
    exact ⟨call, by rw [Option.some.inj (hρ.symm.trans hρ')]⟩
  | _ => cases lane

theorem post_of_lane {job : Job}
    (lane : (Action.invoke job t).lane L = some (.readiness h)) : ∃ call, job = .post h call := by
  cases job with
  | post _ call =>
    obtain rfl := GateRole.readiness.inj (Option.some.inj lane)
    exact ⟨call, rfl⟩
  | forward =>
    obtain ⟨_, -, heq⟩ := Option.map_eq_some_iff.mp lane
    cases heq
  | _ => cases lane

theorem Entering.arrival (h : Entering w κ (.permission k)) :
    ∃ id call, κ.arrival? w k = some (id, call) := by
  cases h with
  | request arrival => exact ⟨_, _, arrival⟩

theorem Entering.of_readiness (he : Entering w κ (.readiness h)) :
    ∃ call t, κ = .action (.invoke (.forward h call) t) := by
  cases he with
  | forward => exact ⟨_, _, rfl⟩

namespace Advance

variable (s : Steady ts x L) (v : Advance ts x m L L' κ w' more rest)
include s v

variable {id k : Nat} {call : Call}

omit s in
theorem client_of_arrival (h : κ.arrival? x.world k = some (id, call)) :
    ∃ ρ, L.client k = some ρ := by
  cases v.occurs.happening.newcomers with
  | none _ asked => exact (asked k id call h).1
  | @gate _ _ ρ _ _ _ client _ _ asked =>
    rw [asked k] at h
    split at h
    · next hk => exact ⟨ρ, hk ▸ client⟩
    · cases h
  | handler unasked => exact absurd ((unasked k).symm.trans h) nofun

variable {ρ : ClientRole}

/-- A request that arrives at a client handler which is not leaving comes before a permission gate. -/
theorem gate_of_arrival (hρ : L.client k = some ρ)
    (staying : ¬ L.leaving k) (h : κ.arrival? x.world k = some (id, call)) :
    ∃ g, L'.gate g = some (.permission k) := by
  obtain ⟨cell, hcell, ok⟩ := s.regular.client_get? hρ
  cases v.occurs.happening.newcomers with
  | none _ asked =>
    obtain ⟨-, cell', hcell', gone | gated⟩ := asked k id call h
    · cases hcell.symm.trans hcell'
      exact absurd (ok.disposed gone) staying
    · cases hcell.symm.trans hcell'
      obtain ⟨g, hg⟩ := Option.isSome_iff_exists.mp gated
      exact ⟨g, v.grows.gate (ok.gate g hg)⟩
  | gate client _ _ asked _ _ clients =>
    rw [asked k] at h
    split at h
    · next hk =>
      subst hk
      have hget : w'.clientHandlers.get? k = some { cell with gate := some x.world.gates.size } := by
        rw [clients, Table.get?_modify_self, hcell]
        rfl
      obtain ⟨_, -, ok'⟩ := v.regular.orderly.clients k _ hget
      exact ⟨_, ok'.gate _ rfl⟩
    · cases h
  | handler unasked => exact absurd ((unasked k).symm.trans h) nofun

variable {cell' : GateCell}

theorem job_role {g t : Nat} {job : Job} {γ : GateRole} (hγ : γ = .permission k)
    (hg : L'.gate g = some γ) (hcell' : w'.gates.get? g = some cell') (mem : (job, t) ∈ cell'.core.queue)
    (fresh : x.world.promises.size ≤ t) (h : κ.arrival? x.world k = some (id, call)) :
    L'.promise t = some (.job k ((ofTrace ts).arrivals k).length) := by
  subst hγ
  have ok := of_eq_some (v.regular.orderly.gates g cell' hcell') hg
  obtain ⟨-, -, _, -, -, -, role, -⟩ := ok.queue (job, t) mem
  rcases v.grows.newJob role with old | _
  · exact absurd (s.regular.bounded.promise old) (Nat.not_lt.mpr fresh)
  · grind [v.arrivals]

variable {a : Nat} {η : HandlerRole}

theorem waiting_old {g : Nat} (order : InOrder (ofTrace ts) L x k ρ η a) (hγ : L.gate g = some (.permission k))
    (hcell' : w'.gates.get? g = some cell') (a' : Nat) (taken : ∀ job t, κ = .action (.invoke job t) →
      (Action.invoke job t).lane L = some (.permission k) → a' = a + 1)
    (kept : (∀ job t, κ = .action (.invoke job t) →
      (Action.invoke job t).lane L ≠ some (.permission k)) → a' = a) :
    Ranked L' (.job k) a' (line (crew L' (.permission k) (more ++ rest)) cell'.core) ∧
      (cell'.core.Intact → a' + (line (crew L' (.permission k) (more ++ rest)) cell'.core).length =
        ((ofTrace (ts ++ [x.transition m])).arrivals k).length) := by
  obtain ⟨cell, hcell⟩ := s.regular.gate_get? hγ
  obtain ⟨ranked, count⟩ := order.waiting g cell hγ hcell
  have ext := v.grows.toExtends
  rw [v.arrivals k]
  cases (v.gate_step s hγ hcell hcell').2 with
  | kept same away unentered intact =>
    rw [same, kept away]
    refine ⟨ranked.mono ext, fun hi => ?_⟩
    have unasked : κ.arrival? x.world k = none := by
      cases harr : κ.arrival? x.world k with
      | none => rfl
      | some => exact absurd hi (unentered (.request harr)).2
    rw [unasked, count (intact hi)]
    simp
  | joined entered intact _ grown job mem =>
    obtain entering | ⟨_, _, -, heq, -⟩ := entered
    · obtain ⟨_, _, arrival⟩ := entering.arrival
      have role := v.job_role s rfl (v.grows.gate hγ) hcell' mem (Nat.le_refl _) arrival
      have away : ∀ job t, κ = .action (.invoke job t) →
          (Action.invoke job t).lane L ≠ some (.permission k) := by
        rintro job t rfl
        cases arrival
      rw [← count intact] at role
      have total := count intact
      rw [grown, kept away, arrival]
      refine ⟨(ranked.mono ext).concat role, fun _ => ?_⟩
      simp only [List.length_append, List.length_singleton, Option.toList_some]
      omega
    · cases heq
  | taken job t cause lane line_eq same =>
    rw [taken job t cause lane]
    rw [line_eq] at ranked count
    refine ⟨ranked.2.mono ext, fun hi => ?_⟩
    rw [same] at hi
    have unasked : κ.arrival? x.world k = none := by rw [cause]; rfl
    have := count hi
    rw [unasked]
    simp at this ⊢
    omega
  | cut shut less away =>
    rw [kept away]
    exact ⟨(ranked.mono ext).initial less, fun hi => absurd hi shut⟩

section

variable (hρ : L.client k = some ρ) (hη : L.handler ρ.handler = some η) (order : InOrder (ofTrace ts) L x k ρ η a)
include hρ hη order

theorem passed_old (hcell' : w'.gates.get? η.gate = some cell') {b' : Nat}
    (hb' : w'.upcoming ρ.handler = some b') (a' : Nat) (taken : ∀ job t, κ = .action (.invoke job t) →
      (Action.invoke job t).lane L = some (.permission k) → a' = a + 1 ∧ L.promise t = some (.job k a))
    (kept : (∀ job t, κ = .action (.invoke job t) →
      (Action.invoke job t).lane L ≠ some (.permission k)) → a' = a) :
    Ranked L' (.entry k) b' (line (crew L' (.readiness ρ.handler) (more ++ rest)) cell'.core) ∧
      (cell'.core.Intact →
        b' + (line (crew L' (.readiness ρ.handler) (more ++ rest)) cell'.core).length = a') := by
  obtain ⟨hgate, -⟩ := s.regular.coherent.handler hη
  obtain ⟨cell, hcell⟩ := s.regular.gate_get? hgate
  have ext := v.grows.toExtends
  obtain ⟨-, η', hη', howner⟩ := s.regular.coherent.client hρ
  cases hη.symm.trans hη'
  have forward : ∀ call t, (Action.invoke (.forward ρ.handler call) t).lane L = some (.permission k) :=
    fun call t => by simp [Action.lane, hη, howner]
  obtain ⟨_, side⟩ := v.nearSide s
  -- Whether the handler has sent a call just now.
  obtain ⟨fresh, -⟩ | ⟨hb, unsent⟩ | ⟨b, call, t, rfl, hb, rfl⟩ :=
    (side.conduct ρ.handler).upcoming (v.near_mono s) hb'
  · obtain ⟨hcell, hget⟩ := s.regular.handler_get? hη
    cases fresh.symm.trans (standing_eq_some hget)
  · obtain ⟨ranked, count⟩ := order.passed cell b' hcell hb
    cases (v.gate_step s hgate hcell hcell').2 with
    | kept same _ unentered intact =>
      rw [same]
      refine ⟨ranked.mono ext, fun hi => ?_⟩
      rw [count (intact hi)]
      refine (kept ?_).symm
      rintro job t rfl hlane
      obtain ⟨call, rfl⟩ := s.regular.coherent.forward_of_lane hρ hlane
      exact absurd hi (unentered .forward).2
    | joined entered intact _ grown job mem =>
      obtain entering | ⟨h, call, -, heq, _⟩ := entered
      · obtain ⟨call, t, rfl⟩ := entering.of_readiness
        obtain ⟨ha, rank⟩ := taken _ _ rfl (forward call t)
        have role : L'.promise x.world.promises.size = some (.entry k a) := by
          have ok := of_eq_some (v.regular.orderly.gates _ cell' hcell') (v.grows.gate hgate)
          obtain ⟨η', _, hη', -, hrole⟩ := ok.queue (job, _) mem
          cases (v.grows.handler hη).symm.trans hη'
          rw [howner] at hrole
          obtain ⟨-, _, -, hn, -⟩ := hrole
          rcases v.grows.newEntry hn with old | cause
          · exact absurd (s.regular.bounded.promise old) (Nat.lt_irrefl _)
          · obtain ⟨-, rfl⟩ := Role.job.inj (Option.some.inj (rank.symm.trans cause))
            exact hn
        rw [← count intact] at role
        rw [grown, ha, ← count intact]
        refine ⟨(ranked.mono ext).concat role, fun _ => ?_⟩
        simp
        omega
      · grind [s.regular.isOwned]
    | taken _ t cause lane =>
      obtain ⟨call, rfl⟩ := post_of_lane lane
      exact absurd cause (unsent call t)
    | cut shut less =>
      exact ⟨(ranked.mono ext).initial less, fun hi => absurd hi shut⟩
  · obtain ⟨ranked, count⟩ := order.passed cell b hcell hb
    have same_a : a' = a := kept (by
      rintro job _ heq
      cases heq
      rintro ⟨⟩)
    cases (v.gate_step s hgate hcell hcell').2 with
    | kept _ away | cut _ _ away => exact absurd rfl (away _ _ rfl)
    | joined entered =>
      obtain entering | ⟨_, _, heq, -⟩ := entered
      · obtain ⟨_, _, heq⟩ := entering.of_readiness
        cases heq
      · cases heq
    | taken _ _ _ _ line_eq same =>
      rw [line_eq] at ranked count
      refine ⟨ranked.2.mono ext, fun hi => ?_⟩
      rw [same] at hi
      have := count hi
      simp only [List.length_cons] at this
      omega

theorem inOrder_old : ∃ a', InOrder (ofTrace (ts ++ [x.transition m])) L' ⟨w', more ++ rest⟩ k ρ η a' := by
  -- One request more has been let through if it was let through just now.
  obtain ⟨a', taken, kept⟩ : ∃ a', (∀ job t, κ = .action (.invoke job t) →
      (Action.invoke job t).lane L = some (.permission k) → a' = a + 1) ∧
      ((∀ job t, κ = .action (.invoke job t) →
        (Action.invoke job t).lane L ≠ some (.permission k)) → a' = a) := by
    by_cases h : ∃ job t, κ = .action (.invoke job t) ∧
        (Action.invoke job t).lane L = some (.permission k)
    · obtain ⟨job, t, hκ, lane⟩ := h
      exact ⟨a + 1, fun _ _ _ _ => rfl, fun none => absurd lane (none job t hκ)⟩
    · exact ⟨a, fun job t hκ lane => absurd ⟨job, t, hκ, lane⟩ h, fun _ => rfl⟩
  have rank : ∀ job t, κ = .action (.invoke job t) →
      (Action.invoke job t).lane L = some (.permission k) → L.promise t = some (.job k a) := by
    rintro job t rfl lane
    obtain ⟨γ, hjob, -, g, hg⟩ := v.action_ok s _ rfl
    obtain rfl := Option.some.inj ((hjob.lane s.regular.coherent).symm.trans lane)
    obtain ⟨cell, hcell⟩ := s.regular.gate_get? hg
    have ranked := (order.waiting g cell hg hcell).1
    rw [v.crew_before, Cause.consumed, crew_of_pos lane] at ranked
    exact ranked.1
  refine ⟨a', ⟨fun g cell' hγ hcell' => ?_, fun missing => ?_, fun cell' _ hcell' hb' => ?_⟩⟩
  · cases hold : L.gate g with
    | some =>
      obtain rfl := Option.some.inj ((v.grows.gate hold).symm.trans hγ)
      exact v.waiting_old s order hold hcell' a' taken kept
    | none =>
      obtain ⟨missing, -, fresh⟩ := v.new_gate s hold hγ hcell'
      obtain ⟨rfl, silent⟩ := order.unasked missing
      have same : a' = 0 := kept fun job t hκ lane => by
        obtain ⟨γ, hjob, -, g', hg'⟩ := v.action_ok s _ hκ
        obtain rfl := Option.some.inj ((hjob.lane s.regular.coherent).symm.trans lane)
        exact missing g' hg'
      rw [same, v.crew_new s missing]
      rcases fresh with ⟨empty, -, clients⟩ | ⟨_, p, _, cell, _, _, heq, _, hcell, undisposed, arrival,
        fresh, queue, phase⟩
      · -- The gate came into being shut, when the client was already leaving.
        rw [line_nil empty]
        refine ⟨trivial, fun hi => ?_⟩
        have leaving : L'.leaving k := by
          obtain ⟨cell, hcell, ok⟩ := s.regular.client_get? hρ
          rcases v.regular.orderly.held k cell (clients k cell hcell) g hγ with gone | held
          · exact v.grows.leaving (ok.disposed gone)
          · cases hold.symm.trans (ok.gate g held)
        have shut := v.regular.orderly.shut g cell' hcell' k hγ leaving
        rcases hi with hi | hi <;> cases shut.symm.trans hi
      · obtain rfl := GateRole.permission.inj heq
        have line_eq : line [] cell'.core = [p] := by
          unfold line
          rw [Deferred.tickets_of_intact (.inl phase), queue]
          rfl
        have staying : ¬ L.leaving k := fun hl =>
          (by cases undisposed.symm.trans (s.regular.orderly.left k cell hcell hl))
        have role := v.job_role s rfl hγ hcell' (queue ▸ List.mem_cons_self) fresh arrival
        rw [silent staying] at role
        rw [line_eq, v.arrivals k, silent staying, arrival]
        exact ⟨⟨role, trivial⟩, fun _ => rfl⟩
  · have missing' : ∀ g, L.gate g ≠ some (.permission k) := fun g hg => missing g (v.grows.gate hg)
    obtain ⟨rfl, silent⟩ := order.unasked missing'
    refine ⟨kept fun job t hκ lane => ?_, fun staying => ?_⟩
    · obtain ⟨γ, hjob, -, g', hg'⟩ := v.action_ok s _ hκ
      obtain rfl := Option.some.inj ((hjob.lane s.regular.coherent).symm.trans lane)
      exact missing' g' hg'
    · have stayed : ¬ L.leaving k := fun hl => staying (v.grows.leaving hl)
      rw [v.arrivals k, silent stayed]
      cases harr : κ.arrival? x.world k with
      | none => rfl
      | some =>
        obtain ⟨g, hg⟩ := v.gate_of_arrival s hρ stayed harr
        exact absurd hg (missing g)
  · exact v.passed_old s hρ hη order hcell' hb' a'
      (fun job t hκ lane => ⟨taken job t hκ lane, rank job t hκ lane⟩) kept

end

/-- The handler of a new client is new. -/
theorem handler_new (hnew : L.client k = none) (hρ : L'.client k = some ρ) :
    L.handler ρ.handler = none ∧ x.world.standing ρ.handler = none := by
  obtain ⟨-, _, hη, howner⟩ := v.regular.coherent.client hρ
  have unhandled : L.handler ρ.handler = none := by
    cases hh : L.handler ρ.handler with
    | none => rfl
    | some =>
      cases (v.grows.handler hh).symm.trans hη
      obtain ⟨_, hρ', -⟩ := (s.regular.coherent.handler hh).2 k howner
      cases hnew.symm.trans hρ'
  refine ⟨unhandled, standing_eq_none ?_⟩
  cases hh : x.world.serverHandlers.get? ρ.handler with
  | none => rfl
  | some cell =>
    obtain ⟨_, hη', -⟩ := s.regular.orderly.handlers _ cell hh
    cases unhandled.symm.trans hη'

/-- A new client has sent nothing. -/
theorem arrivals_new (hnew : L.client k = none) :
    (ofTrace (ts ++ [x.transition m])).arrivals k = [] := by
  rw [v.arrivals k, s.unasked k hnew]
  cases harr : κ.arrival? x.world k with
  | none => rfl
  | some =>
    obtain ⟨_, hρ⟩ := v.client_of_arrival harr
    cases hnew.symm.trans hρ

theorem inOrder_new (hnew : L.client k = none)
    (hρ : L'.client k = some ρ) (hη : L'.handler ρ.handler = some η) :
    InOrder (ofTrace (ts ++ [x.transition m])) L' ⟨w', more ++ rest⟩ k ρ η 0 := by
  have silent := v.arrivals_new s hnew
  have stranger : ∀ g, L.gate g ≠ some (.permission k) := fun g hg => by
    obtain ⟨ρ', hρ'⟩ := s.regular.coherent.permission hg
    cases hnew.symm.trans hρ'
  obtain ⟨_, absent⟩ := v.handler_new s hnew hρ
  refine ⟨fun g cell' hγ hcell' => ?_, fun _ => ⟨rfl, fun _ => silent⟩, fun cell' _ hcell' hb' => ?_⟩
  · have hold : L.gate g = none := by
      cases hg : L.gate g with
      | none => rfl
      | some =>
        cases (v.grows.gate hg).symm.trans hγ
        exact absurd hg (stranger g)
    obtain ⟨missing, -, ⟨empty, -⟩ | ⟨k', _, ρ', _, _, _, heq, hρ', -⟩⟩ := v.new_gate s hold hγ hcell'
    · rw [v.crew_new s missing, line_nil empty, silent]
      exact ⟨trivial, fun _ => rfl⟩
    · obtain rfl := GateRole.permission.inj heq
      cases hnew.symm.trans hρ'
  · obtain ⟨hgate, -⟩ := v.regular.coherent.handler hη
    have hold : L.gate η.gate = none := by
      cases hg : L.gate η.gate with
      | none => rfl
      | some =>
        grind [v.grows.gate, s.regular.coherent.readiness]
    obtain ⟨missing, -, ⟨empty, -⟩ | ⟨k', _, _, _, _, _, heq, -⟩⟩ := v.new_gate s hold hgate hcell'
    · rw [v.crew_new s missing, line_nil empty]
      refine ⟨trivial, fun _ => ?_⟩
      obtain ⟨_, side⟩ := v.nearSide s
      have never := upcoming_ne_some absent
      obtain ⟨-, rfl⟩ | ⟨hb, -⟩ | ⟨_, _, _, -, hb, -⟩ :=
        (side.conduct ρ.handler).upcoming (v.near_mono s) hb'
      · rfl
      · exact absurd hb (never _)
      · exact absurd hb (never _)
    · cases heq

/-- Every move of a steady exchange leads to a steady exchange. -/
theorem steady : Steady (ts ++ [x.transition m]) (x.step m) L' := by
  have delivery := v.occurs.delivery s.regular.orderly.wired s.delivery
  refine (congrArg (fun y => Steady (ts ++ [x.transition m]) y L') v.occurs.after).mpr ?_
  exact {
    regular := v.regular
    agenda := v.agenda
    delivery := (congrArg (Delivery (ts ++ [x.transition m])) v.occurs.after).mp delivery
    linked := Nat.le_trans s.linked v.occurs.happening.channels_le
    uncut := fun ho h => by
      obtain ⟨_, side⟩ := v.nearSide s
      have before := v.near_mono s ho
      exact (side.conduct h).uncut before (s.uncut before h)
    crewed := fun g _ _ hγ hcell' => by
      cases hold : L.gate g with
      | some =>
        obtain rfl := Option.some.inj ((v.grows.gate hold).symm.trans hγ)
        obtain ⟨_, hcell⟩ := s.regular.gate_get? hold
        exact (v.gate_step s hold hcell hcell').1
      | none =>
        obtain ⟨missing, idle, -⟩ := v.new_gate s hold hγ hcell'
        rw [v.crew_new s missing, idle]
        exact .resting
    unasked := fun k hk => by
      have hold : L.client k = none := by
        cases hc : L.client k with
        | none => rfl
        | some => exact absurd (hk.symm.trans (v.grows.client hc)) nofun
      exact v.arrivals_new s hold
    inOrder := fun k _ _ hρ hη => by
      cases hold : L.client k with
      | some ρ' =>
        obtain rfl := Option.some.inj ((v.grows.client hold).symm.trans hρ)
        obtain ⟨-, η', hη', -⟩ := s.regular.coherent.client hold
        obtain rfl := Option.some.inj ((v.grows.handler hη').symm.trans hη)
        obtain ⟨_, order⟩ := s.inOrder k ρ' η' hold hη'
        exact v.inOrder_old s hold hη' order
      | none => exact ⟨0, v.inOrder_new s hold hρ hη⟩ }

end Advance

/-! ## Runs -/

theorem World.outgoing_opening (serve : Serving) (c : Nat) :
    (Exchange.opening serve).world.outgoing c = [] := by
  unfold outgoing
  split
  · next q hq =>
    rw [opening_eq, Table.get?_push] at hq
    split at hq <;> cases hq
    split <;> rfl
  · rfl

theorem Steady.opening (serve : Serving) :
    Steady [] (Exchange.opening serve) .blank where
  regular := .opening _ serve
  agenda := .nil
  delivery :=
    { balance := fun _ => by
        rw [transit, outgoing_opening]
        rfl
      courier := .resting }
  linked := Nat.le_refl 2
  uncut _ h := by
    rw [standing_eq_none rfl]
    rintro ⟨⟩
  crewed _ _ _ hγ := by cases hγ
  unasked _ _ := rfl
  inOrder _ _ _ hρ := by cases hρ

/-- What holds at the start and is kept by every allowed move of a steady exchange holds after every
run. -/
theorem steady_induction {serve : Serving} {A : Move → Prop}
    {P : List Transition → Exchange → Ledger → Prop} (start : P [] (Exchange.opening serve) .blank)
    (move : ∀ ts x m L L' κ w' more rest, Steady ts x L → P ts x L → A m →
      Advance ts x m L L' κ w' more rest → P (ts ++ [x.transition m]) ⟨w', more ++ rest⟩ L')
    (ms : List Move) (hms : ∀ m ∈ ms, A m) :
    ∃ L, Steady ((Exchange.opening serve).trace ms) ((Exchange.opening serve).run ms) L ∧
      P ((Exchange.opening serve).trace ms) ((Exchange.opening serve).run ms) L := by
  refine Runs.induction_of (P := fun ts x => ∃ L, Steady ts x L ∧ P ts x L) ⟨.blank, .opening serve, start⟩
    ?_ ms hms
  rintro ts x m ⟨L, s, hP⟩ hm
  obtain ⟨κ, w', more, rest, L', v⟩ := s.advance m
  have after := move ts x m L L' κ w' more rest s hP hm v
  rw [← v.occurs.after] at after
  exact ⟨L', v.steady s, after⟩

end Switchboard
