import Switchboard.Proofs.Consultation

/-!
# Nothing passes without permission

A client handler has the permission of its client checked once, at the first request. Nothing that
carries its number is sent on the server channel before the check has ended well and the server is
ready. If the check ends badly, nothing is ever sent there, and every request is answered with the
reason: once an exchange has come to rest and the client's channel is open, the answers are as many as
the requests, each under its own number.
-/

namespace Switchboard

open World

open Exchange History

namespace Exchange

/-- Nothing is left to do, and no task that matters can go on. -/
def AtRest (x : Exchange) : Prop :=
  x.agenda = [] ∧ ∀ (t : Nat) (f : Future) (κ : Continuation), x.world.tasks.get? t = some (.await f κ) →
    x.world.isMoot κ = true ∨ (x.world.look f).2.2 = none

def Resting (w : World) : Task → Bool
  | .await f κ => w.isMoot κ || (w.look f).2.2.isNone
  | _ => true

theorem atRest_iff {x : Exchange} : AtRest x ↔
    x.agenda.isEmpty = true ∧ x.world.tasks.toList.all (Resting x.world) = true := by
  have resting : ∀ f κ, Resting x.world (.await f κ) = true ↔
      x.world.isMoot κ = true ∨ (x.world.look f).2.2 = none := fun f κ => by
    simp [Resting]
  rw [AtRest, List.isEmpty_iff, List.all_eq_true]
  refine and_congr_right fun _ => ⟨fun h task hmem => ?_, fun h t f κ ht => ?_⟩
  · cases task with
    | await f κ =>
      obtain ⟨t, ht⟩ := List.getElem?_of_mem hmem
      exact (resting f κ).mpr (h t f κ (by simpa [Table.toList, Table.get?] using ht))
    | _ => rfl
  · grind [Table.toList, Table.get?]

instance (x : Exchange) : Decidable (AtRest x) := decidable_of_iff _ atRest_iff.symm

end Exchange

variable {H : History} {L L' : Ledger} {w w' : World} {κ : Cause} {more rest : List Action}
  {ts : List Transition} {x : Exchange} {m : Move}

/-! ## Verdicts -/

theorem GateStep.waiting {γ : GateRole} {g : Nat} {d d' : Deferred Job Nat}
    (h : GateStep L w γ g d κ d' more) (hd : d'.phase = .waiting) : d.phase = .waiting := by
  cases h with
  | shut _ _ phase => cases phase.symm.trans hd
  | opened waiting | failed e waiting => exact waiting
  | _ => exact hd

/-- A gate that waits no longer does so once what it waits for is there. -/
theorem Happening.settles {t g : Nat} {f : Future} {r : Settled} {cell cell' : GateCell}
    (hap : Happening L w (.task t) w' more) (task : w.tasks.get? t = some (.await f (.gate g)))
    (gate : w.gates.get? g = some cell) (waiting : cell.core.phase = .waiting)
    (looked : (w.look f).2.2 = some r) (gate' : w'.gates.get? g = some cell') :
    cell'.core.phase ≠ .waiting := by
  have same : ∀ {f' : Future} {κ : Continuation}, w.tasks.get? t = some (.await f' κ) →
      f' = f ∧ κ = .gate g := fun h => by
    obtain ⟨hf, hκ⟩ := Task.await.inj (Option.some.inj (h.symm.trans task))
    exact ⟨hf, hκ⟩
  cases hap with
  | calm _ _ _ _ closing => exact absurd task (closing f (.gate g))
  | pumping task' => cases task'.symm.trans task
  | waited task' _ looked' =>
    obtain ⟨rfl, rfl⟩ := same task'
    rw [looked'] at looked
    cases looked
  | finished task_eq _ quiet =>
    obtain ⟨_, heq, moot | ⟨_, -, ended⟩⟩ := quiet f (.gate g) (Option.some.inj (task_eq.symm.trans task))
    · simp [isMoot, gate, waiting] at moot
    · obtain rfl := Continuation.gate.inj heq
      exact absurd waiting (ended cell gate)
  | resolved task' | answered task' | muted task' => cases (same task').2
  | opened | failed => grind

variable {k : Nat}

/-- What it takes to see how a check ended. -/
theorem Advance.verdict (s : Steady ts x L) (v : Advance ts x m L L' κ w' more rest) {o : Outcome}
    (h : (x.transition m).verdict? k = some o) :
    ∃ t f g cell r, κ = .task t ∧ x.world.tasks.get? t = some (.await f (.gate g)) ∧
      L.gate g = some (.permission k) ∧ x.world.gates.get? g = some cell ∧
      cell.core.phase = .waiting ∧ (x.world.look f).2.2 = some r ∧ outcomeOf r = o ∧
      ∃ client, x.world.clientHandlers.get? k = some client ∧ client.gate = some g := by
  unfold Transition.verdict? at h
  rw [v.occurs.polled] at h
  cases κ with
  | action | owner => cases h
  | task t =>
    rw [Cause.polled?] at h
    cases ht : x.world.tasks.get? t with
    | none => rw [ht] at h; cases h
    | some task =>
      rw [ht] at h
      cases task with
      | await f κ' =>
        cases κ' with
        | gate g =>
          replace h : (if _ then _ else none) = some o := h
          split at h
          · next hc =>
            obtain ⟨holds, waits⟩ := Bool.and_eq_true_iff.mp hc
            obtain ⟨client, hclient, hgate⟩ := (Option.any_eq_true _ _).mp holds
            obtain ⟨cell, hcell, hphase⟩ := (Option.any_eq_true _ _).mp waits
            obtain ⟨r, hr, ho⟩ := Option.map_eq_some_iff.mp h
            obtain ⟨_, -, ok⟩ := s.regular.orderly.clients k client hclient
            have hgate : client.gate = some g := by simpa using hgate
            exact ⟨t, f, g, cell, r, rfl, ht, ok.gate g hgate, hcell, by simpa using hphase, hr, ho, client,
              hclient, hgate⟩
          · cases h
        | _ => cases h
      | _ => cases h

/-- How the check of a client's permission ends is seen once, and its gate waits no longer then. -/
def Judged (ts : List Transition) (x : Exchange) (L : Ledger) : Prop :=
  ∀ k o, (ofTrace ts).verdict k o →
    (∃ g cell, L.gate g = some (.permission k) ∧ x.world.gates.get? g = some cell ∧
      cell.core.phase ≠ .waiting) ∧ ∀ o', (ofTrace ts).verdict k o' → o' = o

theorem Judged.step (s : Steady ts x L) (judged : Judged ts x L)
    (v : Advance ts x m L L' κ w' more rest) :
    Judged (ts ++ [x.transition m]) ⟨w', more ++ rest⟩ L' := by
  have split : ∀ {k o}, (ofTrace (ts ++ [x.transition m])).verdict k o →
      (ofTrace ts).verdict k o ∨ (x.transition m).verdict? k = some o := by
    rintro k o ⟨t, ht, hv⟩
    rcases List.mem_append.mp ht with ht | ht
    · exact .inl ⟨t, ht, hv⟩
    · exact .inr (List.mem_singleton.mp ht ▸ hv)
  -- The gate waits before the check is seen to end, and so it was not seen before.
  have apart : ∀ {k o o'}, (ofTrace ts).verdict k o →
      (x.transition m).verdict? k = some o' → False := by
    intro k o o' old new
    obtain ⟨⟨g, cell, hg, hcell, ended⟩, -⟩ := judged k o old
    obtain ⟨_, _, _, cell', _, -, -, hg', hcell', waiting, -⟩ := v.verdict s new
    obtain rfl := s.regular.coherent.single hg hg'
    cases hcell.symm.trans hcell'
    exact ended waiting
  intro k o hv
  refine ⟨?_, fun o' hv' => ?_⟩
  · rcases split hv with old | new
    · obtain ⟨⟨g, cell, hg, hcell, ended⟩, -⟩ := judged k o old
      obtain ⟨cell', hcell', step⟩ := s.regular.gateStep (v.action_ok s) v.occurs.happening hg hcell
      exact ⟨g, cell', v.grows.gate hg, hcell', fun h => ended (step.waiting h)⟩
    · obtain ⟨t, _, g, cell, _, rfl, task, hg, hcell, waiting, looked, -⟩ := v.verdict s new
      obtain ⟨cell', hcell', -⟩ := s.regular.gateStep (v.action_ok s) v.occurs.happening hg hcell
      exact ⟨g, cell', v.grows.gate hg, hcell',
        v.occurs.happening.settles task hcell waiting looked hcell'⟩
  · rcases split hv with old | new <;> rcases split hv' with old' | new'
    · exact (judged k o old).2 o' old'
    · exact (apart old new').elim
    · exact (apart old' new).elim
    · exact Option.some.inj (new'.symm.trans new)

/-! ## What a handler may say -/

/-- A handler that has said something for a client had the permission, and the server is ready. -/
def Entitled (ts : List Transition) (L : Ledger) : Prop :=
  ∀ k ρ η, L.client k = some ρ → L.handler ρ.handler = some η → saidBy ts ρ.handler ≠ [] →
    (ofTrace ts).Granted k ∧ L.ready η.source

variable {ρ : ClientRole}

section

variable (s : Steady ts x L) (spoken : Spoken ts x L) (entitled : Entitled ts L) (v : Advance ts x m L L' κ w' more rest)
include s spoken entitled v

theorem Entitled.of_sent {η : HandlerRole} (hρ : L.client k = some ρ) (hη : L.handler ρ.handler = some η)
    (said : ((x.transition m).sent near).filter (concerns ρ.handler) ≠ []) :
    (ofTrace ts).Granted k ∧ L.ready η.source := by
  obtain ⟨out, side⟩ := v.nearSide s
  rw [side.sent (congrArg world v.occurs.after)] at said
  have conduct := side.conduct ρ.handler
  obtain ⟨_, account, -⟩ := spoken ρ.handler
  -- A call is only sent when it was let through at the readiness gate.
  have posted : ∀ {call : Call} {t : Nat}, κ = .action (.invoke (.post ρ.handler call) t) →
      (ofTrace ts).Granted k ∧ L.ready η.source := by
    intro call t cause
    obtain ⟨γ, hjob, phase, -⟩ := v.action_ok s _ cause
    obtain rfl : γ = .readiness ρ.handler := (Option.some.inj (hjob.lane s.regular.coherent)).symm
    obtain ⟨_, _, hη', -, hrole⟩ := hjob
    cases hη.symm.trans hη'
    obtain ⟨-, _, hη'', howner⟩ := s.regular.coherent.client hρ
    cases hη.symm.trans hη''
    rw [howner] at hrole
    have ready := of_eq_some phase hη
    exact ⟨hrole.1, ready⟩
  generalize out.filter (concerns ρ.handler) = mine at conduct said
  cases conduct with
  | same | stranded | made => exact absurd rfl said
  | announced cause | posted cause => exact posted cause
  | @left _ _ cause _ _ _ _ =>
    refine entitled k ρ η hρ hη fun silent => said ?_
    cases account with
    | silent =>
      grind
    | present _ _ _ _ _ spoke | departed _ _ spoke => cases silent.symm.trans spoke

theorem Entitled.step : Entitled (ts ++ [x.transition m]) L' := by
  intro k ρ _ hρ hη said
  have ext := extends_ofTrace ts (x.transition m)
  cases hold : L.client k with
  | none =>
    -- A new handler has said nothing.
    obtain ⟨-, absent⟩ := v.handler_new s hold hρ
    obtain ⟨_, account, -⟩ := spoken ρ.handler
    obtain ⟨out, side⟩ := v.nearSide s
    rw [saidBy_append, side.sent (congrArg world v.occurs.after)] at said
    have conduct := side.conduct ρ.handler
    refine absurd (List.append_eq_nil_iff.mpr ⟨?_, ?_⟩) said
    · cases account with
      | silent _ silent => exact silent
      | present _ _ standing | departed _ standing => exact absurd (absent.symm.trans standing) nofun
    · generalize out.filter (concerns ρ.handler) = mine at conduct
      cases conduct with
      | same | stranded | made => rfl
      | announced _ _ before | posted _ _ before | left _ before =>
        exact absurd (absent.symm.trans before) nofun
  | some ρ' =>
    obtain rfl := Option.some.inj ((v.grows.client hold).symm.trans hρ)
    obtain ⟨-, η', hη', -⟩ := s.regular.coherent.client hold
    obtain rfl := Option.some.inj ((v.grows.handler hη').symm.trans hη)
    have before : (ofTrace ts).Granted k ∧ L.ready η'.source := by
      by_cases old : saidBy ts ρ'.handler = []
      · refine Entitled.of_sent s spoken entitled v hold hη' fun none => said ?_
        rw [saidBy_append, old, none]
        rfl
      · exact entitled k ρ' η' hold hη' old
    exact ⟨before.1.imp fun _ => ext.verdict, v.grows.ready before.2⟩

end

/-! ## The check -/

/-- The permission is checked when the first request arrives. -/
theorem Advance.checks (s : Steady ts x L) (v : Advance ts x m L L' κ w' more rest)
    (h : (x.transition m).checks k = true) :
    (∀ g, L.gate g ≠ some (.permission k)) ∧ (∃ g, L'.gate g = some (.permission k)) ∧
      (ofTrace ts).arrivals k = [] ∧ ∃ id call, κ.arrival? x.world k = some (id, call) := by
  obtain ⟨before, after⟩ := Bool.and_eq_true_iff.mp h
  obtain ⟨cell, hcell, hb⟩ := (Option.any_eq_true _ _).mp before
  obtain ⟨cell', hcell', ha⟩ := (Option.any_eq_true _ _).mp after
  obtain ⟨undisposed, ungated⟩ : cell.disposed = false ∧ cell.gate = none := by simpa using hb
  obtain ⟨g, hgate⟩ := Option.isSome_iff_exists.mp ha
  replace hcell' : w'.clientHandlers.get? k = some cell' :=
    (congrArg (fun y => y.world.clientHandlers.get? k = some cell') v.occurs.after).mp hcell'
  obtain ⟨ρ, hρ, _⟩ := s.regular.orderly.clients k cell hcell
  obtain ⟨_, -, ok'⟩ := v.regular.orderly.clients k cell' hcell'
  have missing : ∀ g, L.gate g ≠ some (.permission k) := fun g hg => by
    rcases s.regular.orderly.held k cell hcell g hg with gone | held
    · cases undisposed.symm.trans gone
    · cases ungated.symm.trans held
  have made := ok'.gate g hgate
  obtain ⟨-, η, hη, -⟩ := s.regular.coherent.client hρ
  obtain ⟨_, order⟩ := s.inOrder k ρ η hρ hη
  have staying : ¬ L.leaving k := fun hl =>
    absurd (undisposed.symm.trans (s.regular.orderly.left k cell hcell hl)) nofun
  refine ⟨missing, ⟨g, made⟩, (order.unasked missing).2 staying, ?_⟩
  obtain ⟨_, hgate'⟩ := v.regular.gate_get? made
  have fresh : L.gate g = none := by
    cases hg : L.gate g with
    | none => rfl
    | some =>
      cases (v.grows.gate hg).symm.trans made
      exact absurd hg (missing g)
  obtain ⟨-, -, ⟨-, -, same⟩ | ⟨_, _, _, _, id, call, heq, -, -, -, arrival, -⟩⟩ :=
    v.new_gate s fresh made hgate'
  · cases (same k cell hcell).symm.trans hcell'
    cases ungated.symm.trans hgate
  · obtain rfl := GateRole.permission.inj heq
    exact ⟨id, call, arrival⟩

def Checked (ts : List Transition) (L : Ledger) : Prop :=
  ∀ k, (∀ t ∈ ts, t.checks k = true → ∃ g, L.gate g = some (.permission k)) ∧
    ∀ earlier t later, ts = earlier ++ t :: later → t.checks k = true →
      (∀ t' ∈ earlier, t'.checks k = false) ∧ callsTo earlier k = [] ∧ (t.request? k).isSome = true

theorem Checked.step (s : Steady ts x L) (checked : Checked ts L)
    (v : Advance ts x m L L' κ w' more rest) : Checked (ts ++ [x.transition m]) L' := by
  intro k
  obtain ⟨gated, once⟩ := checked k
  refine ⟨fun t ht hc => ?_, fun earlier t later heq hc => ?_⟩
  · rcases List.mem_append.mp ht with ht | ht
    · exact (gated t ht hc).imp fun _ => v.grows.gate
    · exact (v.checks s (List.mem_singleton.mp ht ▸ hc)).2.1
  · obtain ⟨rfl, rfl, -⟩ | ⟨later', -, rfl⟩ := Runs.split_last heq
    · obtain ⟨_, -, unasked, _, _, arrival⟩ := v.checks s hc
      refine ⟨fun _ _ => ?_, ?_, ?_⟩
      · grind
      · rw [callsTo_eq, unasked]
        rfl
      · rw [v.occurs.request, arrival]
        rfl
    · exact once earlier t later' rfl hc

/-! ## The messages that answer -/

def answerTo (reply : Nat × Outcome) : String × Json :=
  (Service.response Service.clientRequester, (responseTo reply.1 reply.2).toJson)

/-- What is sent on a channel where nobody but a task that reports something sends. -/
inductive Reporting (w w' : World) (κ : Cause) (c : Nat) : Prop
  | silent (same : w'.outgoing c = w.outgoing c ∨ ∃ m, w.outgoing c = m :: w'.outgoing c)
      (mute : ∀ t f service id r, κ = .task t → w.tasks.get? t = some (.await f (.respond c service id)) →
        (w.look f).2.2 = some r → w.isOpen c = false)
  | report {t id : Nat} {f : Future} {service : String} {r : Settled} (cause : κ = .task t)
      (task : w.tasks.get? t = some (.await f (.respond c service id)))
      (looked : (w.look f).2.2 = some r) (isOpen : w.isOpen c = true)
      (outgoing : w'.outgoing c = w.outgoing c ++
        [(service, (responseTo id (outcomeOf r)).toJson)])

variable {c : Nat}

theorem Reporting.of_deed (deed : κ.isTask = false)
    (same : w'.outgoing c = w.outgoing c ∨ ∃ m, w.outgoing c = m :: w'.outgoing c) :
    Reporting w w' κ c := by
  refine .silent same ?_
  rintro _ _ _ _ _ rfl
  cases deed

theorem Reporting.of_task {t : Nat} (same : w'.outgoing c = w.outgoing c)
    (mute : ∀ f service id r, w.tasks.get? t = some (.await f (.respond c service id)) →
      (w.look f).2.2 = some r → w.isOpen c = false) : Reporting w w' (.task t) c := by
  refine .silent (.inl same) fun _ f service id r heq => ?_
  obtain rfl := Cause.task.inj heq
  exact mute f service id r

/-- On the end of a channel that a client handler serves, only answers are sent. -/
theorem Regular.reporting (reg : Regular H L w) (hap : Happening L w κ w' more)
    (hc : isHandlerEnd c = true) : Reporting w w' κ c := by
  have hw := reg.orderly.wired
  have mailed : ∀ {w₀ : World} {c' : Nat} {ms : List (String × Json)}, c ≠ c' → w₀.Wired →
      (ms ≠ [] → w₀.isOpen c' = true) → w₀.outgoing c = w.outgoing c →
      (w₀.mail c' ms).outgoing c = w.outgoing c := by
    intro w₀ c' ms hne hw₀ ho heq
    rw [outgoing_mail hw₀ ho, heq, if_neg hne, List.append_nil]
  have near_ne : c ≠ near := by
    rintro rfl
    cases hc
  have far_ne : c ≠ far := by
    rintro rfl
    cases hc
  have client_ne : ∀ {c'}, isClientEnd c' = true → c ≠ c' := by
    grind [isHandlerEnd, isClientEnd]
  have clash : ∀ {t : Nat} {f f' : Future} {κ κ' : Continuation},
      w.tasks.get? t = some (.await f κ) → w.tasks.get? t = some (.await f' κ') → f = f' ∧ κ = κ' :=
    fun h h' => Task.await.inj (Option.some.inj (h.symm.trans h'))
  cases hap with
  | calm _ calm _ _ closing =>
    cases κ with
    | task =>
      exact .of_task (calm.outgoing c) fun f service id r task _ => absurd task (closing f _)
    | _ => exact .of_deed rfl (.inl (calm.outgoing c))
  | ignored _ calm => exact .of_deed rfl (.inl (calm.outgoing c))
  | @shutHandler _ cell _ _ _ _ _ _ leave_eq =>
    have shape := SameShape.parted w cell
    refine .of_deed rfl (.inl (mailed near_ne (SameShape.wired (w := w) shape rfl hw) ?_ rfl))
    intro hne
    by_cases hl : cell.requester.isSome = true ∧ cell.channelGone = false ∧ w.isOpen near = true
    · exact (SameShape.isOpen (w := w) shape near).trans hl.2.2
    · exact absurd (leave_eq.trans (if_neg hl)) hne
  | @announced h _ _ _ _ _ _ _ _ _ isOpen =>
    have shape := SameShape.listening w.channels near (Service.callFunction h) w.requesters.size
    exact .of_deed rfl (.inl (mailed near_ne (SameShape.wired (w := w) shape rfl hw)
      (fun _ => (SameShape.isOpen (w := w) shape near).trans isOpen) rfl))
  | posted _ _ _ _ isOpen =>
    exact .of_deed rfl (.inl (mailed near_ne { hw with size := hw.size } (fun _ => isOpen) rfl))
  | requested line _ isOpen =>
    exact .of_deed rfl (.inl (mailed (client_ne (reg.coherent.line line)) { hw with size := hw.size }
      (fun _ => isOpen) rfl))
  | @injected c' service _ q _ isOpen =>
    refine .of_deed rfl (.inl (mailed ?_ { hw with size := hw.size } (fun _ => isOpen) rfl))
    grind
  | pumped pair_eq next =>
    exact .of_deed rfl ((carriage_pumped hw pair_eq next).outgoing_of_pumpNext rfl c)
  | connected => exact .of_deed rfl (.inl (w.outgoing_newPair _ _ c))
  | pumping task =>
    exact .of_task rfl fun f service id r task' _ => by cases task.symm.trans task'
  | waited task _ looked =>
    refine .of_task rfl fun f service id r task' looked' => ?_
    obtain ⟨rfl, -⟩ := clash task task'
    rw [looked] at looked'
    cases looked'
  | finished task_eq _ quiet =>
    refine .of_task rfl fun f service id r task' _ => ?_
    obtain ⟨_, heq, -⟩ := quiet f _ (Option.some.inj (task_eq.symm.trans task'))
    cases heq
  | resolved task | opened task | failed task =>
    exact .of_task rfl fun f service id r task' _ => absurd (clash task task').2 (by rintro ⟨⟩)
  | @answered t c' id service f f' s r q task looked _ isOpen =>
    have out := outgoing_mail (w := ((w.seen s).finishTask t).requeue q) (c := c')
      (l := [(service, (responseTo id (outcomeOf r)).toJson)])
      { hw with size := hw.size } (fun _ => isOpen) c
    by_cases heq : c = c'
    · subst heq
      rw [if_pos rfl] at out
      exact .report rfl task (by rw [looked]) isOpen out
    · rw [if_neg heq, List.append_nil] at out
      refine .of_task out fun f service id r task' _ => ?_
      obtain ⟨-, same⟩ := clash task task'
      exact absurd (Continuation.respond.inj same).1.symm heq
  | muted task _ _ isClosed =>
    refine .of_task rfl fun f service id r task' _ => ?_
    obtain ⟨-, same⟩ := clash task task'
    rwa [(Continuation.respond.inj same).1] at isClosed
  | _ => exact .of_deed rfl (.inl rfl)

/-- What was sent on the ends that client handlers serve is what was reported there. -/
def Written (ts : List Transition) : Prop :=
  ∀ c, isHandlerEnd c = true → sentOn ts c = (replies ts c).map answerTo

theorem Advance.sent_of_silent (v : Advance ts x m L L' κ w' more rest)
    (same : w'.outgoing c = x.world.outgoing c ∨ ∃ m, x.world.outgoing c = m :: w'.outgoing c) :
    (x.transition m).sent c = [] := by
  show ((x.step m).world.outgoing c).drop (x.world.outgoing c).length = []
  rw [v.occurs.after]
  rcases same with same | ⟨_, popped⟩
  · rw [same]
    exact List.drop_of_length_le (Nat.le_refl _)
  · rw [popped]
    exact List.drop_of_length_le (Nat.le_succ _)

theorem Written.step (s : Steady ts x L) (written : Written ts)
    (v : Advance ts x m L L' κ w' more rest) : Written (ts ++ [x.transition m]) := by
  intro c hc
  rw [sentOn_append, replies_append, written c hc, List.map_append]
  have world : (x.step m).world = w' := by rw [v.occurs.after]
  cases s.regular.reporting v.occurs.happening hc with
  | silent same mute =>
    have unsent := v.sent_of_silent same
    have unreported : (x.transition m).reply? c = none := by
      by_cases duty : ∃ t f service id, κ = .task t ∧
          x.world.tasks.get? t = some (.await f (.respond c service id))
      · obtain ⟨t, f, service, id, rfl, task⟩ := duty
        rw [v.reply_of_task task, reported_respond]
        split
        · next ho =>
          cases looked : (x.world.look f).2.2 with
          | none => rfl
          | some r => cases ho.2.symm.trans (mute t f service id r rfl task looked)
        · rfl
      · grind [v.reply_of_other]
    rw [unsent, unreported]
    rfl
  | @report t id f service r cause task looked isOpen outgoing =>
    subst cause
    have sent : (x.transition m).sent c = _ :=
      Transition.sent_of_append (t := x.transition m) (world ▸ outgoing)
    have form : service = Service.response Service.clientRequester := by
      obtain ⟨rfl, -⟩ | ⟨_, _, -, -, form, -⟩ :
        AnswerOk (ofTrace ts) L f c service id := s.regular.orderly.tasks t _ task
      · cases hc
      · exact form
    rw [sent, v.reply_of_task task, reported_respond, if_pos ⟨rfl, isOpen⟩, looked, form]
    rfl

/-- All that is known of permissions, requests and answers after a run. -/
structure Governed (ts : List Transition) (x : Exchange) (L : Ledger) : Prop where
  spoken : Spoken ts x L
  judged : Judged ts x L
  entitled : Entitled ts L
  checked : Checked ts L
  consulted : Consulted ts x
  doomed : Doomed x L
  truthful : Truthful ts L
  accounted : Accounted ts x L
  tended : Tended x L
  written : Written ts

theorem Governed.step (s : Steady ts x L) (h : Governed ts x L)
    (v : Advance ts x m L L' κ w' more rest) :
    Governed (ts ++ [x.transition m]) ⟨w', more ++ rest⟩ L' where
  spoken := h.spoken.step s v
  judged := h.judged.step s v
  entitled := h.entitled.step s h.spoken v
  checked := h.checked.step s v
  consulted := h.consulted.step v s
  doomed := h.doomed.step s v
  truthful := h.truthful.step s v
  accounted := h.accounted.step s h.truthful v
  tended := h.tended.step s v
  written := h.written.step s v

theorem Governed.opening (serve : Serving) :
    Governed [] (opening serve) .blank where
  spoken := .opening serve
  judged := by
    rintro k _ ⟨_, ht, -⟩
    cases ht
  entitled := fun _ _ _ hρ => by cases hρ
  checked := fun k => ⟨(fun _ ht => by cases ht), fun earlier _ _ heq => by cases earlier <;> cases heq⟩
  consulted := fun _ _ _ hk => by cases hk
  doomed := fun _ hd => hd.elim
  truthful := fun _ _ _ hmem => by cases hmem
  accounted := fun _ _ hρ => by cases hρ
  tended := fun _ _ _ _ _ hρ => by cases hρ
  written := fun _ _ => rfl

/-- A source noted as ready is ready. -/
theorem Regular.isReady (reg : Regular H L w) {source : ReadinessSource} (h : L.ready source) :
    w.isReady source = true := by
  cases source with
  | always => rfl
  | tracker t =>
    obtain ⟨cell, hcell⟩ := Table.get?_isSome_of_lt (reg.bounded.ready h)
    simp [World.isReady, hcell, reg.orderly.ready t cell hcell h]

end Switchboard
