import Switchboard.Proofs.Announcements
import Switchboard.Proofs.Duties

/-!
# Answers

A request of a client is answered once, and every answer is one to a request. What was answered and what
is still to be answered is all that arrived, as long as the client's channel is open. A request that is
not answered yet has a promise that is kept, or its job waits before the permission gate, or the job was
let through and somebody waits for it.
-/

namespace Switchboard

open Exchange History

def World.reported (w : World) (c : Nat) (f : Future) : Continuation → Option (Nat × Outcome)
  | .respond c' _ id =>
    if c' = c ∧ w.isOpen c = true then (w.look f).2.2.map fun r => (id, outcomeOf r) else none
  | _ => none

theorem World.reported_respond (w : World) (c : Nat) (f : Future) (c' : Nat) (service : String) (id : Nat) :
    w.reported c f (.respond c' service id) = if c' = c ∧ w.isOpen c = true then
      (w.look f).2.2.map fun r => (id, outcomeOf r) else none := rfl

namespace Exchange

def Transition.reply? (t : Transition) (c : Nat) : Option (Nat × Outcome) :=
  match t.polled? with
  | some (_, .await f κ) => t.before.world.reported c f κ
  | _ => none

def replies (ts : List Transition) (c : Nat) : List (Nat × Outcome) := ts.filterMap fun t => t.reply? c

end Exchange

def Duty.answers (c : Nat) : Duty → Option Nat
  | (_, .respond c' _ id) => if c' = c then some id else none
  | _ => none

variable {H : History} {L L' : Ledger} {w w' : World} {κ : Cause} {more rest : List Action}
  {ts : List Transition} {x : Exchange} {m : Move}

theorem replies_append (ts : List Transition) (t : Transition) (c : Nat) :
    replies (ts ++ [t]) c = replies ts c ++ (t.reply? c).toList := by
  unfold replies
  cases h : t.reply? c <;> simp [h]

/-! ## Duties at a move -/

theorem DutyStep.frame {a a' b b' l : List Duty} (h : DutyStep L w κ w' a b) (ha : a'.Perm (l ++ a))
    (hb : b'.Perm (l ++ b)) : DutyStep L w κ w' a' b' := by
  have shift : ∀ {d : Duty} {r s : List Duty}, s.Perm (d :: r) → (l ++ s).Perm (d :: (l ++ r)) :=
    fun hs => (hs.append_left l).trans List.perm_middle
  cases h with
  | same unasked uninvoked idle perm =>
    exact .same unasked uninvoked idle (hb.trans ((perm.append_left l).trans ha.symm))
  | engaged d action perm how =>
    exact .engaged d action (hb.trans ((shift perm).trans (ha.symm.cons d))) how
  | waited r cause task looked perm perm' =>
    exact .waited (l ++ r) cause task looked (ha.trans (shift perm)) (hb.trans (shift perm'))
  | done cause task looked perm kept =>
    exact .done cause task looked (ha.trans ((shift perm).trans (hb.symm.cons _))) kept

theorem Advance.dutyStep (s : Steady ts x L) (v : Advance ts x m L L' κ w' more rest) :
    DutyStep L x.world κ w' x.duties (Exchange.mk w' (more ++ rest)).duties := by
  refine (s.regular.dutyStep v.occurs.happening).frame (l := owed rest) ?_ ?_
  · unfold Exchange.duties owed
    rw [v.occurs.agenda, List.filterMap_append, List.append_assoc]
    exact List.perm_append_comm_assoc ..
  · unfold Exchange.duties owed
    rw [List.filterMap_append, List.append_assoc]
    exact List.perm_append_comm_assoc ..

variable {f : Future}

/-- What a task reports when it goes on. -/
theorem Advance.reply_of_task {t : Nat} (v : Advance ts x m L L' (.task t) w' more rest)
    {κ' : Continuation} (task : x.world.tasks.get? t = some (.await f κ')) (c : Nat) :
    (x.transition m).reply? c = x.world.reported c f κ' := by
  unfold Transition.reply?
  rw [v.occurs.polled, Cause.polled?, task]
  rfl

section

variable (v : Advance ts x m L L' κ w' more rest)
include v

theorem Advance.reply_of_action (hκ : κ.isTask = false)
    (c : Nat) : (x.transition m).reply? c = none := by
  unfold Transition.reply?
  rw [v.occurs.polled]
  cases κ with
  | task => cases hκ
  | action | owner => rfl

/-- Nothing is reported on a channel by a task that owes nothing there. -/
theorem Advance.reply_of_other {c : Nat} (other : ∀ t f service id, κ = .task t →
      x.world.tasks.get? t ≠ some (.await f (.respond c service id))) :
    (x.transition m).reply? c = none := by
  cases κ with
  | action | owner => exact v.reply_of_action rfl c
  | task t =>
    unfold Transition.reply?
    rw [v.occurs.polled, Cause.polled?]
    cases ht : x.world.tasks.get? t with
    | none => rfl
    | some task =>
      cases task with
      | await f κ' =>
        cases κ' with
        | respond _ service id =>
          refine (World.reported_respond ..).trans (if_neg fun h => other t f service id rfl ?_)
          rw [ht, h.1]
        | _ => rfl
      | _ => rfl

theorem Advance.reply_of_idle
    (idle : ∀ t f κ', κ = .task t → x.world.tasks.get? t = some (.await f κ') → κ'.isDuty = false)
    (c : Nat) : (x.transition m).reply? c = none :=
  v.reply_of_other fun t f _ _ cause task => absurd (idle t f _ cause task) nofun

end

/-! ## Channels that are about to be closed -/

/-- A channel that is noted as doomed is closed, or its closing is on the agenda. -/
def Doomed (x : Exchange) (L : Ledger) : Prop :=
  ∀ c, L.doomed c → x.world.isOpen c = false ∨ .closeChannel c ∈ x.agenda ∨ .closeCore c ∈ x.agenda

theorem Doomed.step (s : Steady ts x L) (doomed : Doomed x L) (v : Advance ts x m L L' κ w' more rest) :
    Doomed ⟨w', more ++ rest⟩ L' := by
  intro c hc
  have stays : c < x.world.channels.size → x.world.isOpen c = false → w'.isOpen c = false := by
    intro hlt closed
    cases ho : w'.isOpen c with
    | false => rfl
    | true => exact absurd ((v.open_mono s hlt ho).symm.trans closed) nofun
  rcases v.grows.newDoom hc with old | new
  · have hlt := s.regular.bounded.doomed old
    have agenda := v.occurs.agenda
    rcases doomed c old with closed | closing | closing
    · exact .inl (stays hlt closed)
    · rw [agenda] at closing
      rcases List.mem_append.mp closing with now | later
      · obtain rfl := Cause.eq_of_mem_consumed now
        obtain ⟨ch, hch⟩ := Table.get?_isSome_of_lt hlt
        cases v.occurs.happening with
        | calm _ _ _ _ next =>
          rw [next, if_pos (by rw [hch]; rfl)]
          grind
        | vacant reason => obtain ⟨_, heq⟩ | ⟨_, heq, -⟩ := reason <;> cases heq
        | breach cause => obtain ⟨_, _, _, heq⟩ | ⟨_, _, _, heq, -⟩ := cause <;> cases heq
      · exact .inr (.inl (List.mem_append_right _ later))
    · rw [agenda] at closing
      rcases List.mem_append.mp closing with now | later
      · obtain rfl := Cause.eq_of_mem_consumed now
        left
        cases v.occurs.happening with
        | calm _ _ _ _ closed => exact stays hlt closed.1
        | vacant reason => obtain ⟨_, heq⟩ | ⟨_, heq, -⟩ := reason <;> cases heq
        | breach cause => obtain ⟨_, _, _, heq⟩ | ⟨_, _, _, heq, -⟩ := cause <;> cases heq
        | shutCore channel =>
          simp [World.isOpen, World.modifyChannel, Table.get?_modify_self, channel]
      · exact .inr (.inr (List.mem_append_right _ later))
  · exact .inr (.inl (List.mem_append_left _ new))

/-! ## Accounts -/

/-- Every duty on a handler's end of a client's channel is an answer to a request of that client, or the
channel is about to be closed. -/
theorem Steady.duty_ok (s : Steady ts x L) {d : Duty} (hd : d ∈ x.duties) :
    TaskOk (ofTrace ts) L (.await d.1 d.2) := by
  rcases List.mem_append.mp hd with ha | ht
  · obtain ⟨a, hmem, hduty⟩ := List.mem_filterMap.mp ha
    cases a with
    | spawn task =>
      obtain rfl := task.eq_await_of_duty hduty
      exact (s.agenda _ hmem).1
    | _ => cases hduty
  · obtain ⟨t, task⟩ := World.task_of_owed ht
    exact s.regular.orderly.tasks t _ task

variable {id k : Nat} {ρ : ClientRole}

/-- A duty on the end of a channel that a client handler serves. -/
theorem Regular.answer_ok (reg : Regular H L w) {service : String} (hρ : L.client k = some ρ)
    (ok : TaskOk H L (.await f (.respond ρ.channel service id))) (spared : ¬ L.doomed ρ.channel) :
    ∃ p n call, f = .promise p ∧ L.promise p = some (.job k n) ∧ H.Arrived k n id call ∧
      service = Service.response Service.clientRequester := by
  have handlerEnd := (reg.coherent.client hρ).1
  obtain ⟨hc, -⟩ | ⟨_, _, hρ', hc, hs, ⟨p, n, call, hf, role, arrived⟩ | ⟨doomed, -⟩⟩ :=
    (ok : AnswerOk H L f ρ.channel service id)
  · rw [hc] at handlerEnd
    cases handlerEnd
  · obtain rfl := reg.coherent.channel hρ hρ' hc
    exact ⟨p, n, call, hf, role, arrived, hs⟩
  · exact absurd doomed spared

def Truthful (ts : List Transition) (L : Ledger) : Prop :=
  ∀ c id o, (id, o) ∈ replies ts c → c = far ∨ ∃ k ρ, L.client k = some ρ ∧ ρ.channel = c ∧
    (L.doomed c ∨ ∃ n call, (ofTrace ts).Arrived k n id call ∧ Kept (ofTrace ts) L (.job k n) o)

variable (s : Steady ts x L)
include s

theorem Truthful.step (truthful : Truthful ts L)
    (v : Advance ts x m L L' κ w' more rest) : Truthful (ts ++ [x.transition m]) L' := by
  intro c id o hmem
  have ext := extends_ofTrace ts (x.transition m)
  have later : (∃ k ρ, L.client k = some ρ ∧ ρ.channel = c ∧
      (L.doomed c ∨ ∃ n call, (ofTrace ts).Arrived k n id call ∧ Kept (ofTrace ts) L (.job k n) o)) →
      ∃ k ρ, L'.client k = some ρ ∧ ρ.channel = c ∧ (L'.doomed c ∨ ∃ n call,
        (ofTrace (ts ++ [x.transition m])).Arrived k n id call ∧
        Kept (ofTrace (ts ++ [x.transition m])) L' (.job k n) o) := by
    rintro ⟨k, ρ, hρ, hc, why⟩
    refine ⟨k, ρ, v.grows.client hρ, hc, why.imp v.grows.doomed ?_⟩
    rintro ⟨n, call, arrived, kept⟩
    exact ⟨n, call, arrived.mono ext, kept.mono ext v.grows.toExtends⟩
  rw [replies_append] at hmem
  rcases List.mem_append.mp hmem with old | new
  · exact (truthful c id o old).imp_right later
  · obtain ⟨⟨i, task⟩, polled, heq⟩ : ∃ e, κ.polled? x.world = some e ∧
        (match some e with
          | some (_, .await f κ) => x.world.reported c f κ
          | _ => none) = some (id, o) := by
      have hr := Option.mem_toList.mp new
      unfold Transition.reply? at hr
      rw [v.occurs.polled] at hr
      grind
    cases task with
    | await f κ' =>
      have task : x.world.tasks.get? i = some (.await f κ') := by
        cases κ with
        | task =>
          obtain ⟨task, ht, he⟩ := Option.map_eq_some_iff.mp polled
          obtain ⟨rfl, rfl⟩ := Prod.mk.inj he
          exact ht
        | _ => cases polled
      replace heq : x.world.reported c f κ' = some (id, o) := heq
      cases κ' with
      | respond c' service id' =>
        rw [World.reported_respond] at heq
        split at heq
        · next hc =>
          obtain ⟨rfl, -⟩ := hc
          obtain ⟨r, looked, he⟩ := Option.map_eq_some_iff.mp heq
          obtain ⟨rfl, rfl⟩ := Prod.mk.inj he
          obtain ⟨hc, -⟩ | ⟨k, ρ, hρ, hc, -, ⟨p, n, call, rfl, role, arrived⟩ | ⟨doomed, -⟩⟩ :
            AnswerOk (ofTrace ts) L f c' service id' := s.regular.orderly.tasks i _ task
          · exact .inl hc
          · refine .inr (later ⟨k, ρ, hρ, hc.symm, .inr ⟨n, call, arrived, ?_⟩⟩)
            obtain ⟨c, hget, ok⟩ := s.regular.orderly.promises.of_lt (s.regular.bounded.promise role) role
            have outcome : ((x.world.promises.get? p).bind Promise.outcome).map Settled.outcome = some r :=
              looked
            rw [hget] at outcome
            obtain ⟨o, ho, rfl⟩ := Option.map_eq_some_iff.mp outcome
            exact ok.outcome o ho
          · exact .inr (later ⟨k, ρ, hρ, hc.symm, .inl doomed⟩)
        · cases heq
      | _ => cases heq
    | _ => cases heq

def Accounted (ts : List Transition) (x : Exchange) (L : Ledger) : Prop :=
  ∀ k ρ, L.client k = some ρ → x.world.isOpen ρ.channel = true → ¬ L.doomed ρ.channel →
    ((replies ts ρ.channel).map Prod.fst ++ x.duties.filterMap (Duty.answers ρ.channel)).Perm
      (((ofTrace ts).arrivals k).map Prod.fst)

theorem Steady.look_answer {t : Nat} {f' : Future}
    {service : String} {r : Option Settled} (hρ : L.client k = some ρ) (spared : ¬ L.doomed ρ.channel)
    (task : x.world.tasks.get? t = some (.await f (.respond ρ.channel service id)))
    (looked : (x.world.look f).2 = (f', r)) : f' = f := by
  obtain ⟨_, _, _, rfl, -⟩ := s.regular.answer_ok hρ (s.regular.orderly.tasks t _ task) spared
  exact (congrArg Prod.fst looked).symm

theorem Accounted.step_old (accounted : Accounted ts x L)
    (v : Advance ts x m L L' κ w' more rest) (hold : L.client k = some ρ)
    (ho : w'.isOpen ρ.channel = true) (spared : ¬ L'.doomed ρ.channel) :
    ((replies (ts ++ [x.transition m]) ρ.channel).map Prod.fst ++
      (Exchange.mk w' (more ++ rest)).duties.filterMap (Duty.answers ρ.channel)).Perm
      (((ofTrace (ts ++ [x.transition m])).arrivals k).map Prod.fst) := by
  have before := v.open_mono s (s.regular.bounded.channel hold) ho
  have spared' : ¬ L.doomed ρ.channel := fun hd => spared (v.grows.doomed hd)
  have perm := accounted k ρ hold before spared'
  rw [v.arrivals k, replies_append]
  have unchanged : κ.arrival? x.world k = none →
      (x.transition m).reply? ρ.channel = none →
      ((Exchange.mk w' (more ++ rest)).duties.filterMap (Duty.answers ρ.channel)).Perm
        (x.duties.filterMap (Duty.answers ρ.channel)) →
      ((replies ts ρ.channel ++ ((x.transition m).reply? ρ.channel).toList).map Prod.fst ++
        (Exchange.mk w' (more ++ rest)).duties.filterMap (Duty.answers ρ.channel)).Perm
        (((ofTrace ts).arrivals k ++ (κ.arrival? x.world k).toList).map Prod.fst) := by
    intro unasked silent same
    grind
  -- A duty on another channel does not matter.
  have elsewhere : ∀ {d : Duty}, d.answers ρ.channel = none →
      (Exchange.mk w' (more ++ rest)).duties.Perm (d :: x.duties) →
      ((Exchange.mk w' (more ++ rest)).duties.filterMap (Duty.answers ρ.channel)).Perm
        (x.duties.filterMap (Duty.answers ρ.channel)) := by
    intro d none hp
    have := hp.filterMap (Duty.answers ρ.channel)
    rwa [List.filterMap_cons_none none] at this
  cases v.dutyStep s with
  | same unasked _ idle hp =>
    exact unchanged (unasked k) (v.reply_of_idle idle _) (hp.filterMap _)
  | engaged d action hp how =>
    have silent := v.reply_of_action action ρ.channel
    have ok : TaskOk (ofTrace (ts ++ [x.transition m])) L' (.await d.1 d.2) := by
      have mem : d ∈ (x.step m).duties := by
        rw [v.occurs.after]
        exact hp.symm.subset (.head _)
      exact (v.steady s).duty_ok mem
    cases how with
    | @request k' p id ρ' _ client arrival _ _ _ =>
      by_cases hk : k' = k
      · subst hk
        cases hold.symm.trans client
        have hd : Duty.answers ρ.channel
            (.promise p, .respond ρ.channel (Service.response Service.clientRequester) id) = some id :=
          if_pos rfl
        grind
      · refine unchanged ((arrival k).trans (if_neg (Ne.symm hk))) silent (elsewhere ?_ hp)
        exact if_neg fun hc => hk (s.regular.coherent.channel client hold hc)
    | @refusal k' id ρ' _ client _ others =>
      by_cases hk : k' = k
      · subst hk
        cases hold.symm.trans client
        obtain ⟨_, _, _, heq, -⟩ := v.regular.answer_ok (v.grows.client hold) ok spared
        cases heq
      · refine unchanged (others k (Ne.symm hk)) silent (elsewhere ?_ hp)
        exact if_neg fun hc => hk (s.regular.coherent.channel client hold hc)
    | @remote f service id _ unasked =>
      refine unchanged (unasked k) silent (elsewhere ?_ hp)
      refine if_neg fun hc => ?_
      have handlerEnd := (s.regular.coherent.client hold).1
      rw [← hc] at handlerEnd
      cases handlerEnd
    | job cause => exact unchanged (by rw [cause]; rfl) silent (elsewhere rfl hp)
  | @waited t f f' κ' r cause task looked hp hp' =>
    subst cause
    refine unchanged rfl ?_ ?_
    · rw [v.reply_of_task task]
      cases κ' with
      | respond =>
        rw [World.reported_respond, looked]
        split <;> rfl
      | _ => rfl
    · have old := hp.filterMap (Duty.answers ρ.channel)
      have new := hp'.filterMap (Duty.answers ρ.channel)
      have same : Duty.answers ρ.channel (f', κ') = Duty.answers ρ.channel (f, κ') := by
        cases κ' <;> rfl
      rw [List.filterMap_cons] at old new
      rw [same] at new
      exact new.trans old.symm
  | @done t f κ' r cause task looked hp _ =>
    subst cause
    have reply := v.reply_of_task task ρ.channel
    have old := hp.filterMap (Duty.answers ρ.channel)
    by_cases hd : ∃ service id, κ' = .respond ρ.channel service id
    · obtain ⟨service, id, rfl⟩ := hd
      have hd : Duty.answers ρ.channel (f, .respond ρ.channel service id) = some id := if_pos rfl
      rw [List.filterMap_cons_some hd] at old
      rw [World.reported_respond, if_pos ⟨rfl, before⟩, looked] at reply
      grind [Cause.arrival?]
    · have none : Duty.answers ρ.channel (f, κ') = none := by
        cases κ' with
        | respond _ service id => exact if_neg fun hc => hd ⟨service, id, by rw [hc]⟩
        | _ => rfl
      rw [List.filterMap_cons_none none] at old
      refine unchanged rfl ?_ old.symm
      rw [reply]
      cases κ' with
      | respond _ service id =>
        rw [World.reported_respond, if_neg fun hc => hd ⟨service, id, by rw [hc.1]⟩]
      | _ => rfl

theorem Accounted.step (accounted : Accounted ts x L) (truthful : Truthful ts L)
    (v : Advance ts x m L L' κ w' more rest) :
    Accounted (ts ++ [x.transition m]) ⟨w', more ++ rest⟩ L' := by
  intro k ρ hρ ho spared
  cases hold : L.client k with
  | some =>
    cases (v.grows.client hold).symm.trans hρ
    exact accounted.step_old s v hold ho spared
  | none =>
    -- Nothing has happened on the channel of a new client.
    have silent : (ofTrace (ts ++ [x.transition m])).arrivals k = [] := v.arrivals_new s hold
    have unanswered : replies (ts ++ [x.transition m]) ρ.channel = [] := by
      refine List.eq_nil_iff_forall_not_mem.mpr fun e hmem => ?_
      obtain ⟨id, o⟩ := e
      obtain hc | ⟨_, _, _, hc, doomed | ⟨n, call, arrived, -⟩⟩ :=
        truthful.step s v ρ.channel id o hmem
      · have handlerEnd := (v.regular.coherent.client hρ).1
        rw [hc] at handlerEnd
        cases handlerEnd
      · exact spared doomed
      · grind [v.regular.coherent.channel, History.Arrived]
    have idle : (Exchange.mk w' (more ++ rest)).duties.filterMap (Duty.answers ρ.channel) = [] := by
      refine List.filterMap_eq_nil_iff.mpr fun d hmem => ?_
      obtain ⟨f, κ'⟩ := d
      cases κ' with
      | respond _ service id =>
        refine if_neg fun hc => ?_
        subst hc
        have mem : (f, .respond ρ.channel service id) ∈ (x.step m).duties := by
          rw [v.occurs.after]
          exact hmem
        obtain ⟨_, n, call, -, -, arrived, -⟩ := v.regular.answer_ok hρ ((v.steady s).duty_ok mem) spared
        unfold History.Arrived at arrived
        rw [silent] at arrived
        cases arrived
      | _ => rfl
    rw [silent, unanswered, idle]
    exact .nil

/-! ## Requests that wait -/

/-- The job of a request waits before the permission gate, or was let through. -/
def Waits (x : Exchange) (L : Ledger) (k p : Nat) : Prop :=
  (∃ g cell, L.gate g = some (.permission k) ∧ x.world.gates.get? g = some cell ∧
    p ∈ line (crew L (.permission k) x.agenda) cell.core) ∨
  ∃ f, (f, .resolve p) ∈ x.duties

/-- Every request that is not answered yet and cannot be answered now has its job somewhere. -/
def Tended (x : Exchange) (L : Ledger) : Prop :=
  ∀ k ρ p service id, L.client k = some ρ → x.world.isOpen ρ.channel = true → ¬ L.doomed ρ.channel →
    (.promise p, .respond ρ.channel service id) ∈ x.duties → x.world.isKept p = false → Waits x L k p

/-- A job that waits still waits, or is let through, or its promise is kept. -/
theorem Waits.step (v : Advance ts x m L L' κ w' more rest) {p : Nat}
    (hold : L.client k = some ρ) (spared : ¬ L'.doomed ρ.channel)
    (known : p < x.world.promises.size) (waits : Waits x L k p) :
    w'.isKept p = true ∨ Waits ⟨w', more ++ rest⟩ L' k p := by
  have duties := v.dutyStep s
  rcases waits with ⟨g, _, hg, hcell, hp⟩ | ⟨f, hf⟩
  · obtain ⟨cell', hcell', -⟩ := s.regular.gateStep (v.action_ok s) v.occurs.happening hg hcell
    have still : p ∈ line (crew L' (.permission k) (more ++ rest)) cell'.core →
        w'.isKept p = true ∨ Waits ⟨w', more ++ rest⟩ L' k p := fun h =>
      .inr (.inl ⟨g, cell', v.grows.gate hg, hcell', h⟩)
    cases (v.gate_step s hg hcell hcell').2 with
    | kept same => exact still (same ▸ hp)
    | joined _ _ _ grown => exact still (grown ▸ List.mem_append_left _ hp)
    | taken job _ cause _ line_eq same =>
      subst cause
      rw [line_eq] at hp
      rcases List.mem_cons.mp hp with rfl | tail
      · -- The job is let through just now.
        cases duties with
        | same _ uninvoked => cases uninvoked
        | waited _ cause | done cause => cases cause
        | engaged _ _ perm how =>
          cases how with
          | request _ arrival => exact absurd ((arrival _).trans (if_pos rfl)) nofun
          | refusal _ uninvoked | remote uninvoked => cases uninvoked
          | @job _ _ f cause =>
            cases cause
            exact .inr (.inr ⟨f, perm.symm.subset (.head _)⟩)
      · exact still tail
    | cut _ _ _ reason =>
      obtain disposed | ⟨⟨t, rfl⟩, ⟨_, _⟩, _, _⟩ := reason
      · have ok := of_eq_some (v.regular.orderly.gates g cell' hcell') (v.grows.gate hg)
        have leaving : PhaseAt _ L' (.permission k) cell'.core.phase := ok.phase
        rw [disposed] at leaving
        exact absurd (v.regular.coherent.leaving leaving (v.grows.client hold)) spared
      · grind [v.occurs.happening.failed_kept]
  · cases duties with
    | same _ _ _ perm => exact .inr (.inr ⟨f, perm.symm.subset hf⟩)
    | engaged _ _ perm => exact .inr (.inr ⟨f, perm.symm.subset (.tail _ hf)⟩)
    | @waited t _ f' _ _ cause _ _ perm perm' =>
      rcases List.mem_cons.mp (perm.subset hf) with heq | hr
      · obtain ⟨rfl, rfl⟩ := Prod.mk.inj heq
        exact .inr (.inr ⟨f', perm'.symm.subset (.head _)⟩)
      · exact .inr (.inr ⟨f, perm'.symm.subset (.tail _ hr)⟩)
    | done _ _ _ perm kept =>
      rcases List.mem_cons.mp (perm.subset hf) with heq | hr
      · obtain ⟨rfl, rfl⟩ := Prod.mk.inj heq
        exact .inl (kept p rfl known)
      · exact .inr (.inr ⟨f, hr⟩)

theorem Waits.of_request (v : Advance ts x m L L' κ w' more rest) {p : Nat}
    {call : Call} (hold : L.client k = some ρ) (spared : ¬ L'.doomed ρ.channel)
    (arrival : κ.arrival? x.world k = some (id, call))
    (refused : ∀ g cell, L.gate g = some (.permission k) → x.world.gates.get? g = some cell →
      p = x.world.promises.size ∧ ∀ e, cell.core.phase = .failed e → w'.isKept p = true)
    (gated : ∀ g cell', x.world.gates.get? g = none → w'.gates.get? g = some cell' →
      p ∈ cell'.core.queue.map Prod.snd ∧ cell'.core.phase = .waiting) :
    w'.isKept p = true ∨ Waits ⟨w', more ++ rest⟩ L' k p := by
  have staying : ¬ L'.leaving k := fun hl =>
    spared (v.regular.coherent.leaving hl (v.grows.client hold))
  by_cases hgate : ∃ g, L.gate g = some (.permission k)
  · obtain ⟨g, hg⟩ := hgate
    obtain ⟨cell, hcell⟩ := s.regular.gate_get? hg
    obtain ⟨rfl, failed⟩ := refused g cell hg hcell
    obtain ⟨cell', hcell', -⟩ := s.regular.gateStep (v.action_ok s) v.occurs.happening hg hcell
    have open_phase : cell'.core.phase ≠ .disposed := fun hd => by
      have ok := of_eq_some (v.regular.orderly.gates g cell' hcell') (v.grows.gate hg)
      have phase : PhaseAt _ L' (.permission k) cell'.core.phase := ok.phase
      rw [hd] at phase
      exact staying phase
    cases (v.gate_step s hg hcell hcell').2 with
    | kept _ _ unentered =>
      obtain ⟨heq, broken⟩ := unentered (.request arrival)
      cases hp : cell.core.phase with
      | waiting => exact absurd (.inl (by rw [heq, hp])) broken
      | ready => exact absurd (.inr (by rw [heq, hp])) broken
      | failed e => exact .inl (failed e hp)
      | disposed => exact absurd (by rw [heq, hp]) open_phase
    | joined _ _ _ _ =>
      refine .inr (.inl ⟨g, cell', v.grows.gate hg, hcell', ?_⟩)
      grind
    | taken _ _ cause =>
      rw [cause] at arrival
      cases arrival
    | cut _ _ _ reason =>
      obtain disposed | ⟨⟨_, rfl⟩, -⟩ := reason
      · exact absurd disposed open_phase
      · cases arrival
  · obtain ⟨g, hg⟩ := v.gate_of_arrival s hold (fun hl => staying (v.grows.leaving hl)) arrival
    obtain ⟨cell', hcell'⟩ := v.regular.gate_get? hg
    have absent : x.world.gates.get? g = none := by
      cases hc : x.world.gates.get? g with
      | none => rfl
      | some c =>
        obtain ⟨_, hγ, -⟩ := s.regular.orderly.gates g c hc
        cases (v.grows.gate hγ).symm.trans hg
        exact absurd ⟨g, hγ⟩ hgate
    obtain ⟨_, waiting⟩ := gated g cell' absent hcell'
    refine .inr (.inl ⟨g, cell', hg, hcell', List.mem_append_right _ ?_⟩)
    rwa [Deferred.tickets_of_intact (.inl waiting)]

theorem Tended.step (tended : Tended x L)
    (v : Advance ts x m L L' κ w' more rest) : Tended ⟨w', more ++ rest⟩ L' := by
  intro k ρ p service id hρ ho spared hd unkept
  have kept_or : w'.isKept p = true ∨ Waits ⟨w', more ++ rest⟩ L' k p →
      Waits ⟨w', more ++ rest⟩ L' k p := fun h =>
    h.resolve_left fun hk => absurd (unkept.symm.trans hk) nofun
  have mem : (.promise p, .respond ρ.channel service id) ∈ (x.step m).duties := by
    rw [v.occurs.after]
    exact hd
  cases hold : L.client k with
  | none =>
    obtain ⟨_, n, call, -, -, arrived, -⟩ := v.regular.answer_ok hρ ((v.steady s).duty_ok mem) spared
    unfold History.Arrived at arrived
    rw [v.arrivals_new s hold] at arrived
    cases arrived
  | some ρ' =>
    obtain rfl := Option.some.inj ((v.grows.client hold).symm.trans hρ)
    have spared' : ¬ L.doomed ρ'.channel := fun hd => spared (v.grows.doomed hd)
    -- A duty that was there before.
    have old : (.promise p, .respond ρ'.channel service id) ∈ x.duties →
        Waits ⟨w', more ++ rest⟩ L' k p := by
      intro hmem
      obtain ⟨_, n, call, heq, role, -⟩ := s.regular.answer_ok hold (s.duty_ok hmem) spared'
      obtain rfl := Future.promise.inj heq
      have before : x.world.isKept p = false := by
        cases hk : x.world.isKept p with
        | false => rfl
        | true => exact absurd (unkept.symm.trans (v.occurs.happening.isKept hk)) nofun
      have waits := tended k ρ' p service id hold
        (v.open_mono s (s.regular.bounded.channel hold) ho) spared' hmem before
      exact kept_or (waits.step s v hold spared (s.regular.bounded.promise role))
    cases v.dutyStep s with
    | same _ _ _ perm => exact old (perm.subset hd)
    | done _ _ _ perm => exact old (perm.symm.subset (List.mem_cons_of_mem _ hd))
    | @waited _ _ _ _ _ _ _ _ perm _ =>
      grind [s.look_answer]
    | engaged _ _ perm how =>
      rcases List.mem_cons.mp (perm.subset hd) with heq | hr
      · subst heq
        generalize hc : ρ'.channel = c at how
        cases how with
        | @request _ _ _ _ call client arrival _ refused gated =>
          obtain rfl := s.regular.coherent.channel hold client hc
          exact kept_or (Waits.of_request s v hold spared ((arrival k).trans (if_pos rfl)) refused gated)
        | remote =>
          have handlerEnd := (s.regular.coherent.client hold).1
          rw [hc] at handlerEnd
          cases handlerEnd
      · exact old hr

end Switchboard
