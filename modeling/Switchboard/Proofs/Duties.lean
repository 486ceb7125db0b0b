import Switchboard.Proofs.Steady

/-!
# What is owed

A task that waits for a future owes its outcome: to those who wait for a promise, or to the other end of
a channel. `DutyStep` says how the duties of an exchange change at a move: one is taken on, one goes on
waiting, or one is done.
-/

namespace Switchboard

open World Exchange History

abbrev Duty := Future × Continuation

def Continuation.isDuty : Continuation → Bool
  | .resolve _ => true
  | .respond _ _ _ => true
  | _ => false

def Task.duty? : Task → Option Duty
  | .await f κ => if κ.isDuty then some (f, κ) else none
  | _ => none

def Action.duty? : Action → Option Duty
  | .spawn task => task.duty?
  | _ => none

def owed (agenda : List Action) : List Duty := agenda.filterMap Action.duty?

def World.owed (w : World) : List Duty := w.tasks.toList.filterMap Task.duty?

def Exchange.duties (x : Exchange) : List Duty := Switchboard.owed x.agenda ++ x.world.owed

theorem Task.eq_await_of_duty {task : Task} {d : Duty} (h : task.duty? = some d) :
    task = .await d.1 d.2 := by
  cases task with
  | await f κ =>
    replace h : (if κ.isDuty = true then some (f, κ) else none) = some d := h
    split at h
    · rw [← Option.some.inj h]
    · cases h
  | _ => cases h

theorem World.task_of_owed {w : World} {d : Duty} (h : d ∈ w.owed) :
    ∃ t, w.tasks.get? t = some (.await d.1 d.2) := by
  obtain ⟨task, hmem, hduty⟩ := List.mem_filterMap.mp h
  obtain ⟨t, ht⟩ := List.getElem?_of_mem hmem
  rw [task.eq_await_of_duty hduty] at ht
  exact ⟨t, by simpa [Table.toList, Table.get?] using ht⟩

variable {H : History} {L L' : Ledger} {w w' : World} {κ : Cause} {more rest : List Action}

/-! ## Tables of tasks -/

theorem filterMap_modify_perm {α β : Type} {f : α → Option β} {g : α → α} {l : List α} {i : Nat} {a : α}
    (h : l[i]? = some a) : ∃ r, (l.filterMap f).Perm ((f a).toList ++ r) ∧
      ((l.modify i g).filterMap f).Perm ((f (g a)).toList ++ r) := by
  induction l generalizing i with
  | nil => cases h
  | cons b l ih =>
    cases i with
    | zero =>
      obtain rfl := Option.some.inj h
      refine ⟨l.filterMap f, ?_, ?_⟩
      · cases hf : f b <;> simp [hf]
      · cases hf : f (g b) <;> simp [hf]
    | succ i =>
      obtain ⟨r, before, after⟩ := ih h
      refine ⟨(f b).toList ++ r, ?_, ?_⟩
      · have split : (b :: l).filterMap f = (f b).toList ++ l.filterMap f := by
          cases hf : f b <;> simp [hf]
        rw [split]
        exact (before.append_left _).trans (List.perm_append_comm_assoc ..)
      · have split : ((b :: l).modify (i + 1) g).filterMap f =
            (f b).toList ++ (l.modify i g).filterMap f := by
          cases hf : f b <;> simp [hf]
        rw [split]
        exact (after.append_left _).trans (List.perm_append_comm_assoc ..)

theorem owed_push {ts : Table Task} {task : Task} (h : w'.tasks = ts.push task) :
    w'.owed = ts.toList.filterMap Task.duty? ++ task.duty?.toList := by
  grind [World.owed, Table.toList, Table.push]

variable {t : Nat}

theorem owed_modify {ts : Table Task} {task task' : Task} (ht : ts.get? t = some task)
    (h : w'.tasks = ts.modify t fun _ => task') :
    ∃ r, (ts.toList.filterMap Task.duty?).Perm (task.duty?.toList ++ r) ∧
      w'.owed.Perm (task'.duty?.toList ++ r) := by
  have hl : ts.toList[t]? = some task := by simpa [Table.toList, Table.get?] using ht
  obtain ⟨r, before, after⟩ := filterMap_modify_perm (f := Task.duty?) (g := fun _ => task') hl
  refine ⟨r, before, ?_⟩
  unfold World.owed
  rw [h]
  simpa [Table.toList, Table.modify] using after

variable {s : Sight}

theorem World.Glance.owed (h : Glance w s) : s.tasks.toList.filterMap Task.duty? = w.owed := by
  obtain ⟨grants, tasks⟩ := h.tasks
  rw [tasks]
  clear tasks
  unfold World.owed
  induction grants using List.reverseRecOn with
  | nil => rfl
  | append_singleton =>
    rw [List.foldl_append, List.foldl_cons, List.foldl_nil]
    grind [Table.toList, Table.push, Task.duty?]

theorem World.Glance.task (h : Glance w s) {task : Task}
    (ht : w.tasks.get? t = some task) : s.tasks.get? t = some task := by
  obtain ⟨grants, tasks⟩ := h.tasks
  rw [tasks]
  clear tasks
  induction grants using List.reverseRecOn with
  | nil => exact ht
  | append_singleton =>
    grind

theorem World.Glance.size_le (h : Glance w s) : w.promises.size ≤ s.promises.size := by
  rcases h.promises with same | ⟨_, more⟩
  · exact Nat.le_of_eq (by rw [same])
  · rw [more, Table.size_push]
    exact Nat.le_succ _

/-! ## Steps -/

def World.isKept (w : World) (p : Nat) : Bool := (w.promises.get? p).any (·.outcome.isSome)

def Cause.isInvoke : Cause → Bool
  | .action (.invoke _ _) => true
  | _ => false

def Cause.isTask : Cause → Bool
  | .task _ => true
  | _ => false

/-- How a duty is taken on. -/
inductive Engaged (L : Ledger) (w : World) (κ : Cause) (w' : World) : Duty → Prop
  | request {k p id : Nat} {ρ : ClientRole} {call : Call} (client : L.client k = some ρ)
      (arrival : ∀ k', κ.arrival? w k' = if k' = k then some (id, call) else none)
      (fresh : w.promises.size ≤ p)
      (refused : ∀ g cell, L.gate g = some (.permission k) → w.gates.get? g = some cell →
        p = w.promises.size ∧ ∀ e, cell.core.phase = .failed e → w'.isKept p = true)
      (gated : ∀ g cell', w.gates.get? g = none → w'.gates.get? g = some cell' →
        p ∈ cell'.core.queue.map Prod.snd ∧ cell'.core.phase = .waiting) :
      Engaged L w κ w' (.promise p, .respond ρ.channel (Service.response Service.clientRequester) id)
  | refusal {k id : Nat} {ρ : ClientRole} {o : Settled} (client : L.client k = some ρ)
      (uninvoked : κ.isInvoke = false) (others : ∀ k', k' ≠ k → κ.arrival? w k' = none) :
      Engaged L w κ w' (.done o, .respond ρ.channel (Service.response Service.clientRequester) id)
  /-- The server is to answer. -/
  | remote {f : Future} {service : String} {id : Nat} (uninvoked : κ.isInvoke = false)
      (unasked : ∀ k, κ.arrival? w k = none) :
      Engaged L w κ w' (f, .respond far service id)
  | job {job : Job} {t : Nat} {f : Future} (cause : κ = .action (.invoke job t)) :
      Engaged L w κ w' (f, .resolve t)

/-- How the duties change. -/
inductive DutyStep (L : Ledger) (w : World) (κ : Cause) (w' : World) (before after : List Duty) : Prop
  | same (unasked : ∀ k, κ.arrival? w k = none) (uninvoked : κ.isInvoke = false)
      (idle : ∀ t f κ', κ = .task t → w.tasks.get? t = some (.await f κ') → κ'.isDuty = false)
      (perm : after.Perm before)
  | engaged (d : Duty) (action : κ.isTask = false) (perm : after.Perm (d :: before))
      (how : Engaged L w κ w' d)
  | waited {t : Nat} {f f' : Future} {κ' : Continuation} (r : List Duty) (cause : κ = .task t)
      (task : w.tasks.get? t = some (.await f κ')) (looked : (w.look f).2 = (f', none))
      (perm : before.Perm ((f, κ') :: r)) (perm' : after.Perm ((f', κ') :: r))
  | done {t : Nat} {f : Future} {κ' : Continuation} {r : Settled} (cause : κ = .task t)
      (task : w.tasks.get? t = some (.await f κ')) (looked : (w.look f).2.2 = some r)
      (perm : before.Perm ((f, κ') :: after))
      (kept : ∀ p, κ' = .resolve p → p < w.promises.size → w'.isKept p = true)

theorem owed_of_chores (h : κ.Chores more) : owed more = [] := by
  refine List.filterMap_eq_nil_iff.mpr fun a ha => ?_
  have := (h a ha).1
  cases a <;> first | rfl | cases this

theorem owed_runHook (hooks : List Hook) : owed (hooks.map .runHook) = [] := by
  refine List.filterMap_eq_nil_iff.mpr fun _ ha => ?_
  obtain ⟨_, -, rfl⟩ := List.mem_map.mp ha
  rfl

variable {g : Nat}

theorem owed_flushes (g : Nat) (cell : GateCell) (rest : List Action) :
    owed (flushes g cell ++ rest) = owed rest := by
  unfold flushes
  split <;> rfl

variable {cell : GateCell} {e : Fault}

theorem Promise.isSome_keep (c : Promise) (o : Outcome) : (c.keep o).outcome.isSome = true := by
  cases ho : c.outcome with
  | none => rw [keep_of_none ho]; rfl
  | some => rw [keep_of_outcome ho, ho]; rfl

theorem Promise.keep_keep (o : Outcome) (c : Promise) : (c.keep o).keep o = c.keep o := by
  obtain ⟨_, ho'⟩ := Option.isSome_iff_exists.mp (c.isSome_keep o)
  exact keep_of_outcome ho'

variable {p : Nat}

theorem World.isKept_keep (o : Outcome) (hp : p < w.promises.size) :
    (w.keep p o).isKept p = true := by
  obtain ⟨c, hc⟩ := Table.get?_isSome_of_lt hp
  show ((w.promises.modify p _).get? p).any _ = true
  rw [Table.get?_modify_self, hc]
  exact c.isSome_keep o

/-- How the duties change at a move. -/
theorem Regular.dutyStep (reg : Regular H L w) (hap : Happening L w κ w' more) :
    DutyStep L w κ w' (owed κ.consumed ++ w.owed) (owed more ++ w'.owed) := by
  have quiet : ∀ {κ : Cause} {w' : World} {more : List Action}, owed κ.consumed = [] → owed more = [] →
      w'.owed = w.owed → (∀ k, κ.arrival? w k = none) → κ.isInvoke = false → κ.isTask = false →
      DutyStep L w κ w' (owed κ.consumed ++ w.owed) (owed more ++ w'.owed) := by
    intro κ w' more consumed left tasks unasked uninvoked idle
    refine .same unasked uninvoked (fun t f κ' hκ _ => ?_) ?_
    · rw [hκ] at idle
      cases idle
    · rw [consumed, left, tasks]
  have fresh : ∀ {κ : Cause} {w' : World} {more : List Action} (d : Duty), owed κ.consumed = [] →
      owed more = [d] → w'.owed = w.owed → κ.isTask = false → Engaged L w κ w' d →
      DutyStep L w κ w' (owed κ.consumed ++ w.owed) (owed more ++ w'.owed) := by
    intro κ w' more d consumed left tasks action how
    refine .engaged d action ?_ how
    rw [consumed, left, tasks]
    exact .refl _
  have pushed : ∀ {w' : World} {task : Task}, w'.tasks = w.tasks.push task → task.duty? = none →
      w'.owed = w.owed := by
    intro w' task heq none
    rw [owed_push heq, none]
    exact List.append_nil _
  have ended : ∀ {t : Nat} {s : Sight} {w' : World} {f : Future} {κ' : Continuation},
      w.tasks.get? t = some (.await f κ') → Glance w s →
      w'.tasks = s.tasks.modify t (fun _ => .finished) → κ'.isDuty = true →
      w.owed.Perm ((f, κ') :: w'.owed) := by
    intro t s w' f κ' ht glance tasks duty
    obtain ⟨r, before, after⟩ := owed_modify (glance.task ht) tasks
    have hd : (Task.await f κ').duty? = some (f, κ') := if_pos duty
    rw [glance.owed, hd] at before
    exact before.trans (.cons _ after.symm)
  have retired : ∀ {t : Nat} {s : Sight} {w' : World} {task : Task},
      w.tasks.get? t = some task → Glance w s →
      w'.tasks = s.tasks.modify t (fun _ => .finished) → task.duty? = none → w'.owed.Perm w.owed := by
    intro t s w' task ht glance tasks none
    obtain ⟨r, before, after⟩ := owed_modify (glance.task ht) tasks
    rw [glance.owed, none] at before
    exact after.trans before.symm
  have gated : ∀ {t g : Nat} {f : Future}, w.tasks.get? t = some (.await f (.gate g)) →
      ∀ t' f' κ', Cause.task t = .task t' → w.tasks.get? t' = some (.await f' κ') →
        κ'.isDuty = false := by
    rintro t g f task t' f' κ' heq ht
    cases heq
    obtain ⟨-, rfl⟩ := Task.await.inj (Option.some.inj (task.symm.trans ht))
    rfl
  cases hap with
  | calm trifling calm chores _ closing =>
    have tasks : w'.owed = w.owed := by rw [World.owed, calm.tasks]; rfl
    cases κ with
    | action a =>
      refine quiet ?_ (owed_of_chores chores) tasks (fun k => ?_) ?_ rfl
      all_goals cases a <;> first | rfl | cases trifling
    | owner => exact quiet rfl (owed_of_chores chores) tasks (fun _ => rfl) rfl rfl
    | task =>
      refine .same (fun _ => rfl) rfl (fun t' f κ' heq ht => ?_) ?_
      · cases heq
        exact absurd ht (closing f κ')
      · rw [owed_of_chores chores, tasks]
        exact .refl _
  | ignored none calm protest =>
    refine quiet rfl ?_ (by rw [World.owed, calm.tasks]; rfl) none rfl rfl
    obtain rfl | ⟨_, _, _, rfl⟩ := protest <;> rfl
  | vacant reason =>
    obtain ⟨_, rfl⟩ | ⟨_, rfl, -⟩ := reason <;> exact quiet rfl rfl rfl (fun _ => rfl) rfl rfl
  | @breach a _ _ cause more_eq =>
    obtain ⟨hc, unasked, uninvoked⟩ : owed (Cause.action a).consumed = [] ∧
        (∀ k, (Cause.action a).arrival? w k = none) ∧ (Cause.action a).isInvoke = false := by
      obtain ⟨_, _, _, rfl⟩ | ⟨_, _, _, rfl, none⟩ := cause
      · exact ⟨rfl, fun _ => rfl, rfl⟩
      · exact ⟨rfl, none, rfl⟩
    obtain rfl | ⟨_, id, rfl⟩ := more_eq
    · exact quiet hc rfl rfl unasked uninvoked rfl
    · exact fresh _ hc rfl rfl rfl (.remote uninvoked unasked)
  | settled _ none => exact quiet rfl rfl rfl none rfl rfl
  | @joined _ _ k g _ cell _ _ _ _ _ client handler held arrival joined =>
    refine fresh _ rfl (by rw [owed_flushes]; rfl) rfl rfl
      (.request client arrival (Nat.le_refl _) (fun g' gcell hg' hgcell => ⟨rfl, fun e failed => ?_⟩)
        fun g' cell' none hcell' => ?_)
    · obtain ⟨_, _, ok⟩ := reg.orderly.clients k cell handler
      rw [reg.coherent.single hg' (ok.gate g held)] at hgcell
      cases joined.gate.symm.trans hgcell
      obtain ⟨_, hc, some⟩ := joined.failed e failed
      simp [World.isKept, joining, hc, some]
    · have lost : (w.gates.modify g (joinGate _ w.promises.size)).get? g' = some cell' := hcell'
      rw [Table.get?_modify, none] at lost
      split at lost <;> cases lost
  | @first _ _ k _ cell _ _ _ _ _ _ _ _ client handler undisposed gate arrival _ made =>
    refine fresh _ rfl rfl (pushed rfl rfl) rfl (.request client arrival ?_ (fun g' gcell hg' _ => ?_)
      fun g' cell' none hcell' => ?_)
    · grind
    · rcases reg.orderly.held k cell handler g' hg' with gone | held
      · cases undisposed.symm.trans gone
      · cases gate.symm.trans held
    · grind
  | late client _ _ arrival =>
    exact fresh _ rfl rfl rfl rfl (.refusal client rfl fun k' hne => (arrival k').trans (if_neg hne))
  | garbled client none => exact fresh _ rfl rfl rfl rfl (.refusal client rfl fun k' _ => none k')
  | asked none => exact fresh _ rfl rfl rfl rfl (.remote rfl none)
  | arrived _ none | departed none => exact quiet rfl rfl (pushed rfl rfl) none rfl rfl
  | shutCore | shutHandler => exact quiet rfl (owed_runHook _) rfl (fun _ => rfl) rfl rfl
  | shutClient _ _ _ chores => exact quiet rfl (owed_of_chores chores) rfl (fun _ => rfl) rfl rfl
  | forwarded => exact fresh _ rfl (by rw [owed_flushes]; rfl) rfl rfl (.job rfl)
  | announced | posted | unposted => exact fresh _ rfl rfl rfl rfl (.job rfl)
  | @spawned task =>
    refine .same (fun _ => rfl) rfl (by rintro _ _ _ ⟨⟩) ?_
    have heq : (w.spawn task).owed = w.owed ++ task.duty?.toList := owed_push rfl
    have consumed : owed (Cause.action (.spawn task)).consumed = task.duty?.toList := by
      cases hd : task.duty? <;> simp [owed, Cause.consumed, Action.duty?, hd]
    rw [consumed, heq]
    exact @List.perm_append_comm _ w.owed _
  | pumping task =>
    refine .same (fun _ => rfl) rfl (fun t' f κ' heq ht => ?_) (.refl _)
    cases heq
    cases task.symm.trans ht
  | @waited t f f' κ' s task _ looked glance =>
    let after_world : World := { w.seen s with tasks := s.tasks.modify t fun _ => .await f' κ' }
    obtain ⟨r, before, after⟩ : ∃ r, (s.tasks.toList.filterMap Task.duty?).Perm
        ((Task.await f κ').duty?.toList ++ r) ∧
        after_world.owed.Perm ((Task.await f' κ').duty?.toList ++ r) := owed_modify (glance.task task) rfl
    rw [glance.owed] at before
    cases duty : κ'.isDuty with
    | true =>
      have hd : ∀ f, (Task.await f κ').duty? = some (f, κ') := fun f => if_pos duty
      rw [hd] at before after
      exact .waited r rfl task (by rw [looked]) before after
    | false =>
      have hd : ∀ f, (Task.await f κ').duty? = none := fun f => if_neg (by rw [duty]; rintro ⟨⟩)
      rw [hd] at before after
      refine .same (fun _ => rfl) rfl (fun t' _ _ heq ht => ?_) (after.trans before.symm)
      cases heq
      obtain ⟨-, rfl⟩ := Task.await.inj (Option.some.inj (task.symm.trans ht))
      exact duty
  | @finished _ task _ _ _ task_eq glance quiet' =>
    refine .same (fun _ => rfl) rfl (fun t' f κ' heq ht => ?_) (retired task_eq glance rfl ?_)
    · cases heq
      obtain ⟨g, rfl, -⟩ := quiet' f κ' (Option.some.inj (task_eq.symm.trans ht))
      rfl
    · cases task with
      | await f κ' =>
        obtain ⟨g, rfl, -⟩ := quiet' f κ' rfl
        rfl
      | _ => rfl
  | @resolved t _ f f' s r q task looked glance =>
    refine .done rfl task (by rw [looked]) (ended task glance rfl rfl) ?_
    rintro _ hp' hlt
    obtain rfl := Continuation.resolve.inj hp'
    exact isKept_keep (w := (w.seen s).finishTask t) (outcomeOf r)
      (Nat.lt_of_lt_of_le hlt glance.size_le)
  | answered task looked glance | muted task looked glance =>
    exact .done rfl task (by rw [looked]) (ended task glance rfl rfl) (by rintro _ ⟨⟩)
  | opened task _ _ glance =>
    exact .same (fun _ => rfl) rfl (gated task) (retired task glance rfl rfl)
  | failed task _ glance _ _ chores =>
    refine .same (fun _ => rfl) rfl (gated task) ?_
    rw [owed_of_chores chores]
    exact retired task glance rfl rfl
  | connected =>
    refine quiet rfl rfl ?_ (fun _ => rfl) rfl rfl
    show List.filterMap Task.duty? ((w.tasks.push _).push _).toList = _
    simp [Table.toList, Table.push, World.owed, Task.duty?]
  | admitted _ _ _ _ chores =>
    exact quiet rfl (owed_of_chores chores) (pushed rfl rfl) (fun _ => rfl) rfl rfl
  | attached => exact quiet rfl rfl (pushed rfl rfl) (fun _ => rfl) rfl rfl
  | @handled _ _ cell gate =>
    have left : owed (flushes cell.gate gate) = [] := by
      rw [← List.append_nil (flushes ..), owed_flushes]
      rfl
    exact quiet rfl left rfl (fun _ => rfl) rfl rfl
  | _ => exact quiet rfl rfl rfl (fun _ => rfl) rfl rfl

/-! ## Promises stay kept -/

theorem World.isKept_of_moreKept (h : MoreKept w.promises w'.promises)
    (kept : w.isKept p = true) : w'.isKept p = true := by
  unfold isKept at kept ⊢
  cases hc : w.promises.get? p with
  | none => simp [hc] at kept
  | some c =>
    obtain ⟨_, hc', rfl | ⟨o, rfl⟩⟩ := h.2 p c hc
    · rwa [hc', ← hc]
    · rw [hc']
      exact c.isSome_keep o

theorem World.isKept_of_push {c : Promise} (h : w'.promises = w.promises.push c)
    (kept : w.isKept p = true) : w'.isKept p = true := by
  unfold isKept at kept ⊢
  cases hc : w.promises.get? p with
  | none => simp [hc] at kept
  | some => rwa [h, Table.get?_push_of_lt (Table.lt_size_of_get? hc)]

theorem World.isKept_of_pushed {c : Promise}
    (h : MoreKept (w.promises.push c) w'.promises) (kept : w.isKept p = true) :
    w'.isKept p = true :=
  isKept_of_moreKept (w := { w with promises := w.promises.push c }) h (isKept_of_push rfl kept)

theorem World.Glance.isKept (h : Glance w s) (kept : w.isKept p = true) :
    (w.seen s).isKept p = true := by
  rcases h.promises with same | ⟨_, more⟩
  · unfold World.isKept seen
    rwa [same]
  · exact isKept_of_push (w := w) more kept

/-- A promise that is kept stays so. -/
theorem Happening.isKept (hap : Happening L w κ w' more) (kept : w.isKept p = true) :
    w'.isKept p = true := by
  have keeps : ∀ {w₀ w' : World} {t : Nat} {o : Outcome}, w₀.isKept p = true →
      w'.promises = w₀.promises.modify t (Promise.keep o) → w'.isKept p = true := fun h heq =>
    isKept_of_moreKept (heq ▸ .modify _ _ fun _ => ⟨_, rfl⟩) h
  cases hap with
  | calm _ calm | ignored _ calm => exact isKept_of_moreKept calm.promises kept
  | settled => exact @keeps w _ _ _ kept rfl
  | joined _ _ _ _ joined | forwarded _ joined | handled _ _ joined =>
    exact isKept_of_pushed (w := w) joined.kept kept
  | @first _ _ _ _ _ _ _ _ ps _ _ _ _ _ _ _ _ _ _ made =>
    refine isKept_of_push (w := { w with promises := ps }) rfl ?_
    rcases made with rfl | ⟨o, rfl⟩
    · exact kept
    · exact isKept_of_push (w := w) rfl kept
  | shutHandler _ _ more | shutClient _ _ more | admitted more | attached more =>
    exact isKept_of_moreKept (w := w) more kept
  | announced | posted | requested => exact isKept_of_push (w := w) rfl kept
  | unposted _ _ promises =>
    rcases promises with rfl | ⟨o, more⟩
    · exact kept
    · exact isKept_of_pushed (w := w) more kept
  | waited _ _ _ glance | finished _ glance | muted _ _ glance | opened _ _ _ glance | answered _ _ glance =>
    exact glance.isKept kept
  | resolved _ _ glance => exact keeps (glance.isKept kept) rfl
  | failed _ _ glance =>
    exact isKept_of_moreKept (.modifyAll _ _ fun _ => ⟨_, rfl⟩) (glance.isKept kept)
  | unrequested _ _ more => exact isKept_of_pushed (w := w) more kept
  | _ => exact kept

variable {cell' : GateCell} (hap : Happening L w (.task t) w' more) (hcell : w.gates.get? g = some cell) (waiting : cell.core.phase = .waiting) (hcell' : w'.gates.get? g = some cell') (failed : cell'.core.phase = .failed e)
include hap hcell waiting hcell' failed

/-- What is done when a gate is shut for good: whoever waits before it is told why, and so is the handler
whose gate it is. -/
theorem Happening.of_failed :
    (∀ h, cell.onRejected = some (.serverHandler h) → (w.serverHandlers.get? h).any (·.live) = true →
      more = [.closeServerHandler h]) ∧ ∃ s, Glance w s ∧
      w'.promises = s.promises.modifyAll (cell.core.queue.map Prod.snd) (Promise.keep (.error e)) := by
  have unchanged : ∀ {P : Prop} {gates : Table GateCell}, gates = w.gates → gates.get? g = some cell' → P := by
    rintro P gates rfl hsame
    cases hcell.symm.trans hsame
    cases waiting.symm.trans failed
  cases hap with
  | calm _ calm => exact unchanged calm.gates hcell'
  | opened _ _ _ _ _ gate | failed _ _ _ gate => grind
  | _ => exact unchanged rfl hcell'

/-- The promises of the jobs before a gate are kept when it is shut for good. -/
theorem Happening.failed_kept (hp : p ∈ cell.core.queue.map Prod.snd)
    (known : p < w.promises.size) : w'.isKept p = true := by
  obtain ⟨-, s, glance, promises⟩ := hap.of_failed hcell waiting hcell' failed
  obtain ⟨c, hc⟩ := Table.get?_isSome_of_lt (Nat.lt_of_lt_of_le known glance.size_le)
  unfold World.isKept
  rw [promises, Table.get?_modifyAll (Promise.keep_keep (.error e)), if_pos hp, hc]
  exact Promise.isSome_keep c (.error e)

end Switchboard
