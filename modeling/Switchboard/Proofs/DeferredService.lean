import Switchboard.Proofs.Deferral
import Switchboard.Proofs.Waking

/-!
# Jobs are served in order

Whatever happens to a gate, its world stays as the account of its jobs has it (`Sound`). So jobs run in the
order in which they were added, while the gate is open, and each job ends in one of four ways.
-/

namespace Switchboard

open World

namespace Deferral

def next (a : Account) (x : Exchange) (e : Event) : Account := (note? x e).toList.foldl Account.after a

def Sound (a : Account) (x : Exchange) : Prop :=
  ∃ cell, x.world.gates.get? gate = some cell ∧ Fits a (scene cell x)

namespace Sound

variable {a : Account} {x : Exchange}

theorem opening : Sound {} opening := by
  refine ⟨_, rfl, ?_⟩
  refine
    { valid := ⟨rfl, List.nodup_nil, nofun, fun _ => rfl, nofun, Nat.zero_le _, fun _ => rfl⟩
      live := rfl, handler := fun _ => rfl, stage := .idle rfl nofun, jobs := nofun, vigil := .inl ⟨rfl, .inl rfl⟩
      tasks := ?_, spawns := nofun, phase := rfl, tickets := rfl, small := nofun, others := ?_, queue := nofun
      away := nofun, ran := nofun, awaited := nofun, rejections := rfl }
  · intro _ _ other ht
    refine absurd (Table.lt_size_of_get? ht) fun less => other ?_
    exact Nat.lt_one_iff.mp less
  · intro _ hp
    rw [List.mem_singleton.mp hp]
    exact ⟨Nat.zero_lt_one, List.not_mem_nil⟩

variable {e : Event}

theorem still (h : Sound a x) (same : step x e = x) (quiet : note? x e = none) : Sound (next a x e) (step x e) := by
  rw [next, quiet, same]
  exact h

theorem of_quiet (quiet : note? x e = none) (h : Sound a (step x e)) : Sound (next a x e) (step x e) := by
  rw [next, quiet]
  exact h

theorem of_note {n : Note} (note : note? x e = some n) (h : Sound (a.after n) (step x e)) :
    Sound (next a x e) (step x e) := by
  rw [next, note]
  exact h

/-! ## Calls -/

variable {cell : GateCell} (held : x.world.gates.get? gate = some cell) (fits : Fits a (scene cell x))
include held fits

omit fits in
theorem held_modify (f : GateCell → GateCell) : (x.world.gates.modify gate f).get? gate = some (f cell) := by
  rw [Table.get?_modify_self, held]
  rfl

theorem add (s : Script) : Sound (next a x (.add s)) (step x (.add s)) := by
  by_cases calls : mayCall x.agenda = true
  · refine of_note (if_pos calls) ?_
    have after : step x (.add s) =
        ⟨((x.world.promise (.error .jobSkipped)).addJob gate (job s) x.world.promises.size).1,
          ((x.world.promise (.error .jobSkipped)).addJob gate (job s) x.world.promises.size).2 ++ x.agenda⟩ :=
      if_pos calls
    have refused : ∀ e, refusal? cell.core.phase = some e → Sound (a.after (.added x.world.promises.size (job s)))
        ⟨(x.world.promise (.error .jobSkipped)).resolve x.world.promises.size (.error e), x.agenda⟩ := by
      intro e refuses
      rw [resolve_eq]
      refine ⟨cell, held, ?_⟩
      have pushed : (x.world.promises.push { fallback := .error .jobSkipped }).modify x.world.promises.size
          (Promise.keep (.error e)) =
            x.world.promises.push { fallback := .error .jobSkipped, outcome := some (.error e) } :=
        Table.modify_push_size ..
      have fits := fits.refused (s := s) refuses
      rw [show (scene cell x).promises = x.world.promises from rfl, ← pushed] at fits
      exact fits
    rw [after, addJob_eq (w := x.world.promise (.error .jobSkipped)) held (job s) x.world.promises.size]
    cases phase : cell.core.phase with
    | waiting => exact ⟨_, held_modify held _, fits.queued calls (.inl ⟨phase, rfl⟩)⟩
    | ready => exact ⟨_, held_modify held _, fits.queued calls (.inr ⟨phase, rfl⟩)⟩
    | failed e => exact refused e (by rw [phase]; rfl)
    | disposed =>
      have broken : (x.world.promise (.error .jobSkipped)).breakPromise x.world.promises.size =
          (x.world.promise (.error .jobSkipped)).resolve x.world.promises.size (.error .jobSkipped) := by
        simp [World.breakPromise, World.promise]
      rw [broken]
      exact refused _ (by rw [phase]; rfl)
  · exact still ⟨cell, held, fits⟩ (if_neg calls) (if_neg calls)

theorem dispose : Sound (next a x .dispose) (step x .dispose) := by
  by_cases calls : mayCall x.agenda = true
  · refine of_note (if_pos calls) ?_
    have after : step x .dispose = ⟨x.world.disposeGate gate, x.agenda⟩ := if_pos calls
    rw [after]
    obtain ⟨already, same⟩ | ⟨_, _, here, phase, eq⟩ := disposeGate_cases x.world gate
    · rw [same]
      have closed : a.phase = .disposed := fits.phase ▸ already cell held
      refine ⟨cell, held, ?_⟩
      rw [Account.after, if_pos closed]
      exact fits
    · cases held.symm.trans here
      rw [eq]
      refine ⟨_, held_modify held _, ?_⟩
      have open' : a.phase ≠ .disposed := fits.phase ▸ phase
      have fits := fits.shut .disposed Promise.lapse x.world.tasks [] calls rfl
        (by rw [List.append_nil]; exact fits.valid.once.1) rfl (fun _ => Promise.keep_of_outcome rfl)
        (fits.vigil.imp (And.imp_right fun _ => .inr rfl) (And.imp_right fun _ => nofun)) fun _ _ => rfl
      simp only [List.append_nil] at fits
      rw [Account.after, if_neg open']
      exact fits
  · exact still ⟨cell, held, fits⟩ (if_neg calls) (if_neg calls)

theorem decide (o : Except Fault Unit) : Sound (next a x (.decide o)) (step x (.decide o)) := by
  by_cases calls : mayCall x.agenda = true
  · have after : step x (.decide o) = ⟨x.world.resolve readiness (o.map fun _ => .null), x.agenda⟩ := if_pos calls
    rw [after, resolve_eq]
    have same : ∀ p, p ≠ readiness → (x.world.promises.modify readiness (Promise.keep (o.map fun _ => .null))).get? p =
        x.world.promises.get? p := fun p other => Table.get?_modify_of_ne (Ne.symm other) ..
    refine ⟨cell, held, fits.aside fits.valid (Table.size_modify ..) (fun p other => same p ?_) (List.Subset.refl _)
      fun ofJob => ofJob.mono (fun _ _ => id) (Nat.le_of_eq (Table.size_modify ..).symm)
        (fun _ _ _ => Iff.rfl) fun q _ other => ?_⟩
    · rintro rfl
      exact other (.head _)
    · have other : q ≠ readiness := fun is => other (is ▸ .head _)
      exact outcomeIn_congr (same q other)
  · rw [show step x (.decide o) = x from if_neg calls]
    exact ⟨cell, held, fits⟩

theorem finish (token : String) (o : Outcome) : Sound (next a x (.finish token o)) (step x (.finish token o)) := by
  by_cases calls : mayCall x.agenda = true
  · refine of_note (if_pos calls) ?_
    have after : step x (.finish token o) = ⟨(x.world.finishToken token o).1, x.agenda⟩ := if_pos calls
    obtain ⟨ps, q, heq, size, mine, others⟩ := finishToken_spec token o x.world
    rw [after, heq]
    refine ⟨cell, held, fits.aside (fits.valid.after (n := .finished token o) trivial) size (fun p other => others p ?_)
      List.filter_sublist.subset fun ofJob => ofJob.finish size mine others⟩
    exact fun mem => other (.tail _ (List.mem_map_of_mem (f := Prod.snd) mem))
  · exact still ⟨cell, held, fits⟩ (if_neg calls) (if_neg calls)

/-! ## Actions -/

theorem proceed : Sound (next a x .proceed) (step x .proceed) := by
  have stage : Stage x.agenda cell.core := fits.stage
  have action : ∀ {b rest}, x.agenda = b :: rest →
      step x .proceed = ⟨(x.world.perform b).1, (x.world.perform b).2 ++ rest⟩ := fun first => by
    simp only [step, first]
  have quiet : ∀ {b rest}, x.agenda = b :: rest → letIn? b = none → note? x .proceed = none := fun first none => by
    simp only [note?, first]
    split
    · next same => cases same; exact absurd none nofun
    · rfl
  generalize agenda : x.agenda = l at stage
  have jobs : (scene cell x).jobs = l.filterMap letIn? ++ cell.core.queue := by
    rw [← agenda]
    rfl
  have spawns : ∀ task, Action.spawn task ∈ (scene cell x).agenda ↔ .spawn task ∈ l := fun task => by
    rw [← agenda]
    rfl
  cases stage with
  | idle => exact still ⟨cell, held, fits⟩ (by simp only [step, agenda]) (by simp only [note?, agenda])
  | toFlush free =>
    have flush : x.world.perform (.flush gate) =
        (x.world.setGate gate { cell.core with flushing := true }, [.dispatchNext gate]) := by
      show x.world.flush gate = _
      simp [World.flush, held, Deferred.startFlush?, free]
    refine of_quiet (quiet agenda rfl) ?_
    rw [action agenda, flush]
    refine ⟨_, held_modify held _, fits.arranged rfl (.flushing rfl) jobs.symm fun task => ?_⟩
    rw [spawns]
    simp
  | nested taken =>
    have flush : x.world.perform (.flush gate) = (x.world, []) := by
      show x.world.flush gate = _
      simp [World.flush, held, Deferred.startFlush?, taken]
    refine of_quiet (quiet agenda rfl) ?_
    rw [action agenda, flush]
    refine ⟨_, held, fits.arranged rfl (.running taken) jobs.symm fun task => ?_⟩
    rw [spawns]
    simp
  | flushing taken =>
    refine of_quiet (quiet agenda rfl) ?_
    rw [action agenda, show x.world.perform (.dispatchNext gate) = x.world.dispatchNext gate from rfl]
    obtain ⟨none, -⟩ | ⟨_, here, ⟨done, eq⟩ | ⟨j, p, _, isOpen, queue, eq⟩⟩ := dispatchNext_cases x.world gate
    · cases none.symm.trans held
    · cases held.symm.trans here
      rw [eq]
      refine ⟨_, held_modify held _, fits.arranged rfl (.idle rfl done) jobs.symm fun task => ?_⟩
      rw [spawns]
      simp
    · cases held.symm.trans here
      obtain ⟨s, rfl, -⟩ : ∃ s, j = job s ∧ _ := fits.jobs (j, p) (by rw [jobs, queue]; exact .head _)
      rw [eq]
      refine ⟨_, held_modify held _, fits.arranged rfl (.letIn taken isOpen) ?_ fun task => ?_⟩
      · rw [jobs, queue]
        rfl
      · rw [spawns]
        simp
  | @letIn _ s p taken isOpen =>
    refine of_note (n := .invoked p (job s)) (by simp only [note?, agenda]) ?_
    have invoke : x.world.perform (.invoke (job s) p) =
        (x.world.log (.dispatched "gate" "job"), [.spawn (aftermath s p)]) := rfl
    rw [action agenda, invoke]
    refine ⟨cell, held, ?_⟩
    have fits := fits.invoked agenda (.running taken) isOpen
    grind [log, rejection?, scene]
  | @running _ s p taken =>
    refine of_quiet (quiet agenda rfl) ?_
    rw [action agenda]
    exact ⟨cell, held, fits.spawned agenda (.flushing taken)⟩

/-! ## Tasks -/

/-- A task that waits for the future of a job. -/
theorem attend {t p : Nat} {f : Future} (idle : x.agenda = [])
    (waits : x.world.tasks.get? t = some (.await f (.resolve p))) :
    Sound (next a x (.poll t)) ⟨(x.world.poll t).1, (x.world.poll t).2⟩ := by
  have noted : note? x (.poll t) = (x.world.look f).2.2.map fun r => .given p (outcomeOf r) := by
    simp only [note?, idle, List.isEmpty_nil, if_true, waits]
  obtain ⟨-, s, added, ofJob⟩ := fits.of_waits waits
  obtain ⟨f', r, looked, yields⟩ | ⟨f', ps, wt, looked, ofJob, begun⟩ := look_pursues ofJob
    (List.forall_mem_cons.mpr ⟨(fits.others _ (.head _)).1, fits.small⟩) fun _ he =>
      (fits.others _ (.tail _ (List.mem_map_of_mem he))).1
  · have polled : x.world.poll t = ((x.world.finishTask t).resolve p (outcomeOf r), []) := by
      simp only [World.poll, waits, isMoot, Bool.false_eq_true, if_false, looked, continueWith]
    rw [next, noted, looked, polled, resolve_eq]
    refine ⟨cell, held, ?_⟩
    have fits := fits.ended waits ⟨s, added, yields⟩
    rw [← idle]
    exact fits
  · have polled : x.world.poll t =
        ({ x.world with
          promises := ps, waiting := wt, tasks := x.world.tasks.modify t fun _ => .await f' (.resolve p) }, []) := by
      simp only [World.poll, waits, isMoot, Bool.false_eq_true, if_false, looked]
    rw [next, noted, looked, polled]
    refine ⟨cell, held, ?_⟩
    have fits := fits.waited waits added ofJob begun
    rw [← idle]
    exact fits

theorem watches (idle : x.agenda = []) (waits : x.world.tasks.get? watcher = some watch)
    (phase : cell.core.phase = .waiting ∨ cell.core.phase = .disposed) :
    Sound (next a x (.poll watcher)) ⟨(x.world.poll watcher).1, (x.world.poll watcher).2⟩ := by
  have looked : x.world.look (.promise readiness) =
      (x.world, .promise readiness, (outcomeIn x.world.promises readiness).map Settled.outcome) := rfl
  have noted : note? x (.poll watcher) = (outcomeIn x.world.promises readiness).map .told := by
    simp only [note?, idle, List.isEmpty_nil, if_true, waits, watch, looked, Option.map_map]
    rfl
  have moot : x.world.isMoot (.gate gate) = Decidable.decide (cell.core.phase = .disposed) := by
    simp [isMoot, held]
  obtain ⟨-, free, -⟩ | ⟨_, _, agenda, -⟩ := fits.stage.calls (by rw [show (scene cell x).agenda = [] from idle]; rfl)
  swap
  · cases agenda.symm.trans idle
  rcases phase with phase | phase
  · have waiting : a.phase = .waiting := fits.phase ▸ phase
    have lively : x.world.isMoot (.gate gate) = false := by rw [moot, phase]; rfl
    have polled : ∀ o, outcomeIn x.world.promises readiness = some o → x.world.poll watcher =
        (x.world.finishTask watcher).continueWith (.gate gate) watcher (.outcome o) := by
      intro o kept
      simp only [World.poll, waits, watch, lively, Bool.false_eq_true, if_false, looked, kept, Option.map_some]
    cases kept : outcomeIn x.world.promises readiness with
    | none =>
      have same : (x.world.tasks.modify watcher fun _ => watch) = x.world.tasks :=
        Table.modify_eq_self fun _ hb => Option.some.inj (waits.symm.trans hb)
      have polled : x.world.poll watcher = ({ x.world with tasks := x.world.tasks.modify watcher fun _ => watch }, []) := by
        simp only [World.poll, waits, watch, lively, Bool.false_eq_true, if_false, looked, kept, Option.map_none]
      rw [next, noted, kept, polled, same, ← idle]
      exact ⟨cell, held, fits⟩
    | some o =>
      rw [next, noted, kept, polled o kept]
      cases o with
      | ok v =>
        have opened : (x.world.finishTask watcher).continueWith (.gate gate) watcher (.outcome (.ok v)) =
            ({ x.world.finishTask watcher with gates := x.world.gates.modify gate fun c =>
                { c with core := { cell.core with phase := .ready }, onRejected := none } }, [.flush gate]) := by
          have live : cell.live = true := fits.live
          simp [continueWith, outcomeOf, openGate, finishTask, held, Deferred.open?, phase, live]
        rw [opened]
        refine ⟨_, held_modify held _, ?_⟩
        have told : a.after (.told (.ok v)) = { a with phase := .ready } := by simp only [Account.after, waiting]
        exact fits.unwatched { cell with core := { cell.core with phase := .ready }, onRejected := none }
          (n := .told (.ok v)) waits idle fits.live rfl (by rintro ⟨⟩) (.toFlush free) (.inr rfl) told trivial
      | error e =>
        obtain ⟨q, heq⟩ := resolveAll_eq (cell.core.queue.map Prod.snd) (.error e)
          { x.world.finishTask watcher with gates := x.world.gates.modify gate fun c =>
            { c with core := { cell.core with phase := .failed e, queue := [] }, onRejected := none } }
        have failed : (x.world.finishTask watcher).continueWith (.gate gate) watcher (.outcome (.error e)) =
            (({ x.world.finishTask watcher with
                gates := x.world.gates.modify gate fun c =>
                  { c with core := { cell.core with phase := .failed e, queue := [] }, onRejected := none }
                promises := x.world.promises.modifyAll (cell.core.queue.map Prod.snd) (Promise.keep (.error e))
                queue := q } : World).log (.rejected "gate" e), []) := by
          have here : (x.world.finishTask watcher).gates.get? gate = some cell := held
          have live : cell.live = true := fits.live
          have handler : cell.onRejected = some (.scripted "gate" []) := fits.handler phase
          simp only [continueWith, outcomeOf, failGate, here, Deferred.fail?, phase, if_true, live, handler]
          exact Prod.ext (congrArg (World.log (.rejected "gate" e)) heq) rfl
        rw [failed]
        refine ⟨_, held_modify held _, ?_⟩
        have finished := task_ends waits
        have fits := fits.shut (.failed e) (Promise.keep (.error e))
          (x.world.tasks.modify watcher fun _ => .finished) [e] (by rw [show (scene cell x).agenda = [] from idle]; rfl)
          rfl (by rw [fits.valid.once.2 waiting]; exact Nat.le_refl 1) rfl (fun c => Promise.keep_of_outcome rfl)
          (.inr ⟨(finished _).trans (if_pos rfl), by rintro ⟨⟩⟩) fun t other => (finished t).trans (if_neg (Ne.symm other))
        have told : a.after (.told (.error e)) = { a.shut (.failed e) e with rejections := a.rejections ++ [e] } := by
          simp only [Account.after, waiting]
        have log : (scene cell x).rejections ++ [e] =
            (World.log (.rejected "gate" e) x.world).events.filterMap rejection? := by
          simp [scene, World.log, rejection?]
        rw [log] at fits
        rw [← idle]
        show Fits (a.after (.told (.error e))) _
        rw [told]
        exact fits
  · have closed : a.phase = .disposed := fits.phase ▸ phase
    have after : ∀ o, a.after (.told o) = a := fun o => by simp only [Account.after, closed]
    have polled : x.world.poll watcher = (x.world.finishTask watcher, []) := by
      simp only [World.poll, waits, watch, moot, phase, decide_true, if_true]
    have same : next a x (.poll watcher) = a := by
      rw [next, noted]
      cases outcomeIn x.world.promises readiness with
      | none => rfl
      | some o => exact after o
    rw [polled, same]
    refine ⟨cell, held, ?_⟩
    have told : a.after (.told (.ok .null)) = { a with phase := cell.core.phase } := by rw [after, phase, ← closed]
    have fits := fits.unwatched cell waits idle fits.live rfl (fun is => (by cases phase.symm.trans is))
      (.idle free fun is => (by cases phase.symm.trans is)) (.inl rfl) told trivial
    rw [after] at fits
    exact fits

theorem poll (t : Nat) : Sound (next a x (.poll t)) (step x (.poll t)) := by
  by_cases idle : x.agenda = []
  · have after : step x (.poll t) = ⟨(x.world.poll t).1, (x.world.poll t).2⟩ := if_pos (by rw [idle]; rfl)
    have spent : x.world.tasks.get? t = some .finished ∨ x.world.tasks.get? t = none →
        Sound (next a x (.poll t)) (step x (.poll t)) := by
      intro gone
      refine still ⟨cell, held, fits⟩ ?_ ?_
      · rw [after]
        rcases gone with gone | gone <;> simp only [World.poll, gone] <;> rw [← idle]
      · rcases gone with gone | gone <;> simp [note?, gone]
    cases task : x.world.tasks.get? t with
    | none => exact spent (.inr task)
    | some task' =>
      by_cases first : t = watcher
      · subst first
        rcases fits.vigil with ⟨waits, phase⟩ | ⟨gone, -⟩
        · rw [after]
          exact watches held fits idle waits phase
        · exact spent (.inl gone)
      · rcases fits.tasks t task' first task with rfl | ⟨_, _, _, rfl, -⟩
        · exact spent (.inl task)
        · rw [after]
          exact attend held fits idle task
  · have busy : ¬ x.agenda.isEmpty = true := fun empty => idle (List.isEmpty_iff.mp empty)
    exact still ⟨cell, held, fits⟩ (if_neg busy) (if_neg busy)

theorem elapse (ms : Nat) : Sound (next a x (.elapse ms)) (step x (.elapse ms)) := by
  by_cases idle : x.agenda = []
  · obtain ⟨_, heq, -⟩ := wakeDue_spec (x.world.clock + ms) x.world
    have after : step x (.elapse ms) = ⟨x.world.wakeDue (x.world.clock + ms), []⟩ := if_pos (by rw [idle]; rfl)
    rw [after, heq, ← idle]
    exact ⟨cell, held, fits⟩
  · rw [show step x (.elapse ms) = x from if_neg fun empty => idle (List.isEmpty_iff.mp empty)]
    exact ⟨cell, held, fits⟩

omit held fits in
/-- What one event preserves. -/
theorem step (h : Sound a x) (e : Event) : Sound (next a x e) (Deferral.step x e) := by
  obtain ⟨_, held, fits⟩ := h
  cases e with
  | proceed => exact proceed held fits
  | poll t => exact poll held fits t
  | elapse ms => exact elapse held fits ms
  | add s => exact add held fits s
  | dispose => exact dispose held fits
  | decide o => exact decide held fits o
  | finish token o => exact finish held fits token o

end Sound

/-! ## The whole -/

abbrev Turn := Runs.Turn Exchange Event

/-- What the turns did to the jobs. -/
def notes (ts : List Turn) : List Note := ts.filterMap fun t => note? t.before t.event

/-- What has become of the jobs. -/
def account (ts : List Turn) : Account := (notes ts).foldl Account.after {}

theorem account_append (ts : List Turn) (t : Turn) : account (ts ++ [t]) = next (account ts) t.before t.event := by
  unfold account notes next
  rw [List.filterMap_append, List.foldl_append]
  congr 1

/-- The world of a gate is as the account of the run has it. -/
theorem sound (es : List Event) :
    Sound (account (Runs.turns step opening es)) (Runs.run step opening es) := by
  refine Runs.induction (P := fun ts x => Sound (account ts) x) .opening (fun ts x e h => ?_) es
  rw [account_append]
  exact h.step e

theorem phase_told (ns : List Note) :
    ((ns.foldl Account.after {}).phase ≠ .disposed → Note.disposed ∉ ns) ∧
      ((ns.foldl Account.after {}).phase = .ready → ∃ v, Note.told (.ok v) ∈ ns) := by
  induction ns using List.reverseRecOn with
  | nil => exact ⟨fun _ => List.not_mem_nil, nofun⟩
  | append_singleton ns n ih =>
    rw [List.foldl_append]
    generalize ns.foldl Account.after {} = a at ih
    have kept (same : (a.after n).phase = a.phase) (other : n ≠ .disposed) :
        ((a.after n).phase ≠ .disposed → Note.disposed ∉ ns ++ [n]) ∧
          ((a.after n).phase = .ready → ∃ v, Note.told (.ok v) ∈ ns ++ [n]) := by
      grind
    cases n with
    | added =>
      refine kept ?_ nofun
      dsimp only [Account.after]
      split <;> rfl
    | invoked | given | finished => exact kept rfl nofun
    | disposed =>
      have closed : (a.after .disposed).phase = .disposed := by
        dsimp only [Account.after]
        split
        · assumption
        · rfl
      exact ⟨fun open' => absurd closed open', fun ready => absurd (closed.symm.trans ready) nofun⟩
    | told o =>
      by_cases waiting : a.phase = .waiting
      · have noDisposal : Note.disposed ∉ ns := ih.1 (by rw [waiting]; nofun)
        refine ⟨fun _ => by simpa using noDisposal, fun ready => ?_⟩
        cases o with
        | ok v => exact ⟨v, by simp⟩
        | error => simp [Account.after, waiting, Account.shut] at ready
      · refine kept ?_ nofun
        dsimp only [Account.after]
        split
        · next is => exact absurd is waiting
        · next is => exact absurd is waiting
        · rfl

def Account.Within (a a' : Account) : Prop :=
  a.ran ⊆ a'.ran ∧ a.away ⊆ a'.away ∧ ∃ more, a'.given = a.given ++ more

theorem within_next (a : Account) (x : Exchange) (e : Event) : a.Within (next a x e) := by
  have same : a.given = a.given ++ [] := (List.append_nil _).symm
  have still : a.Within a := ⟨List.Subset.refl _, List.Subset.refl _, [], same⟩
  unfold next
  rcases note? x e with _ | p | p | ⟨p, o⟩ | o | _ | _
  · exact still
  · dsimp only [Option.toList, List.foldl, Account.after]
    split
    · exact ⟨List.Subset.refl _, List.subset_append_left _ _, [], same⟩
    · exact still
  · exact ⟨List.subset_append_left _ _, List.Subset.refl _, [], same⟩
  · exact ⟨List.Subset.refl _, List.Subset.refl _, _, rfl⟩
  · dsimp only [Option.toList, List.foldl, Account.after]
    split
    · exact still
    · exact ⟨List.Subset.refl _, List.subset_append_left _ _, [], same⟩
    · exact still
  · dsimp only [Option.toList, List.foldl, Account.after]
    split
    · exact still
    · exact ⟨List.Subset.refl _, List.subset_append_left _ _, [], same⟩
  · exact still

/-- The outcome of a job that has one stays. -/
theorem Fits.kept {a a' : Account} {v v' : Scene} (h : Fits a v) (h' : Fits a' v') (within : a.Within a') {p : Nat}
    {o : Outcome} (added : p ∈ a.tickets) (kept : outcomeIn v.promises p = some o) : outcomeIn v'.promises p = some o := by
  obtain ⟨ran, away, _, given⟩ := within
  rcases h.mem_tickets.mp added with hp | hp | hp
  · rw [h'.ran p (ran hp), given, List.lookup_append, ← h.ran p hp, kept]
    rfl
  · obtain ⟨r, hr, rfl⟩ := List.mem_map.mp hp
    rw [h'.away r (away hr), ← h.away r hr, kept]
  · exact absurd ((h.unkept hp).symm.trans kept) nofun

/-- A job that is let through is one that was added, and the gate is open. -/
theorem Fits.of_invoked {a : Account} {x : Exchange} {cell : GateCell} (h : Fits a (scene cell x)) {e : Event}
    {p : Nat} {j : Job} (note : note? x e = some (.invoked p j)) : cell.core.phase = .ready ∧ (p, j) ∈ a.added := by
  cases e with
  | proceed =>
    have stage : Stage x.agenda cell.core := h.stage
    have jobs : ∀ e ∈ x.agenda.filterMap letIn? ++ cell.core.queue, ∃ s, e.1 = job s ∧ (e.2, e.1) ∈ a.added := h.jobs
    dsimp only [note?] at note
    generalize x.agenda = l at stage jobs note
    cases stage with
    | @letIn _ s q _ isOpen =>
      obtain ⟨_, -, added⟩ := jobs (job s, q) (.head _)
      cases note
      exact ⟨isOpen, added⟩
    | _ => cases note
  | poll =>
    grind [note?]
  | add | dispose | finish => simp [note?] at note
  | _ => exact absurd note nofun

/-- What a gate does with the jobs that are added to it. -/
structure Served (ts : List Turn) (x : Exchange) (core : Deferred Job Nat) : Prop where
  phase : core.phase = (account ts).phase
  order : (account ts).tickets = (account ts).ran ++ (account ts).away.map Prod.fst ++ (account ts).queue
  /-- Every job has a ticket of its own. -/
  nodup : (account ts).tickets.Nodup
  /-- What runs is the job that was added with the ticket, while the gate is open. -/
  invoked : ∀ before t after p j, ts = before ++ t :: after → note? t.before t.event = some (.invoked p j) →
    (p, j) ∈ (account before).added ∧ (∃ v, .told (.ok v) ∈ notes before) ∧ .disposed ∉ notes before
  /-- Nobody is let through when the outermost call has returned, for nobody is left. -/
  drained : x.agenda = [] → core.flushing = false ∧ (core.phase = .ready → core.queue = [])
  /-- An outcome stays. -/
  kept : ∀ before t after, ts = before ++ t :: after → ∀ p ∈ (account before).tickets, ∀ o,
    outcomeIn t.before.world.promises p = some o → outcomeIn t.after.world.promises p = some o
  waiting : ∀ p ∈ (account ts).queue, outcomeIn x.world.promises p = none
  away : ∀ r ∈ (account ts).away, outcomeIn x.world.promises r.1 = some (.error r.2)
  /-- A job that ran has the outcome of its future, once that is there; before, a task waits for the future. -/
  ran : ∀ p ∈ (account ts).ran, outcomeIn x.world.promises p = (account ts).given.lookup p ∧
    (outcomeIn x.world.promises p = none → x.agenda = [] →
      ∃ t f s, x.world.tasks.get? t = some (.await f (.resolve p)) ∧ (p, job s) ∈ (account ts).added ∧
        OfJob (account ts) x.world.promises x.world.waiting s f)
  given : ∀ r ∈ (account ts).given, (account ts).Due r.1 r.2
  awaits : core.phase = .waiting → x.world.tasks.get? watcher = some watch
  rejections : x.world.events.filterMap rejection? = (account ts).rejections ∧ (account ts).rejections.length ≤ 1

theorem served (es : List Event) : ∃ cell, (Runs.run step opening es).world.gates.get? gate = some cell ∧
    Served (Runs.turns step opening es) (Runs.run step opening es) cell.core := by
  obtain ⟨cell, held, fits⟩ := sound es
  refine ⟨cell, held,
    { phase := fits.phase, order := fits.valid.order, nodup := fits.valid.nodup
      invoked := fun before t after p j split note => ?_, drained := fun idle => ?_
      kept := fun before t after split p added _ kept => ?_, waiting := fun p hp => fits.unkept hp, away := fits.away
      ran := fun p hp => ⟨fits.ran p hp, fun none idle => ?_⟩, given := fun r hr => (fits.valid.given r hr).2, awaits := fun waiting => ?_
      rejections := ⟨fits.rejections, fits.valid.once.1⟩ }⟩
  · obtain ⟨es₁, es₂, rfl, ht, -⟩ := Runs.turns_split split
    obtain ⟨_, -, before⟩ := sound es₁
    rw [ht] at note
    obtain ⟨isOpen, added⟩ := before.of_invoked note
    have ready : (account (Runs.turns step opening es₁)).phase = .ready := before.phase ▸ isOpen
    obtain ⟨open', told⟩ := phase_told (notes (Runs.turns step opening es₁))
    exact ⟨added, told ready, open' fun closed => absurd (ready.symm.trans closed) nofun⟩
  · obtain ⟨-, free, done⟩ | ⟨_, _, agenda, -⟩ := fits.stage.calls (by rw [show (scene cell _).agenda = [] from idle]; rfl)
    · exact ⟨free, done⟩
    · cases agenda.symm.trans idle
  · obtain ⟨es₁, es₂, rfl, ht, -⟩ := Runs.turns_split split
    rw [ht] at kept ⊢
    obtain ⟨_, -, before⟩ := sound es₁
    obtain ⟨_, -, after⟩ := (sound es₁).step t.event
    exact before.kept after (within_next ..) added kept
  · rcases fits.awaited p hp none with ⟨_, hs⟩ | ⟨t, f, waits⟩
    · rw [show (scene cell _).agenda = [] from idle] at hs
      exact absurd hs List.not_mem_nil
    · obtain ⟨-, s, added, ofJob⟩ := fits.of_waits waits
      exact ⟨t, f, s, waits, added, ofJob⟩
  · rcases fits.vigil with ⟨watch, -⟩ | ⟨-, other⟩
    · exact watch
    · exact absurd waiting other

end Deferral

end Switchboard
