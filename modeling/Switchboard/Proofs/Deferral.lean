import Mathlib.Data.List.Nodup
import Switchboard.Proofs.Exchange
import Switchboard.Proofs.Jobs
import Switchboard.Proofs.Runs
import Switchboard.World.Run

/-!
# A gate and its jobs

Jobs are added to a gate that opens or fails with a promise, and that may be disposed. Whoever calls does so
while nobody else runs, or from inside a job: a job runs between being let through and its future being
awaited (`mayCall`). Tasks go on in any order, and time may pass whenever nothing is under way.

`note?` says what an event brings about, and `Account` what has become of the jobs, read off the notes alone.
`Fits` says that a world is as the account has it; each kind of change keeps it.
-/

namespace Switchboard

open World

namespace Deferral

/-! ## The system -/

abbrev gate : Nat := 0

abbrev watcher : Nat := 0

abbrev readiness : Nat := 0

def job (script : Script) : Job := .scripted "gate" "job" script []

/-- What is left to do for a job that runs: its future is awaited, and the promise of its ticket kept. -/
def aftermath (script : Script) (ticket : Nat) : Task := .await (.job script) (.resolve ticket)

def watch : Task := .await (.promise readiness) (.gate gate)

def opening : Exchange :=
  ⟨(((({ script := Script.echo } : World).promise (.error (.other "abandoned"))).newGate
    (.promise readiness) (some (.scripted "gate" [])) (some readiness))).1, []⟩

/-- What can happen. -/
inductive Event where
  /-- The next action of the agenda is carried out. -/
  | proceed
  | poll (task : Nat)
  /-- Time passes. -/
  | elapse (ms : Nat)
  | add (script : Script)
  | dispose
  /-- Readiness is decided. -/
  | decide (outcome : Except Fault Unit)
  | finish (token : String) (outcome : Outcome)

def mayCall : List Action → Bool
  | [] => true
  | .spawn _ :: _ => true
  | _ => false

def step (x : Exchange) : Event → Exchange
  | .proceed =>
    match x.agenda with
    | [] => x
    | a :: rest => ⟨(x.world.perform a).1, (x.world.perform a).2 ++ rest⟩
  | .poll t => if x.agenda.isEmpty then ⟨(x.world.poll t).1, (x.world.poll t).2⟩ else x
  | .elapse ms => if x.agenda.isEmpty then ⟨x.world.wakeDue (x.world.clock + ms), []⟩ else x
  | .add script =>
    if mayCall x.agenda then
      let (w, more) := (x.world.promise (.error .jobSkipped)).addJob gate (job script) x.world.promises.size
      ⟨w, more ++ x.agenda⟩
    else x
  | .dispose => if mayCall x.agenda then ⟨x.world.disposeGate gate, x.agenda⟩ else x
  | .decide outcome =>
    if mayCall x.agenda then ⟨x.world.resolve readiness (outcome.map fun _ => .null), x.agenda⟩ else x
  | .finish token outcome =>
    if mayCall x.agenda then ⟨(x.world.finishToken token outcome).1, x.agenda⟩ else x

/-! ## What becomes of jobs -/

/-- What an event brings about. -/
inductive Note where
  | added (ticket : Nat) (job : Job)
  | invoked (ticket : Nat) (job : Job)
  /-- The future of a job is there. -/
  | given (ticket : Nat) (outcome : Outcome)
  | told (outcome : Outcome)
  | disposed
  | finished (token : String) (outcome : Outcome)

def note? (x : Exchange) : Event → Option Note
  | .proceed =>
    match x.agenda with
    | .invoke j p :: _ => some (.invoked p j)
    | _ => none
  | .poll t =>
    if x.agenda.isEmpty then
      match x.world.tasks.get? t with
      | some (.await f (.resolve p)) => (x.world.look f).2.2.map fun r => .given p (outcomeOf r)
      | some (.await f (.gate _)) => (x.world.look f).2.2.map fun r => .told (outcomeOf r)
      | _ => none
    else none
  | .add s => if mayCall x.agenda then some (.added x.world.promises.size (job s)) else none
  | .dispose => if mayCall x.agenda then some .disposed else none
  | .finish token o => if mayCall x.agenda then some (.finished token o) else none
  | _ => none

def refusal? : GatePhase → Option Fault
  | .failed e => some e
  | .disposed => some .jobSkipped
  | _ => none

/-- What has become of the jobs of a gate. -/
structure Account where
  phase : GatePhase := .waiting
  /-- The jobs, each with its ticket. -/
  added : List (Nat × Job) := []
  /-- The jobs that wait. -/
  queue : List Nat := []
  ran : List Nat := []
  away : List (Nat × Fault) := []
  /-- What the futures of jobs came to. -/
  given : List (Nat × Outcome) := []
  /-- What the rejection handler is called with. -/
  rejections : List Fault := []
  /-- What tokens were finished with. -/
  finished : List (String × Outcome) := []

namespace Account

abbrev tickets (a : Account) : List Nat := a.added.map Prod.fst

/-- An outcome is that of the job with a ticket. -/
def Due (a : Account) (p : Nat) (o : Outcome) : Prop := ∃ s, (p, job s) ∈ a.added ∧ s.Yields a.finished o

def shut (a : Account) (phase : GatePhase) (fault : Fault) : Account :=
  { a with phase, queue := [], away := a.away ++ a.queue.map (·, fault) }

def after (a : Account) : Note → Account
  | .added p j =>
    match refusal? a.phase with
    | some e => { a with added := a.added ++ [(p, j)], away := a.away ++ [(p, e)] }
    | none => { a with added := a.added ++ [(p, j)], queue := a.queue ++ [p] }
  | .invoked p _ => { a with queue := a.queue.erase p, ran := a.ran ++ [p] }
  | .given p o => { a with given := a.given ++ [(p, o)] }
  | .told o =>
    match a.phase, o with
    | .waiting, .ok _ => { a with phase := .ready }
    | .waiting, .error e => { a.shut (.failed e) e with rejections := a.rejections ++ [e] }
    | _, _ => a
  | .disposed => if a.phase = .disposed then a else a.shut .disposed .jobSkipped
  | .finished token o => { a with finished := a.finished ++ [(token, o)] }

/-- What holds of an account. -/
structure Valid (a : Account) : Prop where
  order : a.tickets = a.ran ++ a.away.map Prod.fst ++ a.queue
  nodup : a.tickets.Nodup
  shut : ∀ e, refusal? a.phase = some e → a.queue = []
  going : refusal? a.phase = none → a.away = []
  given : ∀ r ∈ a.given, r.1 ∈ a.ran ∧ a.Due r.1 r.2
  once : a.rejections.length ≤ 1 ∧ (a.phase = .waiting → a.rejections = [])

/-- A note that an account can take in: tickets are new, jobs run one after the other while the gate is open,
and only what ran has an outcome, that of its job. -/
def Accepts (a : Account) : Note → Prop
  | .added p _ => p ∉ a.tickets
  | .invoked p _ => a.phase = .ready ∧ ∃ queue, a.queue = p :: queue
  | .given p o => p ∈ a.ran ∧ a.Due p o
  | _ => True

variable {a : Account}

theorem Due.mono {a' : Account} {p : Nat} {o : Outcome} (h : a.Due p o) (added : a.added ⊆ a'.added)
    (finished : a.finished ⊆ a'.finished) : a'.Due p o := by
  obtain ⟨s, hs, yields⟩ := h
  exact ⟨s, added hs, yields.mono finished⟩

theorem Valid.shuts (h : a.Valid) {phase : GatePhase} {e : Fault} (refuses : refusal? phase = some e)
    {rs : List Fault} (once : rs.length ≤ 1) : Valid { a.shut phase e with rejections := rs } where
  order := by
    have tickets : (a.queue.map (·, e)).map Prod.fst = a.queue := by simp [Function.comp_def]
    show a.tickets = a.ran ++ (a.away ++ a.queue.map (·, e)).map Prod.fst ++ []
    rw [h.order, List.map_append, tickets, List.append_nil, List.append_assoc]
  nodup := h.nodup
  shut _ _ := rfl
  going none := absurd (refuses.symm.trans none) nofun
  given := h.given
  once := ⟨once, fun waiting => absurd (waiting ▸ refuses : refusal? .waiting = some e) nofun⟩

theorem Valid.after (h : a.Valid) {n : Note} (ok : a.Accepts n) : (a.after n).Valid := by
  cases n with
  | added p j =>
    have tickets : (a.added ++ [(p, j)]).map Prod.fst = a.tickets ++ [p] := List.map_append
    have nodup : (a.added ++ [(p, j)]).map Prod.fst |>.Nodup := tickets ▸ List.nodup_append.mpr
      ⟨h.nodup, List.nodup_singleton p, fun _ hq r hr same => ok (List.mem_singleton.mp hr ▸ same ▸ hq)⟩
    have given : ∀ r ∈ a.given, r.1 ∈ a.ran ∧ ∀ a' : Account, a'.added = a.added ++ [(p, j)] →
        a'.finished = a.finished → a'.Due r.1 r.2 := fun r hr =>
      ⟨(h.given r hr).1, fun a' added finished => (h.given r hr).2.mono
        (added ▸ List.subset_append_left ..) (finished ▸ List.Subset.refl _)⟩
    dsimp only [Account.after]
    cases refuses : refusal? a.phase with
    | some e =>
      have order : (a.added ++ [(p, j)]).map Prod.fst =
          a.ran ++ (a.away ++ [(p, e)]).map Prod.fst ++ a.queue := by
        rw [tickets, h.order, h.shut e refuses]
        simp
      exact { h with
        order, nodup, going := fun none => absurd (refuses.symm.trans none) nofun
        given := fun r hr => (given r hr).imp_right fun due => due _ rfl rfl }
    | none =>
      have order : (a.added ++ [(p, j)]).map Prod.fst = a.ran ++ a.away.map Prod.fst ++ (a.queue ++ [p]) := by
        rw [tickets, h.order, List.append_assoc]
      exact { h with
        order, nodup, shut := fun e he => absurd (refuses.symm.trans he) nofun
        given := fun r hr => (given r hr).imp_right fun due => due _ rfl rfl }
  | invoked p =>
    obtain ⟨ready, _, hq⟩ := ok
    have going : refusal? a.phase = none := by rw [ready]; rfl
    have order : a.tickets = a.ran ++ [p] ++ a.away.map Prod.fst ++ a.queue.erase p := by
      rw [h.order, h.going going, hq]
      simp
    exact { h with
      order, shut := fun e he => absurd (going.symm.trans he) nofun
      given := fun r hr => (h.given r hr).imp_left (List.mem_append_left _) }
  | given p _ =>
    refine { h with given := fun r hr => ?_ }
    rcases List.mem_append.mp hr with hr | hr
    · exact h.given r hr
    · rw [List.mem_singleton.mp hr]
      exact ok
  | told =>
    dsimp only [Account.after]
    split
    · next waiting =>
      exact { h with
        shut := nofun, going := fun _ => h.going (by rw [waiting]; rfl)
        once := ⟨h.once.1, nofun⟩ }
    · next waiting => exact h.shuts rfl (by rw [h.once.2 waiting]; exact Nat.le_refl 1)
    · exact h
  | disposed =>
    dsimp only [Account.after]
    split
    · exact h
    · exact h.shuts rfl h.once.1
  | finished =>
    exact { h with
      given := fun r hr => (h.given r hr).imp_right fun due =>
        due.mono (List.Subset.refl _) (List.subset_append_left ..) }

end Account

/-! ## What matters of a world -/

structure Scene where
  cell : GateCell
  agenda : List Action
  promises : Table Promise
  waiting : List (String × Nat)
  tasks : Table Task
  /-- What the rejection handler was called with. -/
  rejections : List Fault

def letIn? : Action → Option (Job × Nat)
  | .invoke j p => some (j, p)
  | _ => none

def rejection? (l : Logged) : Option Fault :=
  match l.event with
  | .rejected _ e => some e
  | _ => none

def scene (cell : GateCell) (x : Exchange) : Scene where
  cell := cell
  agenda := x.agenda
  promises := x.world.promises
  waiting := x.world.waiting
  tasks := x.world.tasks
  rejections := x.world.events.filterMap rejection?

namespace Scene

variable (v : Scene)

abbrev core : Deferred Job Nat := v.cell.core

/-- The jobs that wait, each with its ticket. -/
def jobs : List (Job × Nat) := v.agenda.filterMap letIn? ++ v.core.queue

def others : List Nat := readiness :: v.waiting.map Prod.snd

end Scene

/-- How far the gate has come with letting jobs through. -/
inductive Stage : List Action → Deferred Job Nat → Prop
  | idle {d} (free : d.flushing = false) (done : d.phase = .ready → d.queue = []) : Stage [] d
  | toFlush {d} (free : d.flushing = false) : Stage [.flush gate] d
  | flushing {d} (taken : d.flushing = true) : Stage [.dispatchNext gate] d
  | letIn {d s p} (taken : d.flushing = true) (isOpen : d.phase = .ready) :
      Stage [.invoke (job s) p, .dispatchNext gate] d
  | running {d s p} (taken : d.flushing = true) : Stage [.spawn (aftermath s p), .dispatchNext gate] d
  | nested {d s p} (taken : d.flushing = true) :
      Stage [.flush gate, .spawn (aftermath s p), .dispatchNext gate] d

/-- Whoever calls does so when the gate is done, or from inside the job that runs. -/
theorem Stage.calls {l : List Action} {d : Deferred Job Nat} (h : Stage l d) (calls : mayCall l = true) :
    (l = [] ∧ d.flushing = false ∧ (d.phase = .ready → d.queue = [])) ∨
      ∃ s p, l = [.spawn (aftermath s p), .dispatchNext gate] ∧ d.flushing = true := by
  cases h with
  | idle free done => exact .inl ⟨rfl, free, done⟩
  | running taken => exact .inr ⟨_, _, rfl, taken⟩
  | _ => exact absurd calls nofun

theorem Stage.noneLetIn {l : List Action} {d : Deferred Job Nat} (h : Stage l d) (calls : mayCall l = true) :
    l.filterMap letIn? = [] := by
  obtain ⟨rfl, -⟩ | ⟨_, _, rfl, -⟩ := h.calls calls <;> rfl

/-- The future of a job, or what it becomes. -/
abbrev OfJob (a : Account) (ps : Table Promise) (wt : List (String × Nat)) (s : Script) (f : Future) : Prop :=
  s.Pursues (readiness :: a.tickets) a.finished ps wt f

/-- A task is done, or it waits for the future of a job that ran. -/
def Pursued (a : Account) (ps : Table Promise) (wt : List (String × Nat)) (task : Task) : Prop :=
  task = .finished ∨ ∃ f p s, task = .await f (.resolve p) ∧ p ∈ a.ran ∧ (p, job s) ∈ a.added ∧
    OfJob a ps wt s f

theorem Pursued.mono {a a' : Account} {ps ps' : Table Promise} {wt wt' : List (String × Nat)} {task : Task}
    (h : Pursued a ps wt task) (ran : a.ran ⊆ a'.ran) (added : a.added ⊆ a'.added)
    (jobs : ∀ {s f}, OfJob a ps wt s f → OfJob a' ps' wt' s f) : Pursued a' ps' wt' task :=
  h.imp_right fun ⟨f, p, s, same, hp, hs, ofJob⟩ => ⟨f, p, s, same, ran hp, added hs, jobs ofJob⟩

/-- A world is as an account has it. -/
structure Fits (a : Account) (v : Scene) : Prop where
  valid : a.Valid
  live : v.cell.live = true
  handler : v.core.phase = .waiting → v.cell.onRejected = some (.scripted "gate" [])
  stage : Stage v.agenda v.core
  jobs : ∀ e ∈ v.jobs, ∃ s, e.1 = job s ∧ (e.2, e.1) ∈ a.added
  vigil : v.tasks.get? watcher = some watch ∧ (v.core.phase = .waiting ∨ v.core.phase = .disposed) ∨
    v.tasks.get? watcher = some .finished ∧ v.core.phase ≠ .waiting
  tasks : ∀ t task, t ≠ watcher → v.tasks.get? t = some task → Pursued a v.promises v.waiting task
  spawns : ∀ s p, .spawn (aftermath s p) ∈ v.agenda → p ∈ a.ran ∧ (p, job s) ∈ a.added
  phase : v.core.phase = a.phase
  tickets : v.jobs.map Prod.snd = a.queue
  small : ∀ p ∈ a.tickets, p < v.promises.size
  others : ∀ p ∈ v.others, p < v.promises.size ∧ p ∉ a.tickets
  queue : ∀ p ∈ a.queue, v.promises.get? p = some { fallback := .error .jobSkipped }
  away : ∀ r ∈ a.away, outcomeIn v.promises r.1 = some (.error r.2)
  ran : ∀ p ∈ a.ran, outcomeIn v.promises p = a.given.lookup p
  awaited : ∀ p ∈ a.ran, outcomeIn v.promises p = none → (∃ s, .spawn (aftermath s p) ∈ v.agenda) ∨
    ∃ t f, v.tasks.get? t = some (.await f (.resolve p))
  rejections : v.rejections = a.rejections

/-- A task ends. -/
theorem task_ends {ts : Table Task} {t : Nat} {task : Task} (there : ts.get? t = some task) (t' : Nat) :
    (ts.modify t fun _ => .finished).get? t' = if t = t' then some .finished else ts.get? t' :=
  Table.get?_modify_of_some there _ t'

namespace Fits

variable {a : Account} {v : Scene} (h : Fits a v)
include h

variable {p : Nat}

theorem mem_tickets : p ∈ a.tickets ↔ p ∈ a.ran ∨ p ∈ a.away.map Prod.fst ∨ p ∈ a.queue := by
  rw [h.valid.order, List.mem_append, List.mem_append, or_assoc]

/-- A job that ran does not wait, and was not turned away. -/
theorem apart (ran : p ∈ a.ran) : p ∉ a.away.map Prod.fst ∧ p ∉ a.queue := by
  grind [h.valid.nodup, h.valid.order]

theorem unkept (hp : p ∈ a.queue) : outcomeIn v.promises p = none :=
  outcomeIn_of_get? (h.queue p hp)

variable {t : Nat} {f : Future}

theorem watcher_ne (waits : v.tasks.get? t = some (.await f (.resolve p))) :
    t ≠ watcher := by
  rintro rfl
  rcases h.vigil with ⟨watch, -⟩ | ⟨gone, -⟩
  · cases watch.symm.trans waits
  · cases gone.symm.trans waits

theorem of_waits (waits : v.tasks.get? t = some (.await f (.resolve p))) :
    p ∈ a.ran ∧ ∃ s, (p, job s) ∈ a.added ∧ OfJob a v.promises v.waiting s f := by
  rcases h.tasks t _ (h.watcher_ne waits) waits with gone | ⟨_, _, s, same, ran, added, ofJob⟩
  · exact absurd gone nofun
  · cases same
    exact ⟨ran, s, added, ofJob⟩

variable {ps : Table Promise}

theorem same_outcomes (same : ∀ p ∈ a.tickets, ps.get? p = v.promises.get? p) :
    (∀ p ∈ a.queue, ps.get? p = some { fallback := .error .jobSkipped }) ∧
      (∀ r ∈ a.away, outcomeIn ps r.1 = some (.error r.2)) ∧
      ∀ p ∈ a.ran, outcomeIn ps p = outcomeIn v.promises p := by
  have outcome : ∀ p ∈ a.tickets, outcomeIn ps p = outcomeIn v.promises p := fun p hp =>
    outcomeIn_congr (same p hp)
  refine ⟨fun p hp => ?_, fun r hr => ?_, fun p hp => outcome p (h.mem_tickets.mpr (.inl hp))⟩
  · rw [same p (h.mem_tickets.mpr (.inr (.inr hp)))]
    exact h.queue p hp
  · rw [outcome r.1 (h.mem_tickets.mpr (.inr (.inl (List.mem_map_of_mem hr))))]
    exact h.away r hr

/-! ## What changes nothing about jobs -/

/-- Promises that are no tickets are kept. -/
theorem aside {wt : List (String × Nat)} {finished : List (String × Outcome)} (valid : Account.Valid { a with finished })
    (size : ps.size = v.promises.size) (same : ∀ p, p ∉ v.others → ps.get? p = v.promises.get? p)
    (fewer : wt ⊆ v.waiting) (jobs : ∀ {s f}, OfJob a v.promises v.waiting s f → OfJob { a with finished } ps wt s f) :
    Fits { a with finished } { v with promises := ps, waiting := wt } := by
  have tickets : ∀ p ∈ a.tickets, ps.get? p = v.promises.get? p := fun p hp =>
    same p fun other => (h.others p other).2 hp
  obtain ⟨queue, away, ran⟩ := h.same_outcomes tickets
  refine { h with valid, tasks := ?_, small := ?_, others := ?_, queue, away, ran := ?_, awaited := ?_ }
  · exact fun t task other ht =>
      (h.tasks t task other ht).mono (List.Subset.refl _) (List.Subset.refl _) jobs
  · exact fun p hp => size ▸ h.small p hp
  · intro p hp
    have other : p ∈ v.others := by
      rcases List.mem_cons.mp hp with rfl | hp
      · exact .head _
      · exact .tail _ (List.map_subset _ fewer hp)
    exact ⟨size ▸ (h.others p other).1, (h.others p other).2⟩
  · exact fun p hp => (ran p hp).trans (h.ran p hp)
  · exact fun p hp none => h.awaited p hp ((ran p hp).symm.trans none)

variable {l : List Action}

/-- The gate goes on with letting jobs through. -/
theorem arranged {d : Deferred Job Nat} (phase : d.phase = v.core.phase) (stage : Stage l d)
    (jobs : l.filterMap letIn? ++ d.queue = v.jobs) (spawns : ∀ task, .spawn task ∈ l ↔ .spawn task ∈ v.agenda) :
    Fits a { v with cell := { v.cell with core := d }, agenda := l } where
  __ := h
  handler waiting := h.handler (phase ▸ waiting)
  stage := stage
  jobs e he := h.jobs e (jobs ▸ he)
  vigil := by rw [show ({ v with cell := { v.cell with core := d }, agenda := l } : Scene).core.phase = _ from phase]; exact h.vigil
  spawns s p hp := h.spawns s p ((spawns _).mp hp)
  phase := phase.trans h.phase
  tickets := (congrArg (List.map Prod.snd) jobs).trans h.tickets
  awaited p hp none := (h.awaited p hp none).imp_left fun ⟨s, hs⟩ => ⟨s, (spawns _).mpr hs⟩

variable {s : Script}

/-- A task begins to wait for the future of a job. -/
theorem spawned (first : v.agenda = .spawn (aftermath s p) :: l)
    (stage : Stage l v.core) : Fits a { v with tasks := v.tasks.push (aftermath s p), agenda := l } := by
  have later : ∀ b ∈ l, b ∈ v.agenda := fun b hb => first ▸ .tail _ hb
  have old : ∀ {t task}, v.tasks.get? t = some task → (v.tasks.push (aftermath s p)).get? t = some task :=
    fun ht => (Table.get?_push_of_lt (Table.lt_size_of_get? ht) _).trans ht
  have jobs : l.filterMap letIn? ++ v.core.queue = v.jobs := by
    rw [Scene.jobs, first]
    rfl
  refine { h with
    stage := stage, jobs := fun e he => h.jobs e (jobs ▸ he), vigil := ?_, tasks := ?_, spawns := ?_
    tickets := (congrArg (List.map Prod.snd) jobs).trans h.tickets, awaited := ?_ }
  · exact h.vigil.imp (And.imp_left old) (And.imp_left old)
  · intro t task other ht
    rw [Table.get?_push] at ht
    split at ht
    · obtain rfl := Option.some.inj ht
      obtain ⟨ran, added⟩ := h.spawns s p (first ▸ (.head _))
      exact .inr ⟨_, _, s, rfl, ran, added, .fresh⟩
    · exact h.tasks t task other ht
  · exact fun s' p' hp => h.spawns s' p' (later _ hp)
  · intro p' hp none
    rcases h.awaited p' hp none with ⟨s', hs⟩ | ⟨t, f, ht⟩
    · rcases List.mem_cons.mp (first ▸ hs) with same | hs
      · cases same
        exact .inr ⟨_, _, Table.get?_push_size ..⟩
      · exact .inl ⟨s', hs⟩
    · exact .inr ⟨t, f, old ht⟩

/-- A task waits on, for what a job has begun. -/
theorem waited {f' : Future} {wt : List (String × Nat)}
    (waits : v.tasks.get? t = some (.await f (.resolve p))) (added : (p, job s) ∈ a.added)
    (ofJob : OfJob a ps wt s f')
    (begun : ps = v.promises ∧ wt = v.waiting ∨
      ∃ c token, ps = v.promises.push c ∧ wt = v.waiting ++ [(token, v.promises.size)]) :
    Fits a { v with
      promises := ps, waiting := wt, tasks := v.tasks.modify t fun _ => .await f' (.resolve p) } := by
  have same : ∀ p ∈ a.tickets, ps.get? p = v.promises.get? p := fun p hp => by
    rcases begun with ⟨rfl, -⟩ | ⟨c, token, rfl, -⟩
    · rfl
    · exact Table.get?_push_of_lt (h.small p hp) c
  obtain ⟨queue, away, ran⟩ := h.same_outcomes same
  have task : ∀ t', (v.tasks.modify t fun _ => .await f' (.resolve p)).get? t' =
      if t = t' then some (.await f' (.resolve p)) else v.tasks.get? t' :=
    Table.get?_modify_of_some waits _
  have larger : v.promises.size ≤ ps.size := by
    rcases begun with ⟨rfl, -⟩ | ⟨c, token, rfl, -⟩ <;> simp
  have others : ∀ {s' f''}, OfJob a v.promises v.waiting s' f'' →
      OfJob a ps wt s' f'' := fun ofJob' => by
    refine ofJob'.mono (fun _ _ => id) larger (fun q small token => ?_) fun q small _ => ?_
    · rcases begun with ⟨-, rfl⟩ | ⟨_, _, -, rfl⟩
      · rfl
      · simp [Nat.ne_of_lt small]
    · rcases begun with ⟨rfl, -⟩ | ⟨c, _, rfl, -⟩
      · rfl
      · exact outcomeIn_congr (Table.get?_push_of_lt small c)
  refine { h with vigil := ?_, tasks := ?_, small := ?_, others := ?_, queue, away, ran := ?_, awaited := ?_ }
  · grind [h.watcher_ne, h.vigil]
  · intro t' task' other ht
    rw [task] at ht
    split at ht
    · exact .inr ⟨f', p, s, (Option.some.inj ht).symm, (h.of_waits waits).1, added, ofJob⟩
    · exact (h.tasks t' task' other ht).mono (List.Subset.refl _) (List.Subset.refl _) others
  · exact fun p hp => Nat.lt_of_lt_of_le (h.small p hp) larger
  · grind [h.others, Scene.others]
  · exact fun p hp => (ran p hp).trans (h.ran p hp)
  · grind [h.awaited]

/-- The task that waits for readiness ends: its gate is open, or was closed before. -/
theorem unwatched (cell : GateCell) (waits : v.tasks.get? watcher = some watch)
    (idle : v.agenda = []) (live : cell.live = true) (queue : cell.core.queue = v.core.queue)
    (phase : cell.core.phase ≠ .waiting) (stage : Stage l cell.core) (flush : l = [] ∨ l = [.flush gate])
    {n : Note} (told : a.after n = { a with phase := cell.core.phase }) (ok : a.Accepts n) :
    Fits (a.after n) { v with cell, tasks := v.tasks.modify watcher fun _ => .finished, agenda := l } := by
  have task := task_ends waits
  have spawns : ∀ task, Action.spawn task ∉ l := by
    rcases flush with rfl | rfl <;> simp
  have valid := h.valid.after ok
  rw [told] at valid ⊢
  have jobs : l.filterMap letIn? ++ cell.core.queue = v.jobs := by
    rw [Scene.jobs, idle]
    rcases flush with rfl | rfl <;> simp [letIn?, queue]
  refine { h with
    valid, live, handler := fun waiting => absurd waiting phase, stage
    vigil := .inr ⟨(task _).trans (if_pos rfl), phase⟩, jobs := fun e he => h.jobs e (jobs ▸ he), tasks := ?_
    spawns := fun s p hp => absurd hp (spawns _), phase := rfl
    tickets := (congrArg (List.map Prod.snd) jobs).trans h.tickets, awaited := ?_ }
  · intro t task' other ht
    rw [task, if_neg (Ne.symm other)] at ht
    exact (h.tasks t task' other ht).mono (List.Subset.refl _) (List.Subset.refl _) id
  · intro p hp none
    rcases h.awaited p hp none with ⟨s, hs⟩ | ⟨t, f, ht⟩
    · exact absurd (idle ▸ hs) List.not_mem_nil
    · exact .inr ⟨t, f, (task t).trans ((if_neg (Ne.symm (h.watcher_ne ht))).trans ht)⟩

/-! ## What happens to jobs -/

theorem fresh : v.promises.size ∉ a.tickets := fun added => Nat.lt_irrefl _ (h.small _ added)

/-- A ticket is made. -/
theorem grown (c : Promise) (j : Job) {b : Account} (added : b.added = a.added ++ [(v.promises.size, j)])
    (finished : b.finished = a.finished) :
    (∀ p ∈ b.tickets, p < (v.promises.push c).size) ∧
      (∀ p ∈ v.others, p < (v.promises.push c).size ∧ p ∉ b.tickets) ∧
      a.added ⊆ b.added ∧
      ∀ {s f}, OfJob a v.promises v.waiting s f →
        OfJob b (v.promises.push c) v.waiting s f := by
  have tickets : b.tickets = a.tickets ++ [v.promises.size] := by
    rw [Account.tickets, added, List.map_append]
    rfl
  have size : (v.promises.push c).size = v.promises.size + 1 := Table.size_push ..
  refine ⟨fun p hp => ?_, fun p hp => ?_, added ▸ List.subset_append_left .., fun ofJob => ?_⟩
  · rw [tickets] at hp
    rcases List.mem_append.mp hp with hp | hp
    · exact size ▸ Nat.lt_succ_of_lt (h.small p hp)
    · rw [List.mem_singleton.mp hp]
      exact size ▸ Nat.lt_succ_self _
  · obtain ⟨_, _⟩ := h.others p hp
    grind
  · rw [OfJob, finished, tickets]
    refine ofJob.mono (fun q small hq => ?_) (size ▸ Nat.le_succ _) (fun _ _ _ => Iff.rfl) fun q small _ => ?_
    · rcases List.mem_cons.mp hq with rfl | hq
      · exact .head _
      · exact .tail _ ((List.mem_append.mp hq).resolve_right fun last => Nat.ne_of_lt small (List.mem_singleton.mp last))
    · exact outcomeIn_congr (Table.get?_push_of_lt small c)

/-- A job is added to a gate that still lets jobs through, now or later. -/
theorem queued {more : List Action} (calls : mayCall v.agenda = true)
    (going : v.core.phase = .waiting ∧ more = [] ∨ v.core.phase = .ready ∧ more = [.flush gate]) :
    Fits (a.after (.added v.promises.size (job s))) { v with
      cell := { v.cell with core := v.core.queued (job s) v.promises.size }
      promises := v.promises.push { fallback := .error .jobSkipped }
      agenda := more ++ v.agenda } := by
  obtain ⟨queue, away, ran⟩ := h.same_outcomes fun p hp =>
    Table.get?_push_of_lt (h.small p hp) { fallback := .error .jobSkipped }
  have valid := h.valid.after (n := .added v.promises.size (job s)) h.fresh
  have eq : a.after (.added v.promises.size (job s)) =
      { a with added := a.added ++ [(v.promises.size, job s)], queue := a.queue ++ [v.promises.size] } := by
    unfold Account.after
    rw [← h.phase]
    rcases going with ⟨phase, -⟩ | ⟨phase, -⟩ <;> rw [phase] <;> rfl
  rw [eq] at valid ⊢
  have spawns : ∀ task, Action.spawn task ∈ more ++ v.agenda ↔ .spawn task ∈ v.agenda := fun task => by
    rcases going with ⟨-, rfl⟩ | ⟨-, rfl⟩ <;> simp
  have jobs : (more ++ v.agenda).filterMap letIn? ++ (v.core.queued (job s) v.promises.size).queue =
      v.jobs ++ [(job s, v.promises.size)] := by
    have noneLetIn : more.filterMap letIn? = [] := by
      rcases going with ⟨-, rfl⟩ | ⟨-, rfl⟩ <;> rfl
    rw [List.filterMap_append, noneLetIn]
    exact (List.append_assoc ..).symm
  obtain ⟨small, others, added, ofJob⟩ := h.grown { fallback := .error .jobSkipped } (job s)
    (b := { a with added := a.added ++ [(v.promises.size, job s)], queue := a.queue ++ [v.promises.size] }) rfl rfl
  refine { h with
    valid, stage := ?_, jobs := ?_
    tasks := fun t task other ht => (h.tasks t task other ht).mono (List.Subset.refl _) added ofJob
    spawns := fun s' p hp => (h.spawns s' p ((spawns _).mp hp)).imp_right fun mem => added mem, tickets := ?_
    small, others, queue := ?_, away, ran := fun p hp => (ran p hp).trans (h.ran p hp)
    awaited := fun p hp none => (h.awaited p hp ((ran p hp).symm.trans none)).imp_left fun ⟨s', hs⟩ =>
      ⟨s', (spawns _).mpr hs⟩ }
  · obtain ⟨idle, free, -⟩ | ⟨s', p, agenda, taken⟩ := h.stage.calls calls
    · rw [idle]
      rcases going with ⟨waiting, rfl⟩ | ⟨-, rfl⟩
      · exact .idle free fun ready => absurd (waiting.symm.trans ready) nofun
      · exact .toFlush free
    · rw [agenda]
      rcases going with ⟨-, rfl⟩ | ⟨-, rfl⟩
      · exact .running taken
      · exact .nested taken
  · intro e he
    rcases List.mem_append.mp (show e ∈ v.jobs ++ [(job s, v.promises.size)] from jobs ▸ he) with he | he
    · exact (h.jobs e he).imp fun _ => And.imp_right fun mem => added mem
    · obtain rfl := List.mem_singleton.mp he
      exact ⟨s, rfl, List.mem_append_right _ (.head _)⟩
  · refine (congrArg (List.map Prod.snd) jobs).trans ?_
    rw [List.map_append, h.tickets]
    rfl
  · grind

/-- A job is added to a gate that lets nobody through any more. -/
theorem refused {e : Fault} (refuses : refusal? v.core.phase = some e) :
    Fits (a.after (.added v.promises.size (job s))) { v with
      promises := v.promises.push { fallback := .error .jobSkipped, outcome := some (.error e) } } := by
  obtain ⟨queue, away, ran⟩ := h.same_outcomes fun p hp =>
    Table.get?_push_of_lt (h.small p hp) { fallback := .error .jobSkipped, outcome := some (.error e) }
  have valid := h.valid.after (n := .added v.promises.size (job s)) h.fresh
  have eq : a.after (.added v.promises.size (job s)) =
      { a with added := a.added ++ [(v.promises.size, job s)], away := a.away ++ [(v.promises.size, e)] } := by
    unfold Account.after
    rw [← h.phase, refuses]
  rw [eq] at valid ⊢
  obtain ⟨small, others, added, ofJob⟩ := h.grown { fallback := .error .jobSkipped, outcome := some (.error e) } (job s)
    (b := { a with added := a.added ++ [(v.promises.size, job s)], away := a.away ++ [(v.promises.size, e)] }) rfl rfl
  refine { h with
    valid, jobs := fun e he => (h.jobs e he).imp fun _ => And.imp_right fun mem => added mem
    tasks := fun t task other ht => (h.tasks t task other ht).mono (List.Subset.refl _) added ofJob
    spawns := fun s p hp => (h.spawns s p hp).imp_right fun mem => added mem, small, others, queue, away := ?_
    ran := fun p hp => (ran p hp).trans (h.ran p hp)
    awaited := fun p hp none => h.awaited p hp ((ran p hp).symm.trans none) }
  · grind [outcomeIn]

/-- All jobs that wait are turned away. -/
theorem shut (phase : GatePhase) {e : Fault} (f : Promise → Promise) (ts : Table Task) (rs : List Fault)
    (calls : mayCall v.agenda = true) (refuses : refusal? phase = some e) (once : (a.rejections ++ rs).length ≤ 1)
    (settles : f { fallback := .error .jobSkipped } = { fallback := .error .jobSkipped, outcome := some (.error e) })
    (twice : ∀ c, f (f c) = f c)
    (vigil : ts.get? watcher = some watch ∧ (phase = .waiting ∨ phase = .disposed) ∨
      ts.get? watcher = some .finished ∧ phase ≠ .waiting)
    (tasks : ∀ t, t ≠ watcher → ts.get? t = v.tasks.get? t) :
    Fits { a.shut phase e with rejections := a.rejections ++ rs } { v with
      cell := { v.cell with core := { v.core with phase, queue := [] }, onRejected := none }
      promises := v.promises.modifyAll (v.core.queue.map Prod.snd) f
      tasks := ts
      rejections := v.rejections ++ rs } := by
  have queue : v.core.queue.map Prod.snd = a.queue := by
    rw [← h.tickets, Scene.jobs, h.stage.noneLetIn calls, List.nil_append]
  have others : ∀ p, p ∉ a.queue → outcomeIn (v.promises.modifyAll (v.core.queue.map Prod.snd) f) p =
      outcomeIn v.promises p := fun p hp =>
    outcomeIn_congr (by rw [Table.get?_modifyAll twice, queue, if_neg hp])
  have waiting : phase ≠ .waiting := by
    rintro rfl
    exact absurd refuses nofun
  have jobs : v.agenda.filterMap letIn? ++ [] = [] := by
    rw [h.stage.noneLetIn calls]
    rfl
  refine { h with
    valid := h.valid.shuts refuses once, handler := fun is => absurd is waiting, stage := ?_
    jobs := fun e he => by cases (congrArg (e ∈ ·) jobs).mp he
    vigil, tasks := ?_, phase := rfl
    tickets := congrArg (List.map Prod.snd) jobs
    small := fun p hp => by rw [Table.size_modifyAll]; exact h.small p hp
    others := fun p hp => by rw [Table.size_modifyAll]; exact h.others p hp
    queue := nofun, away := ?_, ran := ?_, awaited := ?_, rejections := congrArg (· ++ rs) h.rejections }
  · obtain ⟨idle, free, -⟩ | ⟨_, p, agenda, taken⟩ := h.stage.calls calls
    · rw [idle]
      exact .idle free fun _ => rfl
    · rw [agenda]
      exact .running taken
  · intro t task other ht
    refine (h.tasks t task other ((tasks t other).symm.trans ht)).mono (List.Subset.refl _) (List.Subset.refl _)
      fun ofJob => ofJob.mono (fun _ _ => id) (Nat.le_of_eq (Table.size_modifyAll ..).symm)
        (fun _ _ _ => Iff.rfl) fun q _ other => ?_
    exact others q fun mem => other (.tail _ (h.mem_tickets.mpr (.inr (.inr mem))))
  · intro _ hr
    rcases List.mem_append.mp hr with hr | hr
    · grind [h.valid.nodup, h.valid.order, h.away]
    · obtain ⟨p, hp, rfl⟩ := List.mem_map.mp hr
      refine outcomeIn_of_get? (c := { fallback := .error .jobSkipped, outcome := some (.error e) }) ?_
      rw [Table.get?_modifyAll twice, queue, if_pos hp, h.queue p hp, Option.map_some, settles]
  · exact fun p hp => (others p (h.apart hp).2).trans (h.ran p hp)
  · intro p hp none
    refine (h.awaited p hp ((others p (h.apart hp).2).symm.trans none)).imp_right fun ⟨t, f, ht⟩ => ⟨t, f, ?_⟩
    exact (tasks t (h.watcher_ne ht)).trans ht

/-- The next job runs. -/
theorem invoked (first : v.agenda = .invoke (job s) p :: l)
    (stage : Stage (.spawn (aftermath s p) :: l) v.core) (ready : v.core.phase = .ready) :
    Fits (a.after (.invoked p (job s))) { v with agenda := .spawn (aftermath s p) :: l } := by
  have jobs : v.jobs = (job s, p) :: (l.filterMap letIn? ++ v.core.queue) := by
    rw [Scene.jobs, first]
    rfl
  have queue : a.queue = p :: (l.filterMap letIn? ++ v.core.queue).map Prod.snd := by
    rw [← h.tickets, jobs]
    rfl
  obtain ⟨_, -, added⟩ := h.jobs (job s, p) (jobs ▸ (.head _))
  have head : p ∈ a.queue := queue ▸ (.head _)
  have notGiven : a.given.lookup p = none := by
    rw [List.lookup_eq_none_iff]
    intro r hr
    simpa using fun same : p = r.1 => (h.apart (same ▸ (h.valid.given r hr).1)).2 head
  have later : ∀ task, .spawn task ∈ v.agenda → Action.spawn task ∈ l := fun task ht => by
    rw [first] at ht
    exact (List.mem_cons.mp ht).resolve_left nofun
  refine { h with
    valid := h.valid.after ⟨h.phase ▸ ready, _, queue⟩, stage, jobs := fun e he => h.jobs e (jobs ▸ .tail _ he)
    tasks := ?_, spawns := ?_, phase := h.phase, tickets := ?_
    small := h.small, others := h.others, queue := fun p' hp => h.queue p' (List.mem_of_mem_erase hp), away := h.away
    ran := ?_, awaited := ?_, rejections := h.rejections }
  · exact fun t task other ht =>
      (h.tasks t task other ht).mono (List.subset_append_left ..) (List.Subset.refl _) id
  · intro s' p' hp
    rcases List.mem_cons.mp hp with same | hp
    · cases same
      exact ⟨List.mem_append_right _ (.head _), added⟩
    · exact (h.spawns s' p' (first ▸ .tail _ hp)).imp_left (List.mem_append_left _)
  · show (l.filterMap letIn? ++ v.core.queue).map Prod.snd = a.queue.erase p
    rw [queue, List.erase_cons_head]
  · intro p' hp
    rcases List.mem_append.mp hp with hp | hp
    · exact h.ran p' hp
    · rw [List.mem_singleton.mp hp]
      exact (h.unkept head).trans notGiven.symm
  · intro p' hp none
    rcases List.mem_append.mp hp with hp | hp
    · exact (h.awaited p' hp none).imp_left fun ⟨s', hs⟩ => ⟨s', .tail _ (later _ hs)⟩
    · rw [List.mem_singleton.mp hp]
      exact .inl ⟨s, .head _⟩

/-- The future of a job is there, and so is the outcome of the job. -/
theorem ended {o : Outcome} (waits : v.tasks.get? t = some (.await f (.resolve p))) (due : a.Due p o) :
    Fits (a.after (.given p o)) { v with
      promises := v.promises.modify p (Promise.keep o), tasks := v.tasks.modify t fun _ => .finished } := by
  obtain ⟨ran, -⟩ := h.of_waits waits
  have ticket : p ∈ a.tickets := h.mem_tickets.mpr (.inl ran)
  have task := task_ends waits
  have others : ∀ p', p' ≠ p → (v.promises.modify p (Promise.keep o)).get? p' = v.promises.get? p' := fun p' ne =>
    Table.get?_modify_of_ne (Ne.symm ne) ..
  obtain ⟨_, _⟩ := Table.get?_isSome_of_lt (h.small p ticket)
  have kept : outcomeIn (v.promises.modify p (Promise.keep o)) p = (outcomeIn v.promises p).or (some o) := by
    grind [outcomeIn, Promise.keep]
  have watch : (v.tasks.modify t fun _ => .finished).get? watcher = v.tasks.get? watcher := by
    rw [task, if_neg (h.watcher_ne waits)]
  refine { h with
    valid := h.valid.after ⟨ran, due⟩, vigil := ?_, tasks := ?_, spawns := h.spawns, phase := h.phase, tickets := h.tickets
    small := fun p hp => by rw [Table.size_modify]; exact h.small p hp
    others := fun p hp => by rw [Table.size_modify]; exact h.others p hp
    queue := ?_, away := ?_, ran := ?_, awaited := ?_, rejections := h.rejections }
  · rw [watch]
    exact h.vigil
  · intro t' task' other ht
    rw [task] at ht
    split at ht
    · exact .inl (Option.some.inj ht).symm
    · refine (h.tasks t' task' other ht).mono (List.Subset.refl _) (List.Subset.refl _) fun ofJob =>
        ofJob.mono (fun _ _ => id) (Nat.le_of_eq (Table.size_modify ..).symm) (fun _ _ _ => Iff.rfl)
          fun q _ other => ?_
      exact outcomeIn_congr (others q fun same => other (.tail _ (same ▸ ticket)))
  · intro p' hp
    rw [others p' fun same => (h.apart ran).2 (same ▸ hp)]
    exact h.queue p' hp
  · intro r hr
    rw [outcomeIn_congr (others r.1 fun same => (h.apart ran).1 (same ▸ List.mem_map_of_mem hr))]
    exact h.away r hr
  · intro p' hp
    show _ = (a.given ++ [(p, o)]).lookup p'
    rw [List.lookup_append, ← h.ran p' hp]
    by_cases same : p' = p
    · subst same
      rw [kept]
      simp
    · rw [outcomeIn_congr (others p' same)]
      simp [List.lookup_cons, beq_false_of_ne same]
  · intro p' hp none
    by_cases same : p' = p
    · subst same
      rw [kept] at none
      simp at none
    · rw [outcomeIn_congr (others p' same)] at none
      obtain done | ⟨t', f', ht⟩ := h.awaited p' hp none
      · exact .inl done
      refine .inr ⟨t', f', ?_⟩
      rw [task, if_neg, ht]
      rintro rfl
      cases waits.symm.trans ht
      exact same rfl

end Fits

end Deferral

end Switchboard
