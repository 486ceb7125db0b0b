import Switchboard.Proofs.Enrolment
import Switchboard.Proofs.Framing
import Switchboard.Proofs.Runs

/-!
# What the server is told of its clients

A registry on a channel takes in handlers and strikes them off as messages say, and each time starts a task
that tells the server. The tasks go on in the order in which they were started. When all have gone on, the
handlers of which the server has been told that they came, but not that they left since, are those of the
messages (`roll`). While the channel is open these are the handlers that the registry knows. Closing the
channel clears the registry and tells the server nothing: it goes on holding every handler that was known.
-/

namespace Switchboard

open Service (callFunction createHandler deleteHandler request request_ne)

open World
open Exchange (enrol roll roll_concat)

namespace Notices

/-! ## The system -/

abbrev line : Nat := 0

/-- What can happen. -/
inductive Event where
  /-- A message to the effect that a handler came is received. -/
  | create (payload : Json)
  /-- A message to the effect that a handler left is received. -/
  | delete (payload : Json)
  | close
  | next

def step (w : World) : Event → World
  | .create payload => drain fuel [.deliver line createHandler payload] w
  | .delete payload => drain fuel [.deliver line deleteHandler payload] w
  | .close => drain fuel [.closeChannel line] w
  | .next => settle 1 w

def opening : World :=
  (newRegistry line 0
    { script := Script.echo
      channels := ({} : Table Channel).push { label := "line", transport := .recorder none }
      backends := ({} : Table Backend).push {} }).1

/-- What the server is told. -/
inductive Notice where
  | created (id : Nat) (name : String)
  | deleted (id : Nat)
deriving DecidableEq

namespace Notice

def task : Notice → Task
  | created id name => .backendCreated 0 id name
  | deleted id => .backendDeleted 0 id

def ofTask? : Task → Option Notice
  | .backendCreated _ id name => some (created id name)
  | .backendDeleted _ id => some (deleted id)
  | _ => none

def apply (b : Backend) : Notice → Backend
  | created id name => b.created id name
  | deleted id => b.deleted id

theorem ofTask?_task (n : Notice) : ofTask? n.task = some n := by cases n <;> rfl

end Notice

abbrev Turn := Runs.Turn World Event

def notice? (t : Turn) : Option Notice :=
  match t.event with
  | .next =>
    if t.before.aborted.isSome then none
    else (t.before.queue.head?.bind t.before.tasks.get?).bind Notice.ofTask?
  | _ => none

def message? (t : Turn) : Option (String × Json) :=
  if t.before.aborted.isSome || !t.before.isOpen line then none
  else
    match t.event with
    | .create payload => some (createHandler, payload)
    | .delete payload => some (deleteHandler, payload)
    | _ => none

def brought (ts : List Turn) : List Notice := ts.filterMap notice?

def heard (ts : List Turn) : List (String × Json) := ts.filterMap message?

def Outstanding (notices : List Notice) (id : Nat) : Prop :=
  ∃ before name after, notices = before ++ .created id name :: after ∧ .deleted id ∉ after

def clientIds (w : World) : List Nat := (w.backends.get? 0).elim [] fun b => b.clients.map Prod.fst

/-! ## Notices -/

theorem not_outstanding_nil (id : Nat) : ¬ Outstanding [] id := by
  rintro ⟨_, _, _, split, -⟩
  simp at split

variable {ns : List Notice} {i id : Nat} {name : String}

theorem outstanding_created :
    Outstanding (ns ++ [.created i name]) id ↔ id = i ∨ Outstanding ns id := by
  constructor
  · rintro ⟨before, name', after, split, told⟩
    obtain ⟨-, ⟨⟩, -⟩ | ⟨after, rfl, rfl⟩ := Runs.split_last split
    · exact .inl rfl
    · exact .inr ⟨before, name', after, rfl, fun h => told (by simp [h])⟩
  · rintro (rfl | ⟨before, name', after, rfl, told⟩)
    · exact ⟨ns, name, [], rfl, List.not_mem_nil⟩
    · exact ⟨before, name', after ++ [.created i name], by simp, by simpa using told⟩

theorem outstanding_deleted :
    Outstanding (ns ++ [.deleted i]) id ↔ id ≠ i ∧ Outstanding ns id := by
  constructor
  · rintro ⟨before, name, after, split, told⟩
    obtain ⟨-, ⟨⟩, -⟩ | ⟨after, rfl, rfl⟩ := Runs.split_last split
    refine ⟨?_, before, name, after, rfl, fun h => told (List.mem_append_left _ h)⟩
    rintro rfl
    exact told (List.mem_append_right _ (.head _))
  · rintro ⟨other, before, name, after, rfl, told⟩
    exact ⟨before, name, after ++ [.deleted i], by simp, by simp [told, other]⟩

theorem mem_setClient {clients : List (Nat × String)} :
    id ∈ (Backend.setClient i name clients).map Prod.fst ↔ id = i ∨ id ∈ clients.map Prod.fst := by
  induction clients with
  | nil => simp [Backend.setClient]
  | cons c _ ih =>
    obtain ⟨_, _⟩ := c
    unfold Backend.setClient
    split
    · rw [List.map_cons, List.mem_cons]
    · split
      · next same => simp [same]
      · simp only [List.map_cons, List.mem_cons, ih]
        tauto

theorem mem_clients_iff (ns : List Notice) (id : Nat) :
    id ∈ (ns.foldl Notice.apply {}).clients.map Prod.fst ↔ Outstanding ns id := by
  induction ns using List.reverseRecOn with
  | nil => simp [not_outstanding_nil]
  | append_singleton _ n ih =>
    rw [List.foldl_append, List.foldl_cons, List.foldl_nil]
    cases n with
    | created => exact mem_setClient.trans ((or_congr_right ih).trans outstanding_created.symm)
    | deleted =>
      rw [outstanding_deleted, ← ih]
      simp only [Notice.apply, Backend.deleted, List.mem_map, List.mem_filter, bne_iff_ne, ne_eq]
      constructor
      · rintro ⟨c, ⟨hc, other⟩, rfl⟩
        exact ⟨other, c, hc, rfl⟩
      · rintro ⟨other, c, hc, rfl⟩
        exact ⟨c, ⟨hc, other⟩, rfl⟩

/-! ## Tasks that wait for their turn -/

/-- The tasks in the queue bring these notices. -/
structure Lined (queue : List Nat) (tasks : Table Task) (pending : List Notice) : Prop where
  tasks : queue.map tasks.get? = pending.map fun n => some n.task
  nodup : queue.Nodup

section Lined

variable {queue : List Nat} {tasks : Table Task} {pending : List Notice}

variable {t : Nat}

theorem Lined.lt (h : Lined queue tasks pending) (ht : t ∈ queue) : t < tasks.size := by
  have mem := List.mem_map_of_mem (f := tasks.get?) ht
  rw [h.tasks] at mem
  obtain ⟨_, -, eq⟩ := List.mem_map.mp mem
  exact Table.lt_size_of_get? eq.symm

/-- A task that is started comes last. -/
theorem Lined.spawn (h : Lined queue tasks pending) (n : Notice) :
    Lined (queue ++ [tasks.size]) (tasks.push n.task) (pending ++ [n]) where
  tasks := by
    have old : queue.map (tasks.push n.task).get? = queue.map tasks.get? :=
      List.map_congr_left fun t ht => Table.get?_push_of_lt (h.lt ht) _
    simp [old, h.tasks]
  nodup := List.nodup_append.mpr ⟨h.nodup, List.pairwise_singleton _ _, fun t ht _ hu =>
    List.mem_singleton.mp hu ▸ Nat.ne_of_lt (h.lt ht)⟩

theorem Lined.tail {n : Notice} (h : Lined (t :: queue) tasks (n :: pending)) :
    Lined queue (tasks.modify t fun _ => .finished) pending where
  tasks := by
    refine (List.map_congr_left fun _ hu => Table.get?_modify_of_ne ?_ _ _).trans (List.cons.inj h.tasks).2
    rintro rfl
    exact (List.nodup_cons.mp h.nodup).1 hu
  nodup := (List.nodup_cons.mp h.nodup).2

end Lined

/-! ## One event -/

/-- What is known after some turns. -/
structure Paired (ts : List Turn) (w : World) : Prop where
  /-- With the notices that are on their way the server knows what the messages say. -/
  notices : ∃ pending, Lined w.queue w.tasks pending ∧
    ∀ id, Outstanding (brought ts ++ pending) id ↔ id ∈ roll (heard ts)
  backend : w.backends.get? 0 = some ((brought ts).foldl Notice.apply {})
  registry : ∃ cell, w.registries.get? 0 = some cell ∧ cell.live = true ∧ cell.channel = line ∧
    cell.backend = 0 ∧ cell.entries.map Prod.fst = if w.isOpen line then roll (heard ts) else []
  channel : ∃ ch, w.channels.get? line = some ch ∧ ch.transport = .recorder none ∧
    (ch.core.disposed = false → ch.core.services.lookup createHandler = some (.arrivals 0) ∧
      ch.core.services.lookup deleteHandler = some (.departures 0) ∧
      ch.core.hooks = [(0, .registry 0)])
  streams : w.streams = {}
  checkers : w.checkers = {}
  lists : w.lists = {}

theorem Paired.opening : Paired [] opening where
  notices := ⟨[], ⟨rfl, List.nodup_nil⟩, fun _ => by simp [brought, heard, roll, not_outstanding_nil]⟩
  backend := rfl
  registry := ⟨_, rfl, rfl, rfl, rfl, rfl⟩
  channel := ⟨_, rfl, rfl, fun _ => ⟨rfl, rfl, rfl⟩⟩
  streams := rfl
  checkers := rfl
  lists := rfl

section Events

variable {ts ts' : List Turn} {w : World}

/-- A turn in which nothing is said. -/
theorem Paired.silent (h : Paired ts w) {t : Turn} (unbrought : notice? t = none) (unheard : message? t = none) :
    Paired (ts ++ [t]) w := by
  have same : brought (ts ++ [t]) = brought ts := by simp [brought, unbrought]
  have same' : heard (ts ++ [t]) = heard ts := by simp [heard, unheard]
  exact { h with notices := by rw [same, same']; exact h.notices, backend := by rw [same]; exact h.backend
                 registry := by rw [same']; exact h.registry }

/-- A message that does not change the roll, and breaks the protocol. -/
theorem Paired.abort (h : Paired ts w) (scope detail : String) (sameBrought : brought ts' = brought ts)
    (sameRoll : roll (heard ts') = roll (heard ts)) : Paired ts' (w.abort scope detail) := by
  have unchanged : Paired ts' w :=
    { h with notices := by rw [sameBrought, sameRoll]; exact h.notices
             backend := by rw [sameBrought]; exact h.backend, registry := by rw [sameRoll]; exact h.registry }
  unfold World.abort
  split
  · exact unchanged
  · exact ⟨unchanged.notices, unchanged.backend, unchanged.registry, unchanged.channel, unchanged.streams,
      unchanged.checkers, unchanged.lists⟩

variable {v : Json}

theorem Paired.arrive (h : Paired ts w) (isOpen : w.isOpen line = true)
    (sameBrought : brought ts' = brought ts) (more : heard ts' = heard ts ++ [(createHandler, v)]) :
    Paired ts' (w.arrive 0 v) := by
  obtain ⟨cell, registry, live, channel, backend, ids⟩ := h.registry
  obtain ⟨ch, hch, transport, going⟩ := h.channel
  have unclosed : ch.core.disposed = false := by simpa [World.isOpen, hch] using isOpen
  rw [if_pos isOpen] at ids
  have rolled : roll (heard ts') = enrol (roll (heard ts)) (createHandler, v) := by rw [more, roll_concat]
  rw [Exchange.enrol_create, ← ids] at rolled
  unfold World.arrive
  rw [registry]
  dsimp only
  cases hm : Arrival.ofJson? v with
  | none => exact h.abort _ _ sameBrought (by rw [rolled, hm, ids])
  | some a =>
    rw [hm] at rolled
    dsimp only at rolled ⊢
    cases known : Assoc.has a.handler cell.entries with
    | true =>
      rw [if_pos (Assoc.has_eq_true_iff.mp known)] at rolled
      rw [if_pos rfl]
      exact h.abort _ _ sameBrought (by rw [rolled, ids])
    | false =>
      have fresh : a.handler ∉ cell.entries.map Prod.fst := fun mem =>
        (by cases known.symm.trans (Assoc.has_eq_true_iff.mpr mem))
      rw [if_neg fresh] at rolled
      have after : (w.channels.modify cell.channel (registered
          (request (callFunction a.handler)) (.requests w.receivers.size))).get? line =
            some (registered (request (callFunction a.handler))
              (.requests w.receivers.size) ch) := by
        rw [channel, Table.get?_modify_self, hch]
        rfl
      obtain ⟨pending, lined, outstanding⟩ := h.notices
      refine
        { notices := ⟨pending ++ [.created a.handler a.clientName], ?_, fun _ => ?_⟩
          backend := sameBrought ▸ h.backend
          registry := ?_, channel := ⟨_, after, transport, fun _ => ?_⟩
          streams := h.streams, checkers := h.checkers, lists := h.lists }
      · rw [backend]
        exact lined.spawn (.created a.handler a.clientName)
      · rw [sameBrought, ← List.append_assoc, outstanding_created, outstanding, rolled, ids]
        simp [or_comm]
      · refine ⟨{ cell with entries := cell.entries ++ [(a.handler, w.receivers.size)] }, ?_, live, channel,
          backend, ?_⟩
        · show (w.registries.modify 0 _).get? 0 = _
          rw [Table.get?_modify_self, registry]
          rfl
        · rw [if_pos (isOpen_eq_true.mpr ⟨_, after, by simpa [registered] using unclosed⟩), rolled]
          simp
      · obtain ⟨create, delete, hooks⟩ := going unclosed
        have kept : ∀ {name : String}, name.toList.getLast? ≠ some 't' →
            (Assoc.set (request (callFunction a.handler)) (Handler.requests w.receivers.size)
              ch.core.services).lookup name = ch.core.services.lookup name := fun other => by
          rw [Assoc.lookup_set, if_neg (by simpa using (request_ne _ other).symm)]
        simp only [registered, ChannelCore.register, unclosed, Bool.false_eq_true, if_false]
        exact ⟨(kept (by decide)).trans create, (kept (by decide)).trans delete, hooks⟩

variable {ch : Channel}

theorem withdrawn_line (hch : w.channels.get? line = some ch) (v : Nat) :
    ∃ services, (w.withdrawn v).get? line = some { ch with core := { ch.core with services } } ∧
      ∀ name : String, name.toList.getLast? ≠ some 't' →
        services.lookup name = ch.core.services.lookup name := by
  unfold withdrawn
  split
  · next cell _ =>
    split
    · rw [Table.get?_modify]
      split
      · refine ⟨Assoc.erase (request cell.name) ch.core.services, by rw [hch]; rfl, fun name other => ?_⟩
        rw [Assoc.lookup_erase, if_neg (by simpa using (request_ne _ other).symm)]
      · exact ⟨ch.core.services, hch, fun _ _ => rfl⟩
    · exact ⟨ch.core.services, hch, fun _ _ => rfl⟩
  · exact ⟨ch.core.services, hch, fun _ _ => rfl⟩

theorem Paired.depart (h : Paired ts w) (isOpen : w.isOpen line = true)
    (sameBrought : brought ts' = brought ts) (more : heard ts' = heard ts ++ [(deleteHandler, v)]) :
    Paired ts' (w.depart 0 v) := by
  obtain ⟨cell, registry, live, channel, backend, ids⟩ := h.registry
  obtain ⟨ch, hch, transport, going⟩ := h.channel
  have unclosed : ch.core.disposed = false := by simpa [World.isOpen, hch] using isOpen
  rw [if_pos isOpen] at ids
  have rolled : roll (heard ts') = enrol (roll (heard ts)) (deleteHandler, v) := by rw [more, roll_concat]
  rw [Exchange.enrol_delete, ← ids] at rolled
  unfold World.depart
  rw [registry]
  cases hm : Departure.ofJson? v with
  | none => exact h.abort _ _ sameBrought (by rw [rolled, hm, ids])
  | some d =>
    rw [hm] at rolled
    dsimp only at rolled ⊢
    cases hi : cell.entries.lookup d.handler with
    | none =>
      have unknown := Assoc.notMem_of_lookup hi
      rw [List.filter_eq_self.mpr fun id mem => by simpa using fun same : id = d.handler => unknown (same ▸ mem)]
        at rolled
      exact h.abort _ _ sameBrought (rolled.trans ids)
    | some i =>
      obtain ⟨_, after, kept⟩ := withdrawn_line hch i
      obtain ⟨pending, lined, outstanding⟩ := h.notices
      dsimp only
      rw [releaseReceiver_eq]
      refine
        { h with
          notices := ⟨pending ++ [.deleted d.handler], ?_, fun id => ?_⟩
          backend := sameBrought ▸ h.backend
          registry := ?_, channel := ⟨_, after, transport, fun _ => ?_⟩ }
      · rw [backend]
        exact lined.spawn (.deleted d.handler)
      · rw [sameBrought, ← List.append_assoc, outstanding_deleted, outstanding, rolled, ids]
        simp [and_comm]
      · refine ⟨{ cell with entries := Assoc.erase d.handler cell.entries }, ?_, live, channel, backend, ?_⟩
        · show (w.registries.modify 0 _).get? 0 = _
          rw [Table.get?_modify_self, registry]
          rfl
        · have stillOpen : World.isOpen { w with channels := w.withdrawn i } line = true :=
            isOpen_eq_true.mpr ⟨_, after, unclosed⟩
          refine Eq.trans ?_ (if_pos stillOpen).symm
          rw [rolled, List.filter_map]
          rfl
      · obtain ⟨create, delete, hooks⟩ := going unclosed
        exact ⟨(kept _ (by decide)).trans create, (kept _ (by decide)).trans delete, hooks⟩

/-- On a closed channel receivers that go away change nothing. -/
theorem Paired.releaseReceiver (h : Paired ts w) (closed : w.isOpen line = false) (v : Nat) :
    Paired ts (w.releaseReceiver v) ∧ (w.releaseReceiver v).isOpen line = false := by
  obtain ⟨ch, hch, transport, -⟩ := h.channel
  obtain ⟨_, after, -⟩ := withdrawn_line hch v
  have disposed : ch.core.disposed = true := by simpa [World.isOpen, hch] using closed
  have stillClosed : (w.releaseReceiver v).isOpen line = false := by
    rw [releaseReceiver_eq]
    simp [World.isOpen, after, disposed]
  refine ⟨?_, stillClosed⟩
  rw [releaseReceiver_eq] at stillClosed ⊢
  refine
    { h with registry := ?_, channel := ⟨_, after, transport, fun unclosed => by cases disposed.symm.trans unclosed⟩ }
  obtain ⟨cell, registry, live, channel, backend, ids⟩ := h.registry
  exact ⟨cell, registry, live, channel, backend, ids.trans (by rw [closed, stillClosed])⟩

theorem Paired.releaseAll (h : Paired ts w) (closed : w.isOpen line = false) (es : List (Nat × Nat)) :
    Paired ts (es.foldl (fun acc e => acc.releaseReceiver e.2) w) := by
  induction es generalizing w with
  | nil => exact h
  | cons e _ ih =>
    obtain ⟨released, stillClosed⟩ := h.releaseReceiver closed e.2
    exact ih released stillClosed

def shut (ch : Channel) (w : World) : World :=
  { w with channels := w.channels.modify line fun _ =>
    { ch with core := { ch.core with disposed := true, services := [], hooks := [] } } }

theorem step_close (going : w.aborted = none) (hch : w.channels.get? line = some ch)
    (transport : ch.transport = .recorder none) :
    (ch.core.disposed = true → step w .close = w) ∧
    (ch.core.disposed = false → ch.core.hooks = [(0, .registry 0)] →
      (w.registries.get? 0).any (·.live) = true → step w .close = (shut ch w).clearRegistry 0) := by
  have first : w.perform (.closeChannel line) = (w, [.closeCore line]) := by
    show w.closeChannel line = _
    simp only [closeChannel, hch, transport]
  refine ⟨fun disposed => ?_, fun unclosed hooks live => ?_⟩
  · have second : w.perform (.closeCore line) = (w, []) := by
      show w.closeCore line = _
      simp [closeCore, hch, ChannelCore.dispose, disposed]
    calc drain fuel [.closeChannel line] w
        = drain 999999 [.closeCore line] w := drain_step _ going first 999999 []
      _ = drain 999998 [] w := drain_step _ going second 999998 []
  · have second : w.perform (.closeCore line) = (shut ch w, [.runHook (.registry 0)]) := by
      show w.closeCore line = _
      have same : w.channels.modify line (fun c => { c with core :=
          { ch.core with disposed := true, services := [], hooks := [] } }) = (shut ch w).channels :=
        Table.modify_of_some hch rfl
      simp only [closeCore, hch, Option.bind_some, ChannelCore.dispose, unclosed, Bool.false_eq_true,
        if_false, hooks, modifyChannel, same]
      rfl
    have third : (shut ch w).perform (.runHook (.registry 0)) = ((shut ch w).clearRegistry 0, []) := by
      show (shut ch w).runHook (.registry 0) = _
      simp only [runHook, shut, live, if_true]
    calc drain fuel [.closeChannel line] w
        = drain 999999 [.closeCore line] w := drain_step _ going first 999999 []
      _ = drain 999998 [.runHook (.registry 0)] (shut ch w) := drain_step _ going second 999998 []
      _ = drain 999997 [] ((shut ch w).clearRegistry 0) := drain_step _ (by exact going) third 999997 []

/-- Closing clears the registry and tells the server nothing. -/
theorem Paired.close (h : Paired ts w) (going : w.aborted = none) : Paired ts (step w .close) := by
  obtain ⟨ch, hch, transport, inUse⟩ := h.channel
  obtain ⟨again, once⟩ := step_close going hch transport
  cases disposed : ch.core.disposed with
  | true => exact (again disposed).symm ▸ h
  | false =>
    obtain ⟨cell, registry, live, channel, backend, -⟩ := h.registry
    rw [once disposed (inUse disposed).2.2 (by simp [registry, live])]
    have after : (shut ch w).channels.get? line =
        some { ch with core := { ch.core with disposed := true, services := [], hooks := [] } } := by
      simp [shut, hch]
    have closed : (shut ch w).isOpen line = false := by simp [World.isOpen, after]
    have cleared : Paired ts { shut ch w with
        registries := w.registries.modify 0 fun c => { c with entries := [] } } :=
      { h with
        registry := ⟨{ cell with entries := [] }, by simp [registry], live, channel, backend,
          (if_neg (by exact Bool.eq_false_iff.mp closed)).symm⟩
        channel := ⟨_, after, transport, by rintro ⟨⟩⟩ }
    have eq : (shut ch w).clearRegistry 0 = cell.entries.foldl (fun acc e => acc.releaseReceiver e.2)
        { shut ch w with registries := w.registries.modify 0 fun c => { c with entries := [] } } := by
      unfold clearRegistry
      rw [show (shut ch w).registries.get? 0 = some cell from registry]
      rfl
    rw [eq]
    exact cleared.releaseAll closed cell.entries

theorem reap_eq_self (streams : w.streams = {}) (checkers : w.checkers = {}) (lists : w.lists = {}) :
    w.reap = w := by
  have noStreams : w.reapStreams = w := by rw [reapStreams, streams]; rfl
  have noCheckers : w.reapCheckers = w := by rw [reapCheckers, checkers]; rfl
  have noLists : w.reapLists = w := by rw [reapLists, lists]; rfl
  rw [reap, noStreams, noCheckers, noLists]

/-- The next notice is brought. -/
theorem Paired.next (h : Paired ts w) (going : w.aborted = none) :
    Paired (ts ++ [⟨w, .next, step w .next⟩]) (step w .next) := by
  obtain ⟨pending, lined, outstanding⟩ := h.notices
  have unheard : heard (ts ++ [⟨w, .next, step w .next⟩]) = heard ts := by
    simp [heard, message?]
  cases queue : w.queue with
  | nil =>
    have idle : step w .next = w := by simp only [step, settle, queue]
    rw [idle]
    refine h.silent ?_ (by simp [message?])
    simp [notice?, going, queue]
  | cons t rest =>
    rw [queue] at lined
    cases pending with
    | nil => cases lined.tasks
    | cons n pending =>
      have task : w.tasks.get? t = some n.task := (List.cons.inj lined.tasks).1
      have more : brought (ts ++ [⟨w, .next, step w .next⟩]) = brought ts ++ [n] := by
        simp [brought, notice?, going, queue, task, Notice.ofTask?_task]
      have polled : ({ w with queue := rest } : World).poll t =
          ({ w with queue := rest, tasks := w.tasks.modify t fun _ => .finished
                    backends := w.backends.modify 0 fun b => n.apply b }, []) := by
        cases n <;> simp only [poll, task, Notice.task] <;> rfl
      have after : step w .next =
          { w with queue := rest, tasks := w.tasks.modify t fun _ => .finished
                   backends := w.backends.modify 0 fun b => n.apply b } := by
        rw [step, settle, queue]
        dsimp only
        rw [if_neg (by rw [going]; rintro ⟨⟩), polled]
        exact reap_eq_self h.streams h.checkers h.lists
      have told : Paired (ts ++ [⟨w, .next, step w .next⟩])
          { w with queue := rest, tasks := w.tasks.modify t fun _ => .finished
                   backends := w.backends.modify 0 fun b => n.apply b } :=
        { h with
          notices := ⟨pending, lined.tail, fun id => by
            rw [more, unheard, List.append_assoc]
            exact outstanding id⟩
          backend := by
            rw [more, List.foldl_append, Table.get?_modify_self, h.backend]
            rfl
          registry := by
            rw [unheard]
            exact h.registry }
      exact after ▸ told

theorem drain_message (going : w.aborted = none) {service : String} {w' : World}
    (taken : w.deliver line service v = (w', [])) : drain fuel [.deliver line service v] w = w' :=
  drain_step (.deliver line service v) going taken 999999 []

theorem drain_message_of_closed (going : w.aborted = none) (closed : w.isOpen line = false) (service : String)
    (v : Json) : drain fuel [.deliver line service v] w = w := by
  refine drain_message going ?_
  unfold World.deliver
  cases hch : w.channels.get? line with
  | none => rfl
  | some ch =>
    have disposed : ch.core.disposed = true := by simpa [World.isOpen, hch] using closed
    simp [ChannelCore.handler?, disposed]

/-- The registry is told of a handler, or that one is gone. -/
theorem Paired.told (h : Paired ts w) (going : w.aborted = none) (v : Json) :
    Paired (ts ++ [⟨w, .create v, step w (.create v)⟩]) (step w (.create v)) ∧
      Paired (ts ++ [⟨w, .delete v, step w (.delete v)⟩]) (step w (.delete v)) := by
  cases isOpen : w.isOpen line with
  | false =>
    have create : step w (.create v) = w := drain_message_of_closed going isOpen _ v
    have delete : step w (.delete v) = w := drain_message_of_closed going isOpen _ v
    rw [create, delete]
    constructor <;> exact h.silent rfl (by simp [message?, isOpen])
  | true =>
    obtain ⟨ch, hch, -, inUse⟩ := h.channel
    have unclosed : ch.core.disposed = false := by simpa [World.isOpen, hch] using isOpen
    obtain ⟨creates, deletes, -⟩ := inUse unclosed
    obtain ⟨_, registry, live, -⟩ := h.registry
    have create : step w (.create v) = w.arrive 0 v := drain_message going (by
      simp [World.deliver, hch, ChannelCore.handler?, unclosed, creates, registry, live])
    have delete : step w (.delete v) = w.depart 0 v := drain_message going (by
      simp [World.deliver, hch, ChannelCore.handler?, unclosed, deletes, registry, live])
    rw [create, delete]
    exact ⟨h.arrive isOpen (by simp [brought, notice?]) (by simp [heard, message?, going, isOpen]),
      h.depart isOpen (by simp [brought, notice?]) (by simp [heard, message?, going, isOpen])⟩

/-- After a breach of protocol nothing happens any more. -/
theorem step_of_aborted (stopped : w.aborted.isSome = true) (e : Event) : step w e = w := by
  have still : ∀ a, drain (999999 + 1) [a] w = w := fun a => by rw [drain, if_pos stopped]
  cases e with
  | create v => exact still (.deliver line createHandler v)
  | delete v => exact still (.deliver line deleteHandler v)
  | close => exact still (.closeChannel line)
  | next =>
    rw [step, settle]
    split
    · rfl
    · rw [if_pos stopped]

theorem Paired.step (h : Paired ts w) (e : Event) : Paired (ts ++ [⟨w, e, step w e⟩]) (Notices.step w e) := by
  cases stopped : w.aborted with
  | some =>
    rw [step_of_aborted (by rw [stopped]; rfl)]
    refine h.silent ?_ (by simp [message?, stopped])
    cases e <;> simp [notice?, stopped]
  | none =>
    cases e with
    | create v => exact (h.told stopped v).1
    | delete v => exact (h.told stopped v).2
    | close => exact (h.close stopped).silent rfl (by simp [message?])
    | next => exact h.next stopped

end Events

/-! ## Runs -/

/-- What the server has been told after the events `es`. -/
structure Told (es : List Event) : Prop where
  /-- The handlers that came and have not left since, as the server was told, are those of the messages. -/
  outstanding : ∀ id, Outstanding (brought (Runs.turns step opening es)) id ↔
    id ∈ roll (heard (Runs.turns step opening es))
  registered : (Runs.run step opening es).handlerIds =
    if (Runs.run step opening es).isOpen line then roll (heard (Runs.turns step opening es)) else []
  /-- The server holds something for just these handlers. -/
  held : ∀ id, id ∈ clientIds (Runs.run step opening es) ↔ id ∈ roll (heard (Runs.turns step opening es))

/-- When every notice has been brought, the server knows which handlers came and left by messages, but not
that the channel was closed. -/
theorem told_by_messages (es : List Event) (idle : (Runs.run step opening es).queue = []) : Told es := by
  have paired : Paired _ _ := Runs.induction Paired.opening (fun _ _ e h => h.step e) es
  obtain ⟨pending, lined, outstanding⟩ := paired.notices
  obtain ⟨_, registry, -, -, -, ids⟩ := paired.registry
  have none : pending = [] := by
    have tasks := lined.tasks
    rw [idle] at tasks
    exact List.map_eq_nil_iff.mp tasks.symm
  rw [none, List.append_nil] at outstanding
  refine ⟨outstanding, ?_, fun id => ?_⟩
  · rw [handlerIds, registry]
    exact ids
  · rw [clientIds, paired.backend]
    exact (mem_clients_iff _ id).trans (outstanding id)

def desertion : List Event := [.create (Arrival.mk 1 "a").toJson, .next, .close]

theorem told_by_messages_desertion :
    (Runs.run step opening desertion).queue = [] ∧ Told desertion :=
  have idle : (Runs.run step opening desertion).queue = [] := by decide +kernel
  ⟨idle, told_by_messages desertion idle⟩

/-- The registry knows nobody any more, and the server was never told that the handler left. -/
theorem unnoticed_desertion :
    (Runs.run step opening desertion).queue = [] ∧ (Runs.run step opening desertion).aborted = none ∧
      (Runs.run step opening desertion).handlerIds = [] ∧
      brought (Runs.turns step opening desertion) = [.created 1 "a"] ∧
      clientIds (Runs.run step opening desertion) = [1] := by
  decide +kernel

end Notices

end Switchboard
