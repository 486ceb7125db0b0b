import Switchboard.World.Task

/-!
# What the functions of a world change

Waking tasks only fills the queue, and keeping promises also changes promises. On channels that come in
pairs, sending adds to the messages on their way and does nothing else. These facts are stated as
equations between worlds, so that everything a function leaves alone can be read off at once.

Channels `2 * p` and `2 * p + 1` are the ends of pair `p`.
-/

namespace Switchboard

namespace Promise

def keep (outcome : Outcome) (c : Promise) : Promise :=
  { c with outcome := some (c.outcome.getD outcome) }

def lapse (c : Promise) : Promise := c.keep c.fallback

theorem keep_of_outcome {c : Promise} {o o' : Outcome} (h : c.outcome = some o') : c.keep o = c := by
  simp only [keep, h, Option.getD_some]
  rw [← h]

theorem keep_of_none {c : Promise} {o : Outcome} (h : c.outcome = none) :
    c.keep o = { c with outcome := some o } := by
  simp only [keep, h, Option.getD_none]

end Promise

theorem Pair.ends_enqueue (q : Pair) (second : Bool) (message : String × Json) :
    (q.enqueue second message).first = q.first ∧ (q.enqueue second message).second = q.second := by
  unfold enqueue
  split <;> exact ⟨rfl, rfl⟩

namespace Requester

variable {Ticket : Type}

def posted (r : Requester Ticket) (ticket : Ticket) : Requester Ticket :=
  { r with nextId := r.nextId + 1, pending := r.pending ++ [(r.nextId, ticket)] }

@[simp] theorem nextId_posted (r : Requester Ticket) (ticket : Ticket) :
    (r.posted ticket).nextId = r.nextId + 1 := rfl

@[simp] theorem disposed_posted (r : Requester Ticket) (ticket : Ticket) :
    (r.posted ticket).disposed = r.disposed := rfl

theorem post_of_open {r : Requester Ticket} (h : r.disposed = false) (ticket : Ticket) :
    r.post ticket = some (r.posted ticket, r.nextId) := by
  simp [post, posted, h]

theorem post_of_disposed {r : Requester Ticket} (h : r.disposed = true) (ticket : Ticket) :
    r.post ticket = none := by
  simp [post, h]

theorem lookup_posted (r : Requester Ticket) (ticket : Ticket) :
    ∃ t, (r.posted ticket).pending.lookup r.nextId = some t := by
  unfold posted
  rw [List.lookup_append]
  cases r.pending.lookup r.nextId with
  | none => exact ⟨ticket, by simp⟩
  | some t => exact ⟨t, rfl⟩

end Requester

namespace Deferred

variable {Job Ticket : Type}

def queued (d : Deferred Job Ticket) (job : Job) (ticket : Ticket) : Deferred Job Ticket :=
  { d with queue := d.queue ++ [(job, ticket)] }

theorem next_of_cons {d : Deferred Job Ticket} {job : Job × Ticket} {rest : List (Job × Ticket)}
    (hp : d.phase = .ready) (hq : d.queue = job :: rest) :
    d.next = ({ d with queue := rest }, some job) := by
  obtain ⟨_, queue, _⟩ := d
  subst hp hq
  rfl

theorem next_of_done {d : Deferred Job Ticket} (h : d.phase = .ready → d.queue = []) :
    d.next = ({ d with flushing := false }, none) := by
  obtain ⟨phase, _, flushing⟩ := d
  cases phase with
  | ready =>
    obtain rfl := h rfl
    rfl
  | _ => rfl

end Deferred

namespace World

/-! ## Waking and promises -/

def MoreKept (ps ps' : Table Promise) : Prop :=
  ps'.size = ps.size ∧
    ∀ p c, ps.get? p = some c → ∃ c', ps'.get? p = some c' ∧ (c' = c ∨ ∃ o, c' = c.keep o)

theorem MoreKept.refl (ps : Table Promise) : MoreKept ps ps := ⟨rfl, fun _ c hc => ⟨c, hc, .inl rfl⟩⟩

theorem MoreKept.trans {a b c : Table Promise} (h : MoreKept a b) (h' : MoreKept b c) :
    MoreKept a c := by
  refine ⟨h'.1.trans h.1, fun p x hx => ?_⟩
  obtain ⟨y, hy, hxy⟩ := h.2 p x hx
  obtain ⟨z, hz, hyz⟩ := h'.2 p y hy
  refine ⟨z, hz, ?_⟩
  rcases hxy with rfl | ⟨o, rfl⟩
  · exact hyz
  · rcases hyz with rfl | ⟨_, rfl⟩
    · exact .inr ⟨o, rfl⟩
    · exact .inr ⟨o, Promise.keep_of_outcome rfl⟩

theorem MoreKept.modify (ps : Table Promise) (p : Nat) {f : Promise → Promise}
    (hf : ∀ c, ∃ o, f c = c.keep o) : MoreKept ps (ps.modify p f) := by
  refine ⟨Table.size_modify .., fun _ c hc => ?_⟩
  rw [Table.get?_modify, hc]
  split
  · exact ⟨f c, rfl, .inr (hf c)⟩
  · exact ⟨c, rfl, .inl rfl⟩

theorem MoreKept.modifyAll (ps : Table Promise) (is : List Nat) {f : Promise → Promise}
    (hf : ∀ c, ∃ o, f c = c.keep o) : MoreKept ps (ps.modifyAll is f) := by
  induction is generalizing ps with
  | nil => exact .refl ps
  | cons i _ ih => exact (MoreKept.modify ps i hf).trans (ih _)

def requeue (q : List Nat) (w : World) : World := { w with queue := q }

theorem schedule_eq (t : Nat) (w : World) : ∃ q, w.schedule t = { w with queue := q } := by
  unfold schedule
  split
  · exact ⟨w.queue, rfl⟩
  · exact ⟨_, rfl⟩

theorem wake_eq (s : Source) (w : World) : w.wake s = { w with queue := (w.wake s).queue } := by
  suffices ∃ q, w.wake s = { w with queue := q } by
    obtain ⟨q, hq⟩ := this
    rw [hq]
  suffices ∀ (l : List (Nat × Task)) (acc : World), (∃ q, acc = { w with queue := q }) →
      ∃ q, l.foldl (fun acc t => if w.taskSource t.2 = some s then acc.schedule t.1 else acc) acc =
        { w with queue := q } from this _ w ⟨w.queue, rfl⟩
  intro l
  induction l with
  | nil => exact fun _ h => h
  | cons t l ih =>
    rintro acc ⟨q, rfl⟩
    refine ih _ ?_
    dsimp only
    split
    · obtain ⟨q', h⟩ := schedule_eq t.1 { w with queue := q }
      exact ⟨q', h⟩
    · exact ⟨q, rfl⟩

theorem resolve_eq (p : Nat) (o : Outcome) (w : World) :
    w.resolve p o =
      { w with promises := w.promises.modify p (Promise.keep o), queue := (w.resolve p o).queue } := by
  suffices ∃ q, w.resolve p o = { w with promises := w.promises.modify p (Promise.keep o), queue := q } by
    obtain ⟨q, hq⟩ := this
    rw [hq]
  unfold resolve
  split
  · next f h =>
    have same : (w.promises.modify p fun c => { c with outcome := some o }) =
        w.promises.modify p (Promise.keep o) := Table.modify_of_some h rfl
    rw [wake_eq, same]
    exact ⟨_, rfl⟩
  · next h =>
    refine ⟨w.queue, ?_⟩
    have same : w.promises.modify p (Promise.keep o) = w.promises := by
      refine Table.modify_eq_self fun c hc => ?_
      obtain ⟨f, _ | _⟩ := c
      · exact absurd hc (h f)
      · exact Promise.keep_of_outcome rfl
    rw [same]

theorem breakPromise_eq (p : Nat) (w : World) :
    ∃ q, w.breakPromise p = { w with promises := w.promises.modify p Promise.lapse, queue := q } := by
  unfold breakPromise
  split
  · next c hc =>
    have same : w.promises.modify p (Promise.keep c.fallback) = w.promises.modify p Promise.lapse :=
      Table.modify_of_some hc rfl
    rw [resolve_eq, same]
    exact ⟨_, rfl⟩
  · next hc =>
    refine ⟨w.queue, ?_⟩
    rw [Table.modify_of_none hc]

theorem resolveAll_eq (ps : List Nat) (o : Outcome) (w : World) :
    ∃ q, w.resolveAll ps o =
      { w with promises := w.promises.modifyAll ps (Promise.keep o), queue := q } := by
  unfold resolveAll
  induction ps generalizing w with
  | nil => exact ⟨w.queue, rfl⟩
  | cons _ _ ih =>
    rw [List.foldl_cons, resolve_eq]
    exact ih _

theorem breakPromises_eq (ps : List Nat) (w : World) :
    ∃ q, w.breakPromises ps =
      { w with promises := w.promises.modifyAll ps Promise.lapse, queue := q } := by
  unfold breakPromises
  induction ps generalizing w with
  | nil => exact ⟨w.queue, rfl⟩
  | cons p _ ih =>
    obtain ⟨q, hq⟩ := breakPromise_eq p w
    rw [List.foldl_cons, hq]
    exact ih _

/-! ## Sending on paired channels -/


/-- All channels come in pairs, and their numbers say which ends they are. -/
structure Wired (w : World) : Prop where
  transport : w.channels.All fun c ch => ch.transport = .paired (c / 2) (c % 2 == 1)
  ends : w.pairs.All fun p q => q.first = 2 * p ∧ q.second = 2 * p + 1
  size : w.channels.size = 2 * w.pairs.size

def emit (c : Nat) (message : String × Json) (w : World) : World :=
  { w with pairs := w.pairs.modify (c / 2) fun q => q.enqueue (c % 2 == 1) message }

variable {c : Nat} {w : World}

theorem send_of_closed (h : w.isOpen c = false) (service : String)
    (payload : Json) : w.send c service payload = (w, .error .channelDisposed) := by
  unfold isOpen at h
  grind [send]

theorem send_of_open (hw : w.Wired) (h : w.isOpen c = true) (service : String) (payload : Json) :
    ∃ q, w.send c service payload = ({ w.emit c (service, payload) with queue := q }, .ok ()) := by
  unfold isOpen at h
  unfold send
  split
  · next hch => simp [hch] at h
  · next ch hch =>
    rw [hch] at h
    simp only [Bool.not_eq_true'] at h
    rw [if_neg (by simp [h]), hw.transport c ch hch]
    exact ⟨_, congrArg (·, _) (wake_eq ..)⟩

variable {f : Channel → Channel} {w' : World}

theorem isOpen_of_modify
    (h : w'.channels = w.channels.modify c f) (hf : ∀ ch, (f ch).core.disposed = ch.core.disposed)
    (d : Nat) : w'.isOpen d = w.isOpen d := by
  grind [isOpen]

theorem Wired.of_modify (hw : w.Wired)
    (h : w'.channels = w.channels.modify c f) (hf : ∀ ch, (f ch).transport = ch.transport)
    (hp : w'.pairs = w.pairs) : w'.Wired where
  transport := h ▸ hw.transport.modify fun ch _ ht => (hf ch).trans ht
  ends := hp ▸ hw.ends
  size := by rw [h, hp, Table.size_modify, hw.size]

theorem isOpen_eq_true :
    w.isOpen c = true ↔ ∃ ch, w.channels.get? c = some ch ∧ ch.core.disposed = false := by
  unfold isOpen
  cases w.channels.get? c <;> simp

theorem isOpen_eq_of_channels (h : w'.channels = w.channels) (c : Nat) :
    w'.isOpen c = w.isOpen c := by
  unfold isOpen
  rw [h]

/-! ## Posting -/

def setCore (r : Nat) (core : Requester Nat) (w : World) : World :=
  { w with requesters := w.requesters.modify r fun c => { c with core := core } }

def keep (p : Nat) (outcome : Outcome) (w : World) : World :=
  { w with promises := w.promises.modify p (Promise.keep outcome) }

/-- What posting does: nothing without an open requester; else the request is on its way if the channel
is open, and fails at once if it is closed. -/
theorem post_cases (hw : w.Wired) (r : Nat) (payload : Json) :
    (w.requesters.get? r = none ∧
      w.post r payload = (w, .done (.outcome (.error (.requesterDisposed ""))))) ∨
    ∃ cell, w.requesters.get? r = some cell ∧ ((cell.core.disposed = true ∧
        w.post r payload = (w, .done (.outcome (.error cell.core.gaveUp)))) ∨
      (cell.core.disposed = false ∧ w.isOpen cell.channel = true ∧ ∃ q,
        w.post r payload =
          ((((w.promise (.error cell.core.gaveUp)).setCore r (cell.core.posted w.promises.size)).emit
              cell.channel (Service.request cell.core.name,
                (Request.mk cell.core.nextId payload).toJson)).requeue q,
            .promise w.promises.size)) ∨
      (cell.core.disposed = false ∧ w.isOpen cell.channel = false ∧ ∃ t q,
        (cell.core.nextId, t) ∈ (cell.core.posted w.promises.size).pending ∧
        w.post r payload =
          ((((w.promise (.error cell.core.gaveUp)).setCore r
              ((cell.core.posted w.promises.size).withdraw cell.core.nextId).1).keep t
                (.error .channelDisposed)).requeue q,
            .promise w.promises.size))) := by
  cases hr : w.requesters.get? r with
  | none => exact .inl ⟨rfl, by simp only [post, hr]⟩
  | some cell =>
    refine .inr ⟨cell, rfl, ?_⟩
    cases hd : cell.core.disposed with
    | true => exact .inl ⟨rfl, by simp only [post, hr, Requester.post_of_disposed hd]⟩
    | false =>
      refine .inr ?_
      let w' := (w.promise (.error cell.core.gaveUp)).setCore r (cell.core.posted w.promises.size)
      have hw' : w'.Wired := { hw with }
      have hopen : w'.isOpen cell.channel = w.isOpen cell.channel := isOpen_eq_of_channels rfl _
      cases ho : w.isOpen cell.channel with
      | true =>
        obtain ⟨q, hq⟩ := send_of_open hw' (hopen.trans ho) (Service.request cell.core.name)
          (Request.mk cell.core.nextId payload).toJson
        refine .inl ⟨rfl, rfl, q, ?_⟩
        simp only [post, hr, Requester.post_of_open hd]
        generalize hs : send cell.channel _ _ _ = x
        obtain rfl : x = _ := hs.symm.trans hq
        rfl
      | false =>
        have hq := send_of_closed (hopen.trans ho) (Service.request cell.core.name)
          (Request.mk cell.core.nextId payload).toJson
        obtain ⟨t, ht⟩ := cell.core.lookup_posted w.promises.size
        have hres := resolve_eq t (.error .channelDisposed)
          ((w.promise (.error cell.core.gaveUp)).setCore r
            ((cell.core.posted w.promises.size).withdraw cell.core.nextId).1)
        refine .inr ⟨rfl, rfl, t, _, Assoc.mem_of_lookup ht, Eq.trans ?_ (congrArg (·, _) hres)⟩
        simp only [post, hr, Requester.post_of_open hd]
        generalize hs : send cell.channel _ _ _ = x
        obtain rfl : x = _ := hs.symm.trans hq
        simp only [Requester.withdraw, ht]
        simp only [w', setCore, Table.modify_modify]
        rfl

/-! ## Responses -/

variable {r : Nat}

theorem setCore_self {cell : RequesterCell}
    (h : w.requesters.get? r = some cell) : w.setCore r cell.core = w := by
  unfold setCore
  rw [Table.modify_eq_self]
  intro _ ha
  cases h.symm.trans ha
  rfl

def forget (core : Requester Nat) (id : Nat) : Requester Nat :=
  { core with pending := Assoc.erase id core.pending }

/-- What a value on the response service of a requester leads to. -/
theorem onResponse_cases (w : World) (r : Nat) (v : Json) :
    ((∀ cell, w.requesters.get? r = some cell → cell.live = false) ∧ w.onResponse r v = (w, [])) ∨
    ∃ cell, w.requesters.get? r = some cell ∧ cell.live = true ∧
      ((Response.ofJson? v = none ∧ ∃ scope detail,
        w.onResponse r v = (w, [.violation cell.policy scope detail cell.channel])) ∨
      ∃ m, Response.ofJson? v = some m ∧
        ((cell.core.disposed = true ∧ w.onResponse r v = (w, [])) ∨
        (cell.core.disposed = false ∧ cell.core.pending.lookup m.id = none ∧ ∃ scope detail,
          w.onResponse r v = (w, [.violation cell.policy scope detail cell.channel])) ∨
        (cell.core.disposed = false ∧ ∃ t q, cell.core.pending.lookup m.id = some t ∧
          w.onResponse r v =
            (((w.setCore r (forget cell.core m.id)).keep t (Requester.outcomeOf m)).requeue q, [])))) := by
  cases hr : w.requesters.get? r with
  | none => exact .inl ⟨nofun, by simp only [onResponse, hr]⟩
  | some cell =>
    cases hl : cell.live with
    | false =>
      grind [onResponse]
    | true =>
      refine .inr ⟨cell, rfl, hl, ?_⟩
      have same := setCore_self hr
      unfold setCore at same
      cases hm : Response.ofJson? v with
      | none =>
        refine .inl ⟨rfl, ?_⟩
        simp only [onResponse, hr, hl, Requester.receive, hm, same, Bool.not_true, Bool.false_eq_true,
          if_false]
        exact ⟨_, _, rfl⟩
      | some m =>
        refine .inr ⟨m, rfl, ?_⟩
        cases hd : cell.core.disposed with
        | true =>
          grind [onResponse, Requester.receive]
        | false =>
          refine .inr ?_
          cases ht : cell.core.pending.lookup m.id with
          | none =>
            refine .inl ⟨rfl, rfl, ?_⟩
            simp only [onResponse, hr, hl, Requester.receive, hm, hd, ht, same, Bool.not_true,
              Bool.false_eq_true, if_false]
            exact ⟨_, _, rfl⟩
          | some t =>
            have hq := resolve_eq t (Requester.outcomeOf m) (w.setCore r (forget cell.core m.id))
            refine .inr ⟨rfl, t, _, rfl, Eq.trans ?_ (congrArg (·, _) hq)⟩
            simp only [onResponse, hr, hl, Requester.receive, hm, ht, Bool.not_true,
              Bool.false_eq_true, if_false]
            rw [if_neg (by simp [hd])]
            rfl

/-! ## Gates -/

/-- What adding a job to a gate does. -/
theorem addJob_eq {g : Nat} {cell : GateCell} (h : w.gates.get? g = some cell) (job : Job) (t : Nat) :
    w.addJob g job t =
      match cell.core.phase with
      | .failed e => (w.resolve t (.error e), [])
      | .disposed => (w.breakPromise t, [])
      | .waiting => (w.setGate g (cell.core.queued job t), [])
      | .ready => (w.setGate g (cell.core.queued job t), [.flush g]) := by
  simp only [addJob, h, Deferred.add, Deferred.queued]
  cases cell.core.phase <;> rfl

/-- Closing a gate drops the jobs before it. -/
theorem disposeGate_cases (w : World) (g : Nat) :
    ((∀ cell, w.gates.get? g = some cell → cell.core.phase = .disposed) ∧ w.disposeGate g = w) ∨
    ∃ cell q, w.gates.get? g = some cell ∧ cell.core.phase ≠ .disposed ∧
      w.disposeGate g =
        { w with
          gates := w.gates.modify g fun c =>
            { c with core := { cell.core with phase := .disposed, queue := [] }, onRejected := none }
          promises := w.promises.modifyAll (cell.core.queue.map Prod.snd) Promise.lapse
          queue := q } := by
  cases hg : w.gates.get? g with
  | none => exact .inl ⟨nofun, by simp only [disposeGate, hg]⟩
  | some cell =>
    by_cases hp : cell.core.phase = .disposed
    · grind [disposeGate, Deferred.dispose?]
    · simp only [disposeGate, hg, Deferred.dispose?, if_neg hp]
      obtain ⟨q, hq⟩ := breakPromises_eq (cell.core.queue.map Prod.snd)
        { w with gates := w.gates.modify g fun c =>
          { c with core := { cell.core with phase := .disposed, queue := [] }, onRejected := none } }
      exact .inr ⟨cell, q, rfl, hp, hq⟩

/-- What the flusher of a gate does next. -/
theorem dispatchNext_cases (w : World) (g : Nat) :
    (w.gates.get? g = none ∧ w.dispatchNext g = (w, [])) ∨
    ∃ cell, w.gates.get? g = some cell ∧
      (((cell.core.phase = .ready → cell.core.queue = []) ∧
        w.dispatchNext g = (w.setGate g { cell.core with flushing := false }, [])) ∨
      ∃ job t rest, cell.core.phase = .ready ∧ cell.core.queue = (job, t) :: rest ∧
        w.dispatchNext g =
          (w.setGate g { cell.core with queue := rest }, [.invoke job t, .dispatchNext g])) := by
  cases hg : w.gates.get? g with
  | none => exact .inl ⟨rfl, by simp only [dispatchNext, hg]⟩
  | some cell =>
    refine .inr ⟨cell, rfl, ?_⟩
    simp only [dispatchNext, hg]
    by_cases hdone : cell.core.phase = .ready → cell.core.queue = []
    · exact .inl ⟨hdone, by rw [Deferred.next_of_done hdone]⟩
    · obtain ⟨hp, hq⟩ := Classical.not_imp.mp hdone
      obtain ⟨⟨job, t⟩, rest, hq⟩ := List.exists_cons_of_ne_nil hq
      exact .inr ⟨job, t, rest, hp, hq, by rw [Deferred.next_of_cons hp hq]⟩

/-- Opening a gate lets the jobs before it through. -/
theorem openGate_cases (w : World) (g : Nat) :
    ((∀ cell, w.gates.get? g = some cell → cell.core.phase = .waiting → cell.live = false) ∧
      w.openGate g = (w, [])) ∨
    ∃ cell, w.gates.get? g = some cell ∧ cell.core.phase = .waiting ∧ cell.live = true ∧
      w.openGate g =
        ({ w with gates := w.gates.modify g fun c =>
            { c with core := { cell.core with phase := .ready }, onRejected := none } },
          [.flush g]) := by
  cases hg : w.gates.get? g with
  | none => exact .inl ⟨nofun, by simp only [openGate, hg]⟩
  | some cell =>
    by_cases hp : cell.core.phase = .waiting
    · cases hl : cell.live with
      | false =>
        grind [openGate]
      | true =>
        refine .inr ⟨cell, rfl, hp, hl, ?_⟩
        simp only [openGate, hg, Deferred.open?, if_pos hp, hl, if_true]
    · grind [openGate, Deferred.open?]

/-- Shutting a gate turns away the jobs before it. The gates of handlers tell their handler. -/
theorem failGate_cases (w : World) (g : Nat) (e : Fault)
    (hr : ∀ cell label script, w.gates.get? g = some cell →
      cell.onRejected ≠ some (.scripted label script)) :
    ((∀ cell, w.gates.get? g = some cell → cell.core.phase = .waiting → cell.live = false) ∧
      w.failGate g e = (w, [])) ∨
    ∃ cell q more, w.gates.get? g = some cell ∧ cell.core.phase = .waiting ∧ cell.live = true ∧
      (more = [] ∧ (∀ h, cell.onRejected = some (.serverHandler h) →
          (w.serverHandlers.get? h).any (·.live) = false) ∨
        ∃ h, cell.onRejected = some (.serverHandler h) ∧ more = [.closeServerHandler h]) ∧
      w.failGate g e =
        ({ w with
            gates := w.gates.modify g fun c =>
              { c with core := { cell.core with phase := .failed e, queue := [] }, onRejected := none }
            promises := w.promises.modifyAll (cell.core.queue.map Prod.snd) (Promise.keep (.error e))
            queue := q },
          more) := by
  cases hg : w.gates.get? g with
  | none => exact .inl ⟨nofun, by simp only [failGate, hg]⟩
  | some cell =>
    by_cases hp : cell.core.phase = .waiting
    · cases hl : cell.live with
      | false =>
        grind [failGate]
      | true =>
        obtain ⟨q, _⟩ := resolveAll_eq (cell.core.queue.map Prod.snd) (.error e)
          { w with gates := w.gates.modify g fun c =>
            { c with core := { cell.core with phase := .failed e, queue := [] }, onRejected := none } }
        simp only [failGate, hg, Deferred.fail?, if_pos hp, hl, if_true]
        cases hj : cell.onRejected with
        | none | some => grind
    · grind [failGate, Deferred.fail?]

theorem addHook_eq {e : Channel} (h : w.channels.get? c = some e) (hook : Hook) :
    w.addHook c hook = (w.modifyChannel c fun core => core.addHook hook, e.core.nextKey, e.core.disposed) := by
  simp only [addHook, h]

variable {ch : Channel}

theorem get?_register (hc : w.channels.get? c = some ch) (service : String) (handler : Handler) :
    (w.register c service handler).channels.get? c =
      some { ch with core := ch.core.register service handler } := by
  unfold register modifyChannel
  rw [Table.get?_modify_self, hc]
  rfl

theorem addHook_register (hc : w.channels.get? c = some ch) (service : String) (handler : Handler) (hook : Hook) :
    (w.register c service handler).addHook c hook =
      ((w.register c service handler).modifyChannel c fun core => core.addHook hook, ch.core.nextKey,
        ch.core.disposed) := by
  rw [addHook_eq (get?_register hc service handler)]
  unfold ChannelCore.register
  split <;> rfl

theorem newRequester_snd (name : String) (c : Nat) (policy : Policy) (w : World) :
    (w.newRequester name c policy).2 = w.requesters.size := by
  unfold newRequester
  dsimp only
  split <;> rfl

/-! ## Requesters of server handlers -/

def freshRequester (name : String) (channel : Nat) (policy : Policy) (hook : Nat) : RequesterCell :=
  { core := { name := name }, channel := channel, policy := policy, hook := some hook }

def listening (name : String) (r : Nat) (ch : Channel) : Channel :=
  { ch with core :=
    (ch.core.register (Service.response name) (.responses r)).addHook (.requester r) }

theorem newRequester_of_open (hc : w.channels.get? c = some ch)
    (ho : ch.core.disposed = false) (name : String) (policy : Policy) :
    w.newRequester name c policy = ({ w with
          requesters := w.requesters.push (freshRequester name c policy ch.core.nextKey)
          channels := w.channels.modify c (listening name w.requesters.size) },
        w.requesters.size) := by
  unfold newRequester
  dsimp only
  rw [addHook_register (w := { w with requesters := w.requesters.push _ }) hc]
  simp only [ho, Bool.false_eq_true, if_false, register, modifyChannel, Table.modify_modify,
    Table.modify_push_size]
  rfl

/-- The requester of a server handler is made and announced when there is none, unless the handler is
closed or the server cannot be reached. -/
theorem serverRequester_cases (hw : w.Wired) (h : Nat) :
    (w.serverHandlers.get? h = none ∧ w.serverRequester h = (w, .error .handlerDisposed)) ∨
    ∃ cell, w.serverHandlers.get? h = some cell ∧
      ((cell.disposed = true ∧ w.serverRequester h = (w, .error .handlerDisposed)) ∨
      (cell.disposed = false ∧ ∃ r, cell.requester = some r ∧ w.serverRequester h = (w, .ok r)) ∨
      (cell.disposed = false ∧ cell.requester = none ∧
        (cell.channelGone = true ∨ w.isOpen cell.channel = false) ∧
        w.serverRequester h = (w, .error .channelDisposed)) ∨
      (cell.disposed = false ∧ cell.requester = none ∧ cell.channelGone = false ∧
        w.isOpen cell.channel = true ∧ ∃ ch q, w.channels.get? cell.channel = some ch ∧
        w.serverRequester h =
          ((({ w with
              requesters := w.requesters.push
                (freshRequester (Service.callFunction cell.id) cell.channel .abort ch.core.nextKey)
              channels := w.channels.modify cell.channel
                (listening (Service.callFunction cell.id) w.requesters.size)
              serverHandlers := w.serverHandlers.modify h fun c =>
                { c with requester := some w.requesters.size } } : World).emit cell.channel
              (Service.createHandler, (Arrival.mk cell.id cell.clientName).toJson)).requeue q,
            .ok w.requesters.size))) := by
  cases hh : w.serverHandlers.get? h with
  | none => exact .inl ⟨rfl, by simp only [serverRequester, hh]⟩
  | some cell =>
    refine .inr ⟨cell, rfl, ?_⟩
    cases hd : cell.disposed with
    | true => exact .inl ⟨rfl, by simp only [serverRequester, hh, hd, if_true]⟩
    | false =>
      cases hr : cell.requester with
      | some =>
        grind [serverRequester]
      | none =>
        by_cases hgone : cell.channelGone = true ∨ w.isOpen cell.channel = false
        · grind [serverRequester]
        · obtain ⟨hg, ho⟩ : cell.channelGone = false ∧ w.isOpen cell.channel = true := by
            simpa using hgone
          obtain ⟨ch, hch, hopen⟩ := isOpen_eq_true.mp ho
          have hnew := newRequester_of_open hch hopen (Service.callFunction cell.id) .abort
          refine .inr (.inr (.inr ⟨rfl, rfl, hg, ho, ch, ?_⟩))
          simp only [serverRequester, hh, hd, hr, hg, ho, hnew, Bool.false_eq_true, if_false,
            Bool.not_true, Bool.or_self]
          let w' : World := { w with
            requesters := w.requesters.push
              (freshRequester (Service.callFunction cell.id) cell.channel .abort ch.core.nextKey)
            channels := w.channels.modify cell.channel
              (listening (Service.callFunction cell.id) w.requesters.size)
            serverHandlers := w.serverHandlers.modify h fun c =>
              { c with requester := some w.requesters.size } }
          have hw' : w'.Wired := hw.of_modify (c := cell.channel) rfl (fun _ => rfl) rfl
          have ho' : w'.isOpen cell.channel = true :=
            (isOpen_of_modify (w := w) rfl (fun _ => by simp [listening]) _).trans ho
          obtain ⟨q, hq⟩ := send_of_open hw' ho' Service.createHandler
            (Arrival.mk cell.id cell.clientName).toJson
          generalize hs : send cell.channel _ _ _ = x
          obtain rfl : x = _ := hs.symm.trans hq
          exact ⟨q, hch, rfl⟩

/-! ## Closing requesters and server handlers -/

def SameShape (chs chs' : Table Channel) : Prop :=
  ∀ c, (chs'.get? c).map (fun ch => (ch.core.disposed, ch.transport)) =
    (chs.get? c).map fun ch => (ch.core.disposed, ch.transport)

theorem SameShape.refl (chs : Table Channel) : SameShape chs chs := fun _ => rfl

theorem SameShape.trans {a b c : Table Channel} (h : SameShape a b) (h' : SameShape b c) :
    SameShape a c := fun i => (h' i).trans (h i)

theorem SameShape.modify (chs : Table Channel) (c : Nat)
    (hd : ∀ ch, (f ch).core.disposed = ch.core.disposed) (ht : ∀ ch, (f ch).transport = ch.transport) :
    SameShape chs (chs.modify c f) :=
  Table.map_get?_modify (fun ch => by simp [hd, ht]) chs c

theorem SameShape.modifyCore (chs : Table Channel) (c : Nat)
    {f : ChannelCore Handler Hook → ChannelCore Handler Hook}
    (hf : ∀ core, (f core).disposed = core.disposed) :
    SameShape chs (chs.modify c fun ch => { ch with core := f ch.core }) :=
  .modify _ _ (fun ch => hf ch.core) fun _ => rfl

theorem SameShape.isOpen (h : SameShape w.channels w'.channels) (c : Nat) :
    w'.isOpen c = w.isOpen c := by
  have hc := h c
  unfold World.isOpen
  revert hc
  cases w.channels.get? c <;> cases w'.channels.get? c <;> simp +contextual

theorem SameShape.size {chs chs' : Table Channel} (h : SameShape chs chs') : chs'.size = chs.size := by
  have none_iff : ∀ i, chs'.get? i = none ↔ chs.get? i = none := fun i => by
    have hi := congrArg Option.isNone (h i)
    simp only [Option.isNone_map] at hi
    rw [← Option.isNone_iff_eq_none, ← Option.isNone_iff_eq_none, hi]
  rcases Nat.lt_trichotomy chs.size chs'.size with hlt | heq | hlt
  · obtain ⟨a, ha⟩ := Table.get?_isSome_of_lt hlt
    have gone := (none_iff _).mpr (Table.get?_of_size_le (Nat.le_refl chs.size))
    cases ha.symm.trans gone
  · exact heq.symm
  · obtain ⟨a, ha⟩ := Table.get?_isSome_of_lt hlt
    have gone := (none_iff _).mp (Table.get?_of_size_le (Nat.le_refl chs'.size))
    cases ha.symm.trans gone

theorem SameShape.wired (h : SameShape w.channels w'.channels) (hp : w'.pairs = w.pairs)
    (hw : w.Wired) : w'.Wired where
  transport c ch hch := by
    have hc := h c
    grind [hw.transport]
  ends := hp ▸ hw.ends
  size := by rw [h.size, hp, hw.size]

def leave (name : String) (key : Option Nat) (core : ChannelCore Handler Hook) :
    ChannelCore Handler Hook :=
  match key with
  | some k => (core.unregister (Service.response name)).removeHook k
  | none => core.unregister (Service.response name)

def left (w : World) (r : Nat) (chs : Table Channel) : Table Channel :=
  match w.requesters.get? r with
  | some cell =>
    if cell.core.disposed then chs
    else chs.modify cell.channel fun ch => { ch with core := leave cell.core.name cell.hook ch.core }
  | none => chs

theorem SameShape.left (w : World) (r : Nat) (chs : Table Channel) : SameShape chs (w.left r chs) := by
  unfold World.left
  split
  · next cell _ =>
    split
    · exact .refl _
    · exact .modifyCore _ _ fun _ => by cases cell.hook <;> rfl
  · exact .refl _

/-- Closing a requester that is open. -/
theorem disposeRequester_of_open {cell : RequesterCell}
    (hr : w.requesters.get? r = some cell) (hd : cell.core.disposed = false) :
    ∃ q, w.disposeRequester r = { w with
        requesters := w.requesters.modify r fun c =>
          { c with core := { cell.core with disposed := true, pending := [] }, hook := none }
        channels := w.channels.modify cell.channel fun ch =>
          { ch with core := leave cell.core.name cell.hook ch.core }
        promises := w.promises.modifyAll (cell.core.pending.map Prod.snd)
          (Promise.keep (.error cell.core.gaveUp))
        queue := q } := by
  unfold disposeRequester Requester.dispose
  rw [hr]
  simp only [hd, Bool.false_eq_true, if_false]
  obtain ⟨q, hq⟩ := resolveAll_eq (cell.core.pending.map Prod.snd) (.error cell.core.gaveUp)
    (((({ w with requesters := w.requesters.modify r fun c =>
      { c with core := { cell.core with disposed := true, pending := [] }, hook := none } } : World)
        ).unregister cell.channel (Service.response cell.core.name)).removeHook cell.channel cell.hook)
  refine ⟨q, hq.trans ?_⟩
  cases hk : cell.hook with
  | none => rfl
  | some =>
    simp only [removeHook, unregister, modifyChannel, Table.modify_modify]
    rfl

theorem disposeRequester_of_closed (h : ∀ cell, w.requesters.get? r = some cell → cell.core.disposed = true) :
    w.disposeRequester r = w := by
  unfold disposeRequester Requester.dispose
  split
  · rfl
  · next cell hr => rw [if_pos (h cell hr)]

/-- On a closed channel a requester is closed at once. -/
theorem newRequester_of_closed (hc : w.channels.get? c = some ch)
    (hd : ch.core.disposed = true) (name : String) (policy : Policy) :
    ∃ q f, (∀ ch : Channel, (f ch).core.disposed = ch.core.disposed ∧ (f ch).transport = ch.transport ∧
        (ch.core.disposed = true → (f ch).core.hooks = ch.core.hooks ∧
          ch.core.nextKey ≤ (f ch).core.nextKey)) ∧
      w.newRequester name c policy = ({ w with
          requesters := w.requesters.push
            { core := { name := name, disposed := true }, channel := c, policy := policy }
          channels := w.channels.modify c f
          queue := q }, w.requesters.size) := by
  let cell : RequesterCell := { core := { name := name }, channel := c, policy := policy }
  unfold newRequester
  dsimp only
  rw [addHook_register (w := { w with requesters := w.requesters.push cell }) hc, if_pos hd]
  have hr : (w.requesters.push cell).get? w.requesters.size = some cell := Table.get?_push_size ..
  obtain ⟨q, hq⟩ := disposeRequester_of_open (w := (({ w with requesters := w.requesters.push cell } : World
    ).register c (Service.response name) (.responses w.requesters.size)).modifyChannel c
      fun core => core.addHook (.requester w.requesters.size)) hr rfl
  refine ⟨q, fun ch => { ch with core := leave name none ((ch.core.register (Service.response name)
    (.responses w.requesters.size)).addHook (.requester w.requesters.size)) }, ?_,
    Prod.ext (hq.trans ?_) rfl⟩
  · grind [leave, ChannelCore.unregister, ChannelCore.addHook, ChannelCore.register]
  · simp only [cell, register, modifyChannel, Table.modify_modify, Table.modify_push_size]
    rfl

def shutRequester (c : RequesterCell) : RequesterCell :=
  if c.core.disposed then c
  else { c with core := { c.core with disposed := true, pending := [] }, hook := none }

theorem disposeRequester_eq (r : Nat) (w : World) :
    ∃ ps q, MoreKept w.promises ps ∧
      w.disposeRequester r =
        { w with
          requesters := w.requesters.modify r shutRequester, channels := w.left r w.channels,
          promises := ps, queue := q } := by
  have idle : (∀ cell, w.requesters.get? r = some cell → cell.core.disposed = true) →
      w.disposeRequester r =
        { w with requesters := w.requesters.modify r shutRequester, channels := w.left r w.channels } := by
    intro closed
    have same : w.requesters.modify r shutRequester = w.requesters :=
      Table.modify_eq_self fun a ha => if_pos (closed a ha)
    have stays : w.left r w.channels = w.channels := by
      unfold left
      split
      · next cell hr => rw [if_pos (closed cell hr)]
      · rfl
    rw [disposeRequester_of_closed closed, same, stays]
  cases hr : w.requesters.get? r with
  | none => exact ⟨w.promises, w.queue, .refl _, idle fun _ h => absurd (hr.symm.trans h) nofun⟩
  | some cell =>
    cases hd : cell.core.disposed with
    | true =>
      exact ⟨w.promises, w.queue, .refl _, idle fun _ h => Option.some.inj (hr.symm.trans h) ▸ hd⟩
    | false =>
      obtain ⟨q, hq⟩ := disposeRequester_of_open hr hd
      have same : (w.requesters.modify r fun c =>
          { c with core := { cell.core with disposed := true, pending := [] }, hook := none }) =
          w.requesters.modify r shutRequester := Table.modify_of_some hr (by simp [shutRequester, hd])
      refine ⟨w.promises.modifyAll (cell.core.pending.map Prod.snd)
        (Promise.keep (.error cell.core.gaveUp)), q, .modifyAll _ _ fun _ => ⟨_, rfl⟩, hq.trans ?_⟩
      rw [same]
      simp only [left, hr, hd, Bool.false_eq_true, if_false]

def dropRequester (c : RequesterCell) : RequesterCell :=
  { c with live := false, core := { c.core with pending := [] } }

theorem releaseRequester_eq (r : Nat) (w : World) :
    ∃ ps q, MoreKept w.promises ps ∧ w.releaseRequester r =
      { w with requesters := w.requesters.modify r dropRequester, promises := ps, queue := q } := by
  unfold releaseRequester
  split
  · next hr =>
    refine ⟨w.promises, w.queue, .refl _, ?_⟩
    rw [Table.modify_of_none hr]
  · next cell hr =>
    obtain ⟨q, heq⟩ := breakPromises_eq (cell.core.pending.map Prod.snd)
      { w with requesters := w.requesters.modify r dropRequester }
    exact ⟨_, q, .modifyAll _ _ fun _ => ⟨_, rfl⟩, heq⟩

theorem letGo_eq (r : Nat) (w : World) :
    ∃ ps q, MoreKept w.promises ps ∧
      (w.disposeRequester r).releaseRequester r =
        { w with
          requesters := w.requesters.modify r (dropRequester ∘ shutRequester),
          channels := w.left r w.channels, promises := ps, queue := q } := by
  obtain ⟨ps, q, kept, heq⟩ := disposeRequester_eq r w
  obtain ⟨ps', q', kept', heq'⟩ := releaseRequester_eq r
    { w with
      requesters := w.requesters.modify r shutRequester, channels := w.left r w.channels, promises := ps,
      queue := q }
  rw [heq, heq']
  exact ⟨ps', q', kept.trans kept', by rw [Table.modify_modify]⟩

def shutGate (c : GateCell) : GateCell :=
  if c.core.phase = .disposed then c
  else { c with core := { c.core with phase := .disposed, queue := [] }, onRejected := none }

theorem disposeGate_eq (g : Nat) (w : World) :
    ∃ ps q, MoreKept w.promises ps ∧ w.disposeGate g =
      { w with gates := w.gates.modify g shutGate, promises := ps, queue := q } := by
  obtain ⟨hp, heq⟩ | ⟨cell, q, hg, hp, heq⟩ := disposeGate_cases w g
  · refine ⟨w.promises, w.queue, .refl _, ?_⟩
    have same : w.gates.modify g shutGate = w.gates :=
      Table.modify_eq_self fun a ha => if_pos (hp a ha)
    rw [heq, same]
  · have same : (w.gates.modify g fun c =>
        { c with core := { cell.core with phase := .disposed, queue := [] }, onRejected := none }) =
        w.gates.modify g shutGate := Table.modify_of_some hg (if_neg hp).symm
    refine ⟨w.promises.modifyAll (cell.core.queue.map Prod.snd) Promise.lapse, q,
      .modifyAll _ _ fun c => ⟨c.fallback, rfl⟩, heq.trans ?_⟩
    rw [same]

def shutHandler (c : ServerHandlerCell) : ServerHandlerCell :=
  { c with disposed := true, requester := none, hooks := [], hook := none }

def unhook (key : Option Nat) (core : ChannelCore Handler Hook) : ChannelCore Handler Hook :=
  match key with
  | some k => core.removeHook k
  | none => core

theorem removeHook_eq (c : Nat) (key : Option Nat) (w : World) :
    w.removeHook c key =
      { w with channels := w.channels.modify c fun ch => { ch with core := unhook key ch.core } } := by
  cases key with
  | some => rfl
  | none =>
    have same : (w.channels.modify c fun ch => { ch with core := unhook none ch.core }) = w.channels :=
      Table.modify_eq_self fun _ _ => rfl
    rw [same]
    rfl

def parted (w : World) (cell : ServerHandlerCell) : Table Channel :=
  cell.requester.elim
    (w.channels.modify cell.channel fun ch => { ch with core := unhook cell.hook ch.core })
    fun r => w.left r
      (w.channels.modify cell.channel fun ch => { ch with core := unhook cell.hook ch.core })

theorem SameShape.unhooked (chs : Table Channel) (c : Nat) (key : Option Nat) :
    SameShape chs (chs.modify c fun ch => { ch with core := unhook key ch.core }) :=
  .modifyCore _ _ fun core => by cases key <;> rfl

theorem SameShape.parted (w : World) (cell : ServerHandlerCell) :
    SameShape w.channels (w.parted cell) := by
  unfold World.parted
  cases cell.requester with
  | none => exact .unhooked _ _ _
  | some => exact (SameShape.unhooked _ _ _).trans (.left _ _ _)

/-- Closing a server handler: it takes its leave if it was announced and the server can be reached. -/
theorem disposeServerHandler_cases (hw : w.Wired) (h : Nat) :
    ((∀ cell, w.serverHandlers.get? h = some cell → cell.disposed = true) ∧
      w.disposeServerHandler h = (w, [])) ∨
    ∃ cell w' ps q, w.serverHandlers.get? h = some cell ∧ cell.disposed = false ∧
      MoreKept w.promises ps ∧
      w' = { w with
        serverHandlers := w.serverHandlers.modify h shutHandler
        gates := w.gates.modify cell.gate shutGate
        requesters := cell.requester.elim w.requesters fun r =>
          w.requesters.modify r (dropRequester ∘ shutRequester)
        channels := w.parted cell, promises := ps, queue := q } ∧
      ((cell.requester.isSome = true ∧ cell.channelGone = false ∧ w.isOpen cell.channel = true ∧
          w.disposeServerHandler h =
            (w'.emit cell.channel (Service.deleteHandler, (Departure.mk cell.id).toJson),
              cell.hooks)) ∨
        (¬ (cell.requester.isSome = true ∧ cell.channelGone = false ∧
            w.isOpen cell.channel = true) ∧ w.disposeServerHandler h = (w', cell.hooks))) := by
  unfold disposeServerHandler
  split
  · next hh => exact .inl ⟨fun cell hc => absurd (hh.symm.trans hc) nofun, rfl⟩
  · next cell hh =>
    cases hd : cell.disposed with
    | true =>
      exact .inl ⟨fun _ hc => Option.some.inj (hh.symm.trans hc) ▸ hd, if_pos rfl⟩
    | false =>
      simp only [Bool.false_eq_true, if_false]
      let chs := w.channels.modify cell.channel fun ch => { ch with core := unhook cell.hook ch.core }
      have shape : SameShape w.channels chs := .unhooked _ _ _
      rw [removeHook_eq]
      obtain ⟨ps, q, kept, heq⟩ := disposeGate_eq cell.gate
        { w with
          serverHandlers := w.serverHandlers.modify h fun c =>
            { c with disposed := true, requester := none, hooks := [], hook := none }
          channels := chs }
      rw [heq]
      let w₁ : World := { w with
        serverHandlers := w.serverHandlers.modify h shutHandler
        channels := chs
        gates := w.gates.modify cell.gate shutGate, promises := ps, queue := q }
      have hopen : w₁.isOpen cell.channel = w.isOpen cell.channel := SameShape.isOpen (w := w) shape _
      have hw₁ : w₁.Wired := SameShape.wired (w := w) shape rfl hw
      refine .inr ?_
      cases hr : cell.requester with
      | none =>
        refine ⟨cell, w₁, ps, q, hh, hd, kept, ?_, .inr ⟨by simp [hr], rfl⟩⟩
        rw [parted, hr]
        rfl
      | some r =>
        have channels : w.left r chs = w.parted cell := by
          rw [parted, hr]
          rfl
        by_cases hc : cell.channelGone = false ∧ w.isOpen cell.channel = true
        · obtain ⟨q', hsend⟩ := send_of_open hw₁ (hopen.trans hc.2) Service.deleteHandler
            (Departure.mk cell.id).toJson
          let w₂ : World :=
            { w₁.emit cell.channel (Service.deleteHandler, (Departure.mk cell.id).toJson) with
              queue := q' }
          obtain ⟨ps', q'', kept', heq⟩ := letGo_eq r w₂
          refine ⟨cell, _, ps', q'', hh, hd, kept.trans kept', rfl,
            .inl ⟨by simp [hr], hc.1, hc.2, ?_⟩⟩
          have sent : (if !cell.channelGone && w₁.isOpen cell.channel then
              w₁.sendQuietly cell.channel Service.deleteHandler (Departure.mk cell.id).toJson
              else w₁) = w₂ := by
            rw [if_pos (by simp [hc.1, hopen, hc.2]), sendQuietly, hsend]
          refine Prod.ext (Eq.trans (congrArg (fun w => (w.disposeRequester r).releaseRequester r) sent)
            (heq.trans ?_)) rfl
          rw [← channels, hr]
          rfl
        · obtain ⟨ps', q'', kept', heq⟩ := letGo_eq r w₁
          refine ⟨cell, _, ps', q'', hh, hd, kept.trans kept', rfl, .inr ⟨fun hn => hc hn.2, ?_⟩⟩
          have silent : (if !cell.channelGone && w₁.isOpen cell.channel then
              w₁.sendQuietly cell.channel Service.deleteHandler (Departure.mk cell.id).toJson
              else w₁) = w₁ := by
            rw [if_neg (by simpa [hopen] using hc)]
          refine Prod.ext
            (Eq.trans (congrArg (fun w => (w.disposeRequester r).releaseRequester r) silent)
              (heq.trans ?_)) rfl
          rw [← channels, hr]
          rfl

def freshGate (h : Nat) : GateCell := { onRejected := some (.serverHandler h) }

def hooked (hook : Hook) (ch : Channel) : Channel := { ch with core := ch.core.addHook hook }

theorem SameShape.hooked (chs : Table Channel) (c : Nat) (hook : Hook) :
    SameShape chs (chs.modify c (hooked hook)) :=
  .modify _ _ (fun ch => ch.core.disposed_addHook hook) fun _ => rfl

def freshHandler (h c gate key : Nat) (name : String) : ServerHandlerCell :=
  { id := h, clientName := name, channel := c, gate := gate, hook := some key }

/-- A new server handler, which is closed at once if the server's channel is. -/
theorem newServerHandler_cases (hw : w.Wired) (c : Nat) (s : ReadinessSource) (name : String) :
    ∃ cell gate ps q, MoreKept w.promises ps ∧
      ((∃ key, (∀ ch, w.channels.get? c = some ch → ch.core.disposed = false ∧ key = ch.core.nextKey) ∧
          gate = freshGate w.serverHandlers.size ∧
          cell = freshHandler w.serverHandlers.size c w.gates.size key name) ∨
        (w.isOpen c = false ∧ gate = shutGate (freshGate w.serverHandlers.size) ∧
          cell.disposed = true ∧ cell.requester = none ∧ cell.hook = none)) ∧
      w.newServerHandler c s name = ({ w with
            serverHandlers := w.serverHandlers.push cell
            gates := w.gates.push gate
            tasks := w.tasks.push (.await (.readiness s) (.gate w.gates.size))
            channels := w.channels.modify c (hooked (.serverHandler w.serverHandlers.size))
            promises := ps, queue := q },
          w.serverHandlers.size) := by
  let cell : ServerHandlerCell :=
    { id := w.serverHandlers.size, clientName := name, channel := c, gate := w.gates.size }
  let chs := w.channels.modify c (hooked (.serverHandler w.serverHandlers.size))
  have same : SameShape w.channels chs := .hooked _ _ _
  let w₀ : World := { w with
    serverHandlers := w.serverHandlers.push cell
    gates := w.gates.push (freshGate w.serverHandlers.size)
    tasks := w.tasks.push (.await (.readiness s) (.gate w.gates.size))
    queue := w.queue ++ [w.tasks.size] }
  have result : w.newServerHandler c s name =
      let hung := w₀.addHook c (.serverHandler w.serverHandlers.size)
      if hung.2.2 then
        ((({ hung.1 with serverHandlers := hung.1.serverHandlers.modify w.serverHandlers.size fun c =>
          { c with channelGone := true } } : World).disposeServerHandler w.serverHandlers.size).1,
          w.serverHandlers.size)
      else
        ({ hung.1 with serverHandlers := hung.1.serverHandlers.modify w.serverHandlers.size fun c =>
          { c with hook := some hung.2.1 } }, w.serverHandlers.size) := rfl
  have fresh : ∀ key,
      w₀.addHook c (.serverHandler w.serverHandlers.size) = ({ w₀ with channels := chs }, key, false) →
      w.newServerHandler c s name =
        ({ w with
            serverHandlers := w.serverHandlers.push
              (freshHandler w.serverHandlers.size c w.gates.size key name)
            gates := w.gates.push (freshGate w.serverHandlers.size)
            tasks := w.tasks.push (.await (.readiness s) (.gate w.gates.size))
            channels := chs, queue := w.queue ++ [w.tasks.size] },
          w.serverHandlers.size) := by
    intro key hadd
    rw [result, hadd]
    refine Prod.ext ?_ rfl
    show { w₀ with
      channels := chs
      serverHandlers := (w.serverHandlers.push cell).modify w.serverHandlers.size _ } = _
    rw [Table.modify_push_size]
    rfl
  cases hch : w.channels.get? c with
  | none =>
    have same : chs = w.channels := Table.modify_of_none hch _
    refine ⟨_, _, w.promises, w.queue ++ [w.tasks.size], .refl _, .inl ⟨0, by rintro _ ⟨⟩, rfl, rfl⟩, fresh 0 ?_⟩
    rw [same]
    simp only [addHook, w₀, hch]
  | some ch =>
    have hadd := addHook_eq (w := w₀) hch (.serverHandler w.serverHandlers.size)
    cases hd : ch.core.disposed with
    | false =>
      rw [hd] at hadd
      refine ⟨_, _, w.promises, w.queue ++ [w.tasks.size], .refl _,
        .inl ⟨ch.core.nextKey, fun _ h => ?_, rfl, rfl⟩, fresh _ hadd⟩
      exact Option.some.inj h ▸ ⟨hd, rfl⟩
    | true =>
      rw [result, hadd, hd]
      let gone : ServerHandlerCell := { cell with channelGone := true }
      let w₂ : World := { w₀ with channels := chs, serverHandlers := w.serverHandlers.push gone }
      have hw₂ : w₂.Wired := SameShape.wired (w := w) same rfl hw
      have start : { w₀ with
          channels := chs
          serverHandlers := (w.serverHandlers.push cell).modify w.serverHandlers.size fun c =>
            { c with channelGone := true } } = w₂ := by rw [Table.modify_push_size]
      have hcell : w₂.serverHandlers.get? w.serverHandlers.size = some gone := Table.get?_push_size ..
      have stays : w₂.parted gone = chs := Table.modify_eq_self fun _ _ => rfl
      obtain ⟨hn, -⟩ | ⟨_, _, ps, q, hcell', -, kept, rfl, ⟨hr, -⟩ | ⟨-, heq⟩⟩ :=
        disposeServerHandler_cases hw₂ w.serverHandlers.size
      · cases hn _ hcell
      · cases hcell.symm.trans hcell'
        cases hr
      · cases hcell.symm.trans hcell'
        refine ⟨shutHandler gone, shutGate (freshGate w.serverHandlers.size), ps, q, kept,
          .inr ⟨by simp [isOpen, hch, hd], rfl, rfl, rfl, rfl⟩, Prod.ext ?_ rfl⟩
        refine ((congrArg (fun w => (disposeServerHandler _ w).1) start).trans
          (congrArg Prod.fst heq)).trans ?_
        rw [stays]
        show { w₂ with
          serverHandlers := (w.serverHandlers.push gone).modify w.serverHandlers.size shutHandler
          gates := (w.gates.push (freshGate w.serverHandlers.size)).modify w.gates.size shutGate
          channels := chs, promises := ps, queue := q } = _
        rw [Table.modify_push_size, Table.modify_push_size]

end World

end Switchboard
