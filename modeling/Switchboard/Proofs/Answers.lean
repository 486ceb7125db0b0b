import Switchboard.Proofs.Exchange
import Switchboard.Proofs.Jobs
import Switchboard.Proofs.Runs
import Switchboard.Proofs.Spelling
import Switchboard.Proofs.WireFormat

/-!
# The answers of a receiver

A receiver on one end of a pair, or on a stream channel, hears any values on its service, while the jobs
it has begun end in any order and the channel is closed at any time. A request is *settled* in the turn
in which the task that waits for its job finds the result.

The channel carries one message for each request that is settled while the channel is open, in this
order, and nothing else. On a stream that is so only for messages that fit into a frame: an answer that
is too long is dropped, and the request is never answered.
-/

namespace Switchboard

open World

namespace Answers

abbrev line : Nat := 0

/-- The tasks that the channel itself needs; those of the requests come after them. -/
abbrev own : Nat := 2

inductive Kind where
  | pair
  | stream

/-- A receiver: the channel it listens on, its name and policy, and the job it begins for each payload. -/
structure Setting where
  kind : Kind
  name : String
  policy : Policy
  script : Json → Script

namespace Setting

def transport (s : Setting) : Transport :=
  match s.kind with
  | .pair => .paired 0 false
  | .stream => .stream 0

def channel (s : Setting) : World :=
  let w : World := { script := s.script }
  match s.kind with
  | .pair => (w.newPair "line" "far").1
  | .stream => ((w.newPipes 1).1.newStream "line" s.policy 0 1).1

def receiver (s : Setting) : ReceiverCell :=
  { name := s.name, channel := line, policy := s.policy, provider := .scripted "receiver" }

end Setting

def opening (s : Setting) : Exchange :=
  ⟨(s.channel.newReceiver s.name line s.policy (.scripted "receiver")).1, []⟩

inductive Event where
  /-- A value comes in on the service of the receiver. -/
  | hear (payload : Json)
  | finish (token : String) (outcome : Outcome)
  | elapse (ms : Nat)
  | look (request : Nat)
  | close
  | proceed

def step (s : Setting) (x : Exchange) : Event → Exchange
  | .hear payload =>
    match x.world.deliver line (Service.request s.name) payload with
    | (w, [.spawn task]) => ⟨w.spawn task, x.agenda⟩
    | (w, actions) => ⟨w, actions ++ x.agenda⟩
  | .finish token outcome => ⟨(x.world.finishToken token outcome).1, x.agenda⟩
  | .elapse ms => ⟨{ x.world with clock := x.world.clock + ms }, x.agenda⟩
  | .look k => ⟨(x.world.poll (own + k)).1, (x.world.poll (own + k)).2 ++ x.agenda⟩
  | .close => ⟨x.world, .closeChannel line :: x.agenda⟩
  | .proceed =>
    match x.agenda with
    | [] => x
    | a :: rest => ⟨(x.world.perform a).1, (x.world.perform a).2 ++ rest⟩

abbrev Turn := Runs.Turn Exchange Event

def heard? (t : Turn) : Option Request :=
  match t.event with
  | .hear payload => if t.before.world.isOpen line then Request.ofJson? payload else none
  | _ => none

/-- The requests that came while the channel was open, numbered in this order. -/
def requests (ts : List Turn) : List Request := ts.filterMap heard?

def told? (t : Turn) : Option (String × Outcome) :=
  match t.event with
  | .finish token outcome => some (token, outcome)
  | _ => none

/-- What tokens were finished with. -/
def finished (ts : List Turn) : List (String × Outcome) := ts.filterMap told?

/-- The end of a request: which one it is, its identifier, and what its job came to. -/
structure Settlement where
  request : Nat
  id : Nat
  outcome : Outcome
  /-- Whether the channel was open. -/
  isOpen : Bool

def settled? (t : Turn) : Option Settlement :=
  match t.event with
  | .look k =>
    match t.before.world.tasks.get? (own + k) with
    | some (.await future (.respond _ _ id)) =>
      (t.before.world.look future).2.2.map fun result =>
        ⟨k, id, outcomeOf result, t.before.world.isOpen line⟩
    | _ => none
  | _ => none

def settled (ts : List Turn) : List Settlement := ts.filterMap settled?

def settledAs (ts : List Turn) (k : Nat) : List Settlement := (settled ts).filter fun m => m.request = k

def body (m : String × Json) : ByteArray := (Envelope.mk m.1 m.2).text.toUTF8

namespace Setting

def fits (s : Setting) (m : String × Json) : Bool :=
  match s.kind with
  | .pair => true
  | .stream => decide ((body m).size ≤ maxFrameSize)

def answer (s : Setting) (id : Nat) (outcome : Outcome) : String × Json :=
  (Service.response s.name, (responseTo id outcome).toJson)

def message? (s : Setting) (m : Settlement) : Option (String × Json) :=
  if m.isOpen ∧ s.fits (s.answer m.id m.outcome) then some (s.answer m.id m.outcome) else none

end Setting

/-- What was put on the channel: queued for the other end, or as frames for the writer. -/
def Carries (s : Setting) (w : World) (ms : List (String × Json)) : Prop :=
  match s.kind with
  | .pair => ∃ p, w.pairs.get? 0 = some p ∧ p.toSecond = ms
  | .stream => ∃ t, w.streams.get? 0 = some t ∧ t.outbox = ms.map fun m => Frame.wrap (body m)

/-- The task of a request waits for the job that the handler begins for its payload. -/
def Waits (s : Setting) (ts : List Turn) (w : World) (k : Nat) (m : Request) : Prop :=
  ∃ future, w.tasks.get? (own + k) = some (.await future (.respond line (Service.response s.name) m.id)) ∧
    (s.script m.payload).Pursues [] (finished ts) w.promises w.waiting future

/-- Each request waits, or was settled once with what the job for its payload came to. -/
structure Answered (s : Setting) (ts : List Turn) (w : World) : Prop where
  carries : Carries s w ((settled ts).filterMap s.message?)
  each : ∀ k m, (requests ts)[k]? = some m →
    Waits s ts w k m ∧ settledAs ts k = [] ∨
      w.tasks.get? (own + k) = some .finished ∧ ∃ outcome isOpen, settledAs ts k = [⟨k, m.id, outcome, isOpen⟩] ∧
        (s.script m.payload).Yields (finished ts) outcome
  known : ∀ n ∈ settled ts, ∃ m, (requests ts)[n.request]? = some m ∧ m.id = n.id

/-! ## What stays as it is -/

structure Sound (s : Setting) (w : World) : Prop where
  channel : ∃ ch, w.channels.get? line = some ch ∧ ch.transport = s.transport ∧
    (ch.core.disposed = false → ch.core.services.lookup (Service.request s.name) = some (.requests 0))
  hooks : ∀ c ch, w.channels.get? c = some ch → ch.core.hooks = []
  receiver : w.receivers.get? 0 = some s.receiver
  script : w.script = s.script

variable {s : Setting} {w w' : World}

/-- What an event that settles no request leaves alone. -/
structure Kept (s : Setting) (w w' : World) : Prop where
  sound : Sound s w → Sound s w'
  tasks : w'.tasks = w.tasks
  promises : w'.promises = w.promises
  waiting : w'.waiting = w.waiting
  carries : ∀ ms, Carries s w ms → Carries s w' ms

theorem Sound.of_eq (h : Sound s w) (channels : w'.channels = w.channels)
    (receivers : w'.receivers = w.receivers) (script : w'.script = w.script) : Sound s w' :=
  ⟨channels ▸ h.channel, channels ▸ h.hooks, receivers ▸ h.receiver, script ▸ h.script⟩

theorem Kept.of_eq (channels : w'.channels = w.channels) (receivers : w'.receivers = w.receivers)
    (script : w'.script = w.script) (tasks : w'.tasks = w.tasks) (promises : w'.promises = w.promises)
    (waiting : w'.waiting = w.waiting) (pairs : w'.pairs = w.pairs) (streams : w'.streams = w.streams) :
    Kept s w w' where
  sound h := h.of_eq channels receivers script
  tasks := tasks
  promises := promises
  waiting := waiting
  carries ms h := by
    unfold Carries at h ⊢
    rw [pairs, streams]
    exact h

theorem Kept.refl : Kept s w w := .of_eq rfl rfl rfl rfl rfl rfl rfl rfl

theorem Kept.closeCore (c : Nat) (h : Sound s w) :
    Kept s w (w.closeCore c).1 ∧ (w.closeCore c).2 = [] := by
  unfold World.closeCore
  cases hc : w.channels.get? c with
  | none => exact ⟨.refl, rfl⟩
  | some ch =>
    have nohooks := h.hooks c ch hc
    unfold ChannelCore.dispose
    by_cases hd : ch.core.disposed
    · simp only [Option.bind_some, hd, if_true]
      exact ⟨.refl, trivial⟩
    · simp only [Option.bind_some, hd]
      refine ⟨⟨fun h => ⟨?_, ?_, h.receiver, h.script⟩, rfl, rfl, rfl, fun _ h => h⟩, by simp [nohooks]⟩
      · obtain ⟨_, _, _, _⟩ := h.channel
        grind [modifyChannel]
      · have hooks := h.hooks
        grind [modifyChannel]

def Closing : Action → Prop
  | .violation _ _ _ c => c = line
  | .closeChannel c => c = line
  | .closeCore _ => True
  | .cancelStream _ => True
  | _ => False

theorem Kept.wake (source : Source) (h : Kept s w w') : Kept s w (w'.wake source) := by
  rw [wake_eq]
  exact ⟨fun old => (h.sound old).of_eq rfl rfl rfl, h.tasks, h.promises, h.waiting, h.carries⟩

theorem Kept.perform {a : Action} (ha : Closing a) (h : Sound s w) :
    Kept s w (w.perform a).1 ∧ ∀ b ∈ (w.perform a).2, Closing b := by
  cases a with
  | violation policy scope detail c =>
    cases policy with
    | abort =>
      refine ⟨?_, List.forall_mem_nil _⟩
      change Kept s w (w.abort scope detail)
      unfold World.abort
      split <;> exact .of_eq rfl rfl rfl rfl rfl rfl rfl rfl
    | disposeChannel => exact ⟨.refl, List.forall_mem_singleton.mpr ha⟩
  | closeChannel c =>
    cases ha
    obtain ⟨_, hc, ht, -⟩ := h.channel
    change Kept s w (w.closeChannel line).1 ∧ ∀ b ∈ (w.closeChannel line).2, Closing b
    unfold World.closeChannel
    simp only [hc, ht, Setting.transport]
    cases hk : s.kind with
    | pair =>
      dsimp only
      split
      · exact ⟨.refl, List.forall_mem_nil _⟩
      · refine ⟨.wake _ ⟨(·.of_eq rfl rfl rfl), rfl, rfl, rfl, fun ms => ?_⟩, by grind [Closing]⟩
        simp only [Carries, hk]
        grind
    | stream => exact ⟨.refl, by grind [Closing]⟩
  | closeCore c =>
    obtain ⟨kept, none⟩ := Kept.closeCore c h
    exact ⟨kept, none ▸ List.forall_mem_nil _⟩
  | cancelStream _ =>
    refine ⟨.wake _ ⟨(·.of_eq rfl rfl rfl), rfl, rfl, rfl, fun ms => ?_⟩, List.forall_mem_nil _⟩
    unfold Carries World.modifyStream
    cases s.kind with
    | pair => exact id
    | stream => grind
  | _ => exact ha.elim

/-! ## Sending an answer -/

/-- An open channel takes the answer, if it fits. -/
theorem Sound.send (h : Sound s w) (isOpen : w.isOpen line = true) {m : String × Json}
    {ms : List (String × Json)} (carries : Carries s w ms) :
    Sound s (w.sendQuietly line m.1 m.2) ∧ (w.sendQuietly line m.1 m.2).tasks = w.tasks ∧
      (w.sendQuietly line m.1 m.2).promises = w.promises ∧ (w.sendQuietly line m.1 m.2).waiting = w.waiting ∧
      Carries s (w.sendQuietly line m.1 m.2) (ms ++ if s.fits m then [m] else []) := by
  obtain ⟨ch, hc, ht, -⟩ := h.channel
  have undisposed : ch.core.disposed = false := by
    simpa [World.isOpen, hc] using isOpen
  unfold Setting.transport at ht
  unfold Carries at carries ⊢
  cases hk : s.kind with
  | pair =>
    simp only [hk] at carries ht
    obtain ⟨_, hp, rfl⟩ := carries
    have sent : w.sendQuietly line m.1 m.2 = wake (.pair 0)
        { w with pairs := w.pairs.modify 0 fun q => q.enqueue false (m.1, m.2) } := by
      simp [sendQuietly, World.send, hc, ht, undisposed]
    rw [sent, wake_eq]
    exact ⟨h.of_eq rfl rfl rfl, rfl, rfl, rfl, _, by rw [Table.get?_modify_self, hp]; rfl,
      by simp [Setting.fits, hk, Pair.enqueue]⟩
  | stream =>
    simp only [hk] at carries ht
    obtain ⟨t, found, frames⟩ := carries
    by_cases fits : (body m).size ≤ maxFrameSize
    · have encoded : Frame.encode m.1 m.2 = .ok (Frame.wrap (body m)) := if_neg (Nat.not_lt.mpr fits)
      have sent : w.sendQuietly line m.1 m.2 = wake (.stream 0) { w with
          streams := w.streams.modify 0 fun t => { t with outbox := t.outbox ++ [Frame.wrap (body m)] } } := by
        simp [sendQuietly, World.send, hc, ht, undisposed, encoded]
      rw [sent, wake_eq]
      exact ⟨h.of_eq rfl rfl rfl, rfl, rfl, rfl, _, by rw [Table.get?_modify_self, found]; rfl,
        by simp [frames, Setting.fits, hk, fits]⟩
    · obtain ⟨e, encoded⟩ : ∃ e, Frame.encode m.1 m.2 = .error e := ⟨_, if_pos (Nat.not_le.mp fits)⟩
      have sent : w.sendQuietly line m.1 m.2 = w := by
        simp [sendQuietly, World.send, hc, ht, undisposed, encoded]
      rw [sent]
      exact ⟨h, rfl, rfl, rfl, t, found, by simp [frames, Setting.fits, hk, fits]⟩

/-! ## Runs -/

/-- What holds after every run. -/
structure Account (s : Setting) (ts : List Turn) (x : Exchange) : Prop extends Answered s ts x.world where
  sound : Sound s x.world
  agenda : ∀ a ∈ x.agenda, Closing a
  size : x.world.tasks.size = own + (requests ts).length
  asked : ∀ e ∈ x.world.waiting, e.2 < x.world.promises.size

variable {ts : List Turn} {x : Exchange}

theorem requests_snoc (t : Turn) : requests (ts ++ [t]) = requests ts ++ (heard? t).toList := by
  simp only [requests, List.filterMap_append]
  cases h : heard? t <;> simp [h]

theorem finished_snoc (t : Turn) : finished (ts ++ [t]) = finished ts ++ (told? t).toList := by
  simp only [finished, List.filterMap_append]
  cases h : told? t <;> simp [h]

theorem settled_snoc (t : Turn) : settled (ts ++ [t]) = settled ts ++ (settled? t).toList := by
  simp only [settled, List.filterMap_append]
  cases h : settled? t <;> simp [h]

theorem messages_snoc (t : Turn) : (settled (ts ++ [t])).filterMap s.message? =
    (settled ts).filterMap s.message? ++ ((settled? t).bind s.message?).toList := by
  rw [settled_snoc, List.filterMap_append]
  cases settled? t with
  | none => rfl
  | some m => cases h : s.message? m <;> simp [h]

/-- A turn that neither brings nor settles a request. -/
theorem Account.quiet {t : Turn} (h : Account s ts x) (unheard : heard? t = none) (unsettled : settled? t = none)
    (sound : Sound s w') (tasks : w'.tasks = x.world.tasks) (asked : ∀ e ∈ w'.waiting, e.2 < w'.promises.size)
    (jobs : ∀ {j : Script} {f}, j.Pursues [] (finished ts) x.world.promises x.world.waiting f →
      j.Pursues [] (finished (ts ++ [t])) w'.promises w'.waiting f)
    (carries : ∀ ms, Carries s x.world ms → Carries s w' ms) {agenda : List Action}
    (closing : ∀ a ∈ agenda, Closing a) : Account s (ts ++ [t]) ⟨w', agenda⟩ := by
  have requests_eq : requests (ts ++ [t]) = requests ts := by
    rw [requests_snoc, unheard, Option.toList_none, List.append_nil]
  have settled_eq : settled (ts ++ [t]) = settled ts := by
    rw [settled_snoc, unsettled, Option.toList_none, List.append_nil]
  constructor
  · constructor
    · rw [settled_eq]
      exact carries _ h.carries
    · intro k m hk
      rw [requests_eq] at hk
      rw [settledAs, settled_eq, Waits, tasks]
      refine (h.each k m hk).imp (And.imp_left fun ⟨f, task, job⟩ => ⟨f, task, jobs job⟩) ?_
      exact And.imp_right fun ⟨o, isOpen, ended, yields⟩ =>
        ⟨o, isOpen, ended, yields.mono (finished_snoc t ▸ List.subset_append_left ..)⟩
    · simpa only [requests_eq, settled_eq] using h.known
  · exact sound
  · exact closing
  · simpa only [requests_eq, tasks] using h.size
  · exact asked

/-- A turn in which nothing happens to requests and their jobs. -/
theorem Account.idle {t : Turn} (h : Account s ts x) (unheard : heard? t = none) (unsettled : settled? t = none)
    (untold : told? t = none) (kept : Kept s x.world w') {agenda : List Action} (closing : ∀ a ∈ agenda, Closing a) :
    Account s (ts ++ [t]) ⟨w', agenda⟩ := by
  refine h.quiet unheard unsettled (kept.sound h.sound) kept.tasks ?_ (fun job => ?_) kept.carries closing
  · rw [kept.waiting, kept.promises]
    exact h.asked
  · rw [finished_snoc, untold, Option.toList_none, List.append_nil, kept.waiting, kept.promises]
    exact job

theorem Sound.deliver (h : Sound s w) (payload : Json) :
    w.isOpen line = false ∧ w.deliver line (Service.request s.name) payload = (w, []) ∨
    w.isOpen line = true ∧ Request.ofJson? payload = none ∧
      (∃ a, Closing a ∧ w.deliver line (Service.request s.name) payload = (w, [a])) ∨
    w.isOpen line = true ∧ ∃ m, Request.ofJson? payload = some m ∧
      w.deliver line (Service.request s.name) payload = (w.log (.invoked "receiver" m.payload),
        [.spawn (.await (.job (s.script m.payload)) (.respond line (Service.response s.name) m.id))]) := by
  rw [← h.script]
  obtain ⟨ch, hc, -, service⟩ := h.channel
  have receiver := h.receiver
  unfold World.deliver World.isOpen
  simp only [hc, Option.bind_some, ChannelCore.handler?]
  cases hd : ch.core.disposed with
  | true => exact .inl ⟨rfl, rfl⟩
  | false =>
    simp only [service hd, Bool.false_eq_true, if_false, World.onRequest, receiver]
    cases Request.ofJson? payload with
    | none => exact .inr (.inl ⟨rfl, rfl, .violation s.policy _ _ line, rfl, rfl⟩)
    | some m => exact .inr (.inr ⟨rfl, m, rfl, rfl⟩)

section

variable (h : Account s ts x)
include h

/-- The receiver takes a request. -/
theorem Account.hear (payload : Json) (y : Exchange) :
    Account s (ts ++ [⟨x, .hear payload, y⟩]) (step s x (.hear payload)) := by
  obtain ⟨closed, heq⟩ | ⟨isOpen, undecodable, a, closing, heq⟩ | ⟨isOpen, m, decoded, heq⟩ :=
    h.sound.deliver payload
  · have after : step s x (.hear payload) = x := by simp [step, heq]
    rw [after]
    exact h.idle (by simp [heard?, closed]) rfl rfl .refl h.agenda
  · have after : step s x (.hear payload) = ⟨x.world, a :: x.agenda⟩ := by
      simp only [step, heq]
      cases a <;> first | rfl | exact closing.elim
    rw [after]
    refine h.idle (by simp [heard?, isOpen, undecodable]) rfl rfl .refl fun b hb => ?_
    obtain rfl | hb := List.mem_cons.mp hb
    · exact closing
    · exact h.agenda b hb
  · have after : step s x (.hear payload) = ⟨(x.world.log (.invoked "receiver" m.payload)).spawn
        (.await (.job (s.script m.payload)) (.respond line (Service.response s.name) m.id)),
        x.agenda⟩ := by simp only [step, heq]
    rw [after]
    have requests_eq : requests (ts ++ [⟨x, .hear payload, y⟩]) = requests ts ++ [m] := by
      rw [requests_snoc]
      simp [heard?, isOpen, decoded]
    have settled_eq : settled (ts ++ [⟨x, .hear payload, y⟩]) = settled ts := by simp [settled_snoc, settled?]
    have finished_eq : finished (ts ++ [⟨x, .hear payload, y⟩]) = finished ts := by simp [finished_snoc, told?]
    have size := h.size
    constructor
    · constructor
      · rw [settled_eq]
        exact h.carries
      · intro k m' hk
        rw [requests_eq, List.getElem?_append] at hk
        simp only [settledAs, settled_eq, finished_eq, Waits, spawn, World.log, Table.get?_push]
        split at hk
        · rw [if_neg (by omega)]
          exact h.each k m' hk
        · obtain ⟨rfl, rfl⟩ : k = (requests ts).length ∧ m' = m := by grind
          refine .inl ⟨⟨.job (s.script m'.payload), if_pos size.symm, .fresh⟩, ?_⟩
          refine List.filter_eq_nil_iff.mpr fun n hn => ?_
          obtain ⟨_, known, -⟩ := h.known n hn
          grind
      · intro n hn
        rw [settled_eq] at hn
        obtain ⟨m', known, same⟩ := h.known n hn
        refine ⟨m', ?_, same⟩
        rw [requests_eq, List.getElem?_append_left (List.getElem?_eq_some_iff.mp known).1]
        exact known
    · exact h.sound.of_eq rfl rfl rfl
    · exact h.agenda
    · simp [requests_eq, spawn, World.log, size]
      omega
    · exact h.asked

theorem Account.unheard {k : Nat} (none : (requests ts)[k]? = none) :
    x.world.tasks.get? (own + k) = .none := by
  have size := h.size
  have := List.getElem?_eq_none_iff.mp none
  exact Table.get?_of_size_le (by omega)

/-- The task of one request goes on waiting or ends. -/
theorem Account.advance {t : Turn} (unheard : heard? t = none) (untold : told? t = none) {k : Nat} {m : Request}
    (known : (requests ts)[k]? = some m) (fresh : settledAs ts k = []) {task : Task}
    (result : settled? t = none ∧ (∃ f, task = .await f (.respond line (Service.response s.name) m.id) ∧
        (s.script m.payload).Pursues [] (finished ts) w'.promises w'.waiting f) ∨
      (∃ outcome isOpen, settled? t = some ⟨k, m.id, outcome, isOpen⟩ ∧
        (s.script m.payload).Yields (finished ts) outcome) ∧ task = .finished)
    (sound : Sound s w') (tasks : w'.tasks = x.world.tasks.modify (own + k) fun _ => task)
    (asked : ∀ e ∈ w'.waiting, e.2 < w'.promises.size)
    (jobs : ∀ {j : Script} {f}, j.Pursues [] (finished ts) x.world.promises x.world.waiting f →
      j.Pursues [] (finished ts) w'.promises w'.waiting f)
    (carries : Carries s w' ((settled (ts ++ [t])).filterMap s.message?)) :
    Account s (ts ++ [t]) ⟨w', x.agenda⟩ := by
  have requests_eq : requests (ts ++ [t]) = requests ts := by
    rw [requests_snoc, unheard, Option.toList_none, List.append_nil]
  have finished_eq : finished (ts ++ [t]) = finished ts := by
    rw [finished_snoc, untold, Option.toList_none, List.append_nil]
  obtain ⟨_, there⟩ : ∃ task, x.world.tasks.get? (own + k) = some task := by
    obtain ⟨⟨f, there, -⟩, -⟩ | ⟨there, -⟩ := h.each k m known <;> exact ⟨_, there⟩
  constructor
  · refine ⟨carries, fun k' m' hk' => ?_, fun n hn => ?_⟩
    · rw [requests_eq] at hk'
      simp only [settledAs, settled_snoc, List.filter_append, Waits, tasks, finished_eq] at fresh ⊢
      by_cases hne : k = k'
      · subst hne
        cases known.symm.trans hk'
        rw [fresh, Table.get?_modify_self, there]
        obtain ⟨unsettled, f, rfl, job⟩ | ⟨⟨o, isOpen, settles, yields⟩, rfl⟩ := result
        · exact .inl ⟨⟨f, rfl, job⟩, by rw [unsettled]; rfl⟩
        · exact .inr ⟨rfl, o, isOpen, by simp [settles], yields⟩
      · rw [Table.get?_modify_of_ne (by omega)]
        have others : (settled? t).toList.filter (fun m => m.request = k') = [] := by
          refine List.filter_eq_nil_iff.mpr fun m hm => ?_
          grind
        rw [others, List.append_nil]
        exact (h.each k' m' hk').imp_left (And.imp_left fun ⟨f, task, job⟩ => ⟨f, task, jobs job⟩)
    · rw [settled_snoc] at hn
      rw [requests_eq]
      obtain hn | hn := List.mem_append.mp hn
      · exact h.known n hn
      · refine ⟨m, ?_⟩
        grind
  · exact sound
  · exact h.agenda
  · rw [requests_eq, tasks, Table.size_modify]
    exact h.size
  · exact asked

theorem Account.look (k : Nat) (y : Exchange) : Account s (ts ++ [⟨x, .look k, y⟩]) (step s x (.look k)) := by
  have idle : x.world.tasks.get? (own + k) = none ∨ x.world.tasks.get? (own + k) = some .finished →
      Account s (ts ++ [⟨x, .look k, y⟩]) (step s x (.look k)) := by
    intro resting
    have after : step s x (.look k) = x := by
      obtain none | done := resting
      · simp [step, poll, none]
      · simp [step, poll, done]
    rw [after]
    refine h.idle rfl ?_ rfl .refl h.agenda
    obtain none | done := resting
    · simp [settled?, none]
    · simp [settled?, done]
  cases known : (requests ts)[k]? with
  | none => exact idle (.inl (h.unheard known))
  | some m =>
    obtain ⟨⟨f, task, job⟩, fresh⟩ | ⟨done, -⟩ := h.each k m known
    · obtain ⟨f', r, hl, yields⟩ | ⟨f', ps, wt, hl, job', begun⟩ := look_pursues job nofun h.asked
      · have settles : settled? ⟨x, .look k, y⟩ = some ⟨k, m.id, outcomeOf r, x.world.isOpen line⟩ := by
          simp [settled?, task, hl]
        have sound : Sound s (finishTask (own + k) x.world) := h.sound.of_eq rfl rfl rfl
        have after : step s x (.look k) =
            ⟨if x.world.isOpen line then
                (finishTask (own + k) x.world).sendQuietly line
                  (s.answer m.id (outcomeOf r)).1 (s.answer m.id (outcomeOf r)).2
              else finishTask (own + k) x.world, x.agenda⟩ := by
          simp [step, poll, task, isMoot, hl, continueWith, Setting.answer]
          rfl
        rw [after]
        cases isOpen : x.world.isOpen line with
        | true =>
          rw [if_pos rfl]
          obtain ⟨sound', tasks, promises, waiting, carries⟩ :=
            sound.send (m := s.answer m.id (outcomeOf r)) isOpen h.carries
          refine h.advance rfl rfl known fresh (.inr ⟨⟨_, _, settles, yields⟩, rfl⟩) sound' tasks ?_ (fun job => ?_) ?_
          · rw [waiting, promises]
            exact h.asked
          · rw [waiting, promises]
            exact job
          · have message : (s.message? ⟨k, m.id, outcomeOf r, true⟩).toList =
                if s.fits (s.answer m.id (outcomeOf r)) then [s.answer m.id (outcomeOf r)] else [] := by
              simp only [Setting.message?, true_and]
              split <;> rfl
            rw [messages_snoc, settles, isOpen, Option.bind_some, message]
            exact carries
        | false =>
          rw [if_neg Bool.false_ne_true]
          refine h.advance rfl rfl known fresh (.inr ⟨⟨_, _, settles, yields⟩, rfl⟩) sound rfl h.asked id ?_
          have silent : s.message? ⟨k, m.id, outcomeOf r, false⟩ = none := by simp [Setting.message?]
          rw [messages_snoc, settles, isOpen, Option.bind_some, silent, Option.toList_none, List.append_nil]
          exact h.carries
      · have unsettled : settled? ⟨x, .look k, y⟩ = none := by simp [settled?, task, hl]
        have after : step s x (.look k) = ⟨{ x.world with
            promises := ps, waiting := wt
            tasks := x.world.tasks.modify (own + k) fun _ =>
              .await f' (.respond line (Service.response s.name) m.id) }, x.agenda⟩ := by
          simp [step, poll, task, isMoot, hl]
        rw [after]
        refine h.advance rfl rfl known fresh (.inl ⟨unsettled, f', rfl, job'⟩) (h.sound.of_eq rfl rfl rfl) rfl ?_
          (fun job => ?_) ?_
        · have asked := h.asked
          rcases begun with ⟨rfl, rfl⟩ | ⟨c, token, rfl, rfl⟩
          · exact asked
          · grind
        · refine job.mono (fun _ _ => id) ?_ (fun q small token => ?_) fun q small _ => ?_ <;>
            rcases begun with ⟨rfl, rfl⟩ | ⟨c, _, rfl, rfl⟩
          · exact Nat.le_refl _
          · simp
          · rfl
          · simp [Nat.ne_of_lt small]
          · rfl
          · exact outcomeIn_congr (Table.get?_push_of_lt small c)
        · rw [settled_snoc, unsettled, Option.toList_none, List.append_nil]
          exact h.carries
    · exact idle (.inr done)

theorem Account.step (e : Event) : Account s (ts ++ [⟨x, e, step s x e⟩]) (step s x e) := by
  cases e with
  | hear payload => exact h.hear payload _
  | look k => exact h.look k _
  | finish token outcome =>
    obtain ⟨ps, q, heq, size, mine, others⟩ := finishToken_spec token outcome x.world
    have sound : Sound s (x.world.finishToken token outcome).1 := heq ▸ h.sound.of_eq rfl rfl rfl
    refine h.quiet (t := ⟨x, .finish token outcome, _⟩) rfl rfl sound (by rw [heq]) (fun e he => ?_) (fun job => ?_)
      (fun _ carries => ?_) h.agenda
    · rw [heq] at he ⊢
      exact size ▸ h.asked e (List.mem_filter.mp he).1
    · rw [finished_snoc, heq]
      exact job.finish size mine others
    · rw [heq]
      exact carries
  | elapse ms =>
    have kept : Kept s x.world { x.world with clock := x.world.clock + ms } := .of_eq rfl rfl rfl rfl rfl rfl rfl rfl
    exact h.idle rfl rfl rfl kept h.agenda
  | close =>
    refine h.idle rfl rfl rfl .refl fun a ha => ?_
    obtain rfl | ha := List.mem_cons.mp ha
    · exact rfl
    · exact h.agenda a ha
  | proceed =>
    obtain ⟨_, _ | ⟨a, _⟩⟩ := x
    · exact h.idle rfl rfl rfl .refl h.agenda
    · obtain ⟨kept, closing⟩ := Kept.perform (h.agenda a (.head _)) h.sound
      refine h.idle rfl rfl rfl kept fun b hb => ?_
      exact (List.mem_append.mp hb).elim (closing b) fun hb => h.agenda b (.tail _ hb)

end

theorem Account.opening (s : Setting) : Account s [] (opening s) := by
  obtain ⟨kind, name, _, _⟩ := s
  have services : (Assoc.set (Service.request name) (Handler.requests 0) []).lookup (Service.request name) =
      some (.requests 0) := by grind
  cases kind with
  | pair =>
    refine ⟨⟨⟨_, rfl, rfl⟩, nofun, nofun⟩, ⟨⟨_, rfl, rfl, fun _ => services⟩, fun c ch hc => ?_, rfl, rfl⟩,
      List.forall_mem_nil _, rfl, List.forall_mem_nil _⟩
    match c, hc with
    | 0, hc => cases hc; rfl
    | 1, hc => cases hc; rfl
    | c + 2, hc => cases hc
  | stream =>
    refine ⟨⟨⟨_, rfl, rfl⟩, nofun, nofun⟩, ⟨⟨_, rfl, rfl, fun _ => services⟩, fun c ch hc => ?_, rfl, rfl⟩,
      List.forall_mem_nil _, rfl, List.forall_mem_nil _⟩
    match c, hc with
    | 0, hc => cases hc; rfl
    | c + 1, hc => cases hc

theorem Account.of_run (s : Setting) (es : List Event) :
    Account s (Runs.turns (Answers.step s) (Answers.opening s) es)
      (Runs.run (Answers.step s) (Answers.opening s) es) :=
  Runs.induction (.opening s) (fun _ _ e h => h.step e) es

end Answers

end Switchboard
