import Switchboard.Proofs.Preservation

/-!
# Tasks and owners keep a world orderly

Letting a task go on, and calling any of the functions that the owners of objects may call, gives an
orderly world, for a ledger that may have grown, and actions that fit it.
-/

namespace Switchboard

open World

open Exchange History

variable {H : History} {L L' : Ledger} {N N' : Stock} {w w' : World}

/-! ## Looking at futures -/

theorem Orderly.setDesk (h : Orderly H L N w) (d : Nat) (desk : Desk) :
    Orderly H L N (w.setDesk d desk) := { h with }

theorem Orderly.afterLook (h : Orderly H L N w) (d : Nat) (label : String)
    (result : Desk × List Errand × Option (Except Fault Unit)) :
    Orderly H L N (w.afterLook d label result).1 := by
  obtain ⟨desk, errands, _⟩ := result
  have run : Orderly H L N (errands.foldl (fun acc e => acc.runErrand d label e) (w.setDesk d desk)) := by
    have start := h.setDesk d desk
    revert start
    generalize w.setDesk d desk = w'
    intro start
    induction errands generalizing w' with
    | nil => exact start
    | cons e _ ih =>
      refine ih _ ?_
      cases e with
      | display | close => exact start.log _
      | store => exact start.spawn trivial
  unfold World.afterLook
  dsimp only
  split
  · exact run
  · exact run.wake _

/-- The futures that tasks of an orderly world wait for, apart from calls that the backend has not
begun. -/
def Plain (L : Ledger) (f : Future) : Prop :=
  Begun L f ∨ (∃ s, f = .readiness s) ∨ (∃ p, f = .promise p) ∨ ∃ d c, f = .check d c

variable {f : Future}

theorem Orderly.lookAt (h : Orderly H L N w) (hf : Plain L f) :
    Orderly H L N (w.lookAt f).1 := by
  obtain (⟨_, rfl⟩ | ⟨_, _, rfl⟩ | ⟨p, rfl, -⟩) | ⟨s, rfl⟩ | ⟨p, rfl⟩ | ⟨_, _, rfl⟩ := hf
  · exact h
  · exact h
  · exact h
  · cases s with
    | always => exact h
    | tracker =>
      unfold lookAt
      dsimp only
      split
      · exact h
      · split <;> exact h
  · exact h
  · unfold lookAt
    dsimp only
    split
    · exact h
    · exact h.afterLook _ _ _

theorem World.look_of_plain (hf : Plain L f) (w : World) :
    w.look f = ((w.lookAt f).1, f, (w.lookAt f).2) := by
  obtain (⟨_, rfl⟩ | ⟨_, _, rfl⟩ | ⟨p, rfl, -⟩) | ⟨_, rfl⟩ | ⟨p, rfl⟩ | ⟨_, _, rfl⟩ := hf <;> rfl

/-- A call that the backend has begun is a job on which nothing depends but what is reported of it. -/
theorem Regular.begin (h : Regular H L w) (script : Script) :
    ∃ L', L.Grows H none [] L' ∧ Regular H L' (w.begin script).1 ∧ Begun L' (w.begin script).2 := by
  cases script with
  | fail | reply | echo => exact ⟨L, .refl .., h, .inl ⟨_, rfl⟩⟩
  | sleep => exact ⟨L, .refl .., h, .inr (.inl ⟨_, _, rfl⟩)⟩
  | wait =>
    have made := h.promise (ρ := .free) (o := .error (.other "abandoned")) trivial trivial
    have entered := L.promise_promised w.promises.size .free
    refine ⟨_, .promised (ρ := .free) h.fresh_promise none [] nofun nofun, ?_,
      .inr (.inr ⟨_, rfl, entered⟩)⟩
    refine Orderly.regular (N := (World.promise _ _).stock) ?_ made.coherent made.bounded
    refine { made.orderly with waiting := fun e he => ?_ }
    rcases List.mem_append.mp he with he | he
    · exact made.orderly.waiting e he
    · rw [List.mem_singleton.mp he]
      exact entered

variable {b : Nat}

/-- Looking at a call that the backend has not begun begins it. -/
theorem World.look_dispatch {w : World} {backend : Backend}
    (hb : w.backends.get? b = some backend) (h : Nat) (call : Call) :
    w.look (.dispatch b h call) =
      (((w.begin (w.serve backend h call)).1.lookAt (w.begin (w.serve backend h call)).2).1,
        (w.begin (w.serve backend h call)).2,
        ((w.begin (w.serve backend h call)).1.lookAt (w.begin (w.serve backend h call)).2).2) := by
  simp only [look, beginJob, hb]

theorem World.look_dispatch_none {w : World} (hb : w.backends.get? b = none) (h : Nat)
    (call : Call) : w.look (.dispatch b h call) = (w, .dispatch b h call, none) := by
  simp only [look, beginJob, hb, lookAt]

theorem Regular.look_dispatch (h : Regular H L w) (b h' : Nat) (call : Call) :
    ∃ L', L.Grows H none [] L' ∧ Regular H L' (w.look (.dispatch b h' call)).1 ∧
      ((w.look (.dispatch b h' call)).2.1 = .dispatch b h' call ∨
        Begun L' (w.look (.dispatch b h' call)).2.1) := by
  cases hb : w.backends.get? b with
  | none =>
    rw [World.look_dispatch_none hb]
    exact ⟨L, .refl .., h, .inl rfl⟩
  | some backend =>
    rw [World.look_dispatch hb]
    obtain ⟨L', grows, regular, begun⟩ := h.begin (w.serve backend h' call)
    exact ⟨L', grows, (regular.orderly.lookAt (.inl begun)).regular regular.coherent regular.bounded,
      .inr begun⟩

/-! ## Tasks -/

def World.carryOn (t : Nat) (κ : Continuation) (looked : World × Future × Option Settled) :
    World × List Action :=
  match looked.2.2 with
  | none => ({ looked.1 with tasks := looked.1.tasks.modify t fun _ => .await looked.2.1 κ }, [])
  | some r => (looked.1.finishTask t).continueWith κ t r

variable {t : Nat}

theorem World.continueWith_gate {w : World} {g : Nat} {r : Settled} :
    w.continueWith (.gate g) t r =
      match outcomeOf r with
      | .ok _ => w.openGate g
      | .error e => w.failGate g e := rfl

theorem World.poll_await {w : World} {κ : Continuation}
    (ht : w.tasks.get? t = some (.await f κ)) (hm : w.isMoot κ = false) :
    w.poll t = carryOn t κ (w.look f) := by
  simp only [poll, ht, hm, Bool.false_eq_true, if_false]
  generalize w.look f = looked
  obtain ⟨_, _, r⟩ := looked
  cases r <;> rfl

theorem Orderly.setTask (h : Orderly H L N w) {task : Task} (ht : TaskOk H L task) :
    Orderly H L N { w with tasks := w.tasks.modify t fun _ => task } :=
  { h with tasks := h.tasks.modify fun _ _ _ => ht }

theorem Orderly.finishTask (h : Orderly H L N w) (t : Nat) : Orderly H L N (w.finishTask t) :=
  h.setTask (show TaskOk H L .finished from trivial)

variable {q : Nat}

variable {r : Settled}

/-- What a promise is kept with is passed on. -/
theorem LinkOk.kept (hf : LinkOk H L f q) (h : Orderly H L N w) (hr : (w.lookAt f).2 = some r) :
    ∀ ρ, L.promise q = some ρ → Kept H L ρ (World.outcomeOf r) := by
  intro ρ hρ
  have outcome : ∀ p ρ', f = .promise p → L.promise p = some ρ' → Kept H L ρ' (World.outcomeOf r) := by
    rintro p ρ' rfl hρ'
    obtain ⟨o, ho, rfl⟩ := Option.map_eq_some_iff.mp hr
    obtain ⟨cell, hcell, ho⟩ := Option.bind_eq_some_iff.mp ho
    have ok := of_eq_some (h.promises p cell hcell) hρ'
    exact ok.outcome o ho
  obtain ⟨k, n, hq, ⟨p, hp, hc⟩ | ⟨_, ρ', rfl, hk, hl⟩⟩ | ⟨p, k, n, hp, hc, hq, hg⟩ | ⟨hq, -⟩ := hf
  · cases hρ.symm.trans hq
    exact outcome p (.call k n) hp hc
  · cases hρ.symm.trans hq
    obtain rfl := Option.some.inj hr
    exact ⟨ρ', hk, .inl hl⟩
  · cases hρ.symm.trans hq
    obtain ⟨ρ', hk, hf⟩ := outcome p _ hp hc
    exact ⟨ρ', hk, .inr (.inl ⟨hg, hf⟩)⟩
  · cases hρ.symm.trans hq
    trivial

theorem LinkOk.plain (hf : LinkOk H L f q) : Plain L f := by
  obtain ⟨k, n, -, ⟨p, rfl, -⟩ | ⟨_, _, rfl, -⟩⟩ | ⟨p, k, n, rfl, -⟩ | ⟨-, hb⟩ := hf
  · exact .inr (.inr (.inl ⟨p, rfl⟩))
  · exact .inl (.inl ⟨_, rfl⟩)
  · exact .inr (.inr (.inl ⟨p, rfl⟩))
  · exact .inl hb

theorem Regular.poll_resolve (h : Regular H L w)
    (ht : w.tasks.get? t = some (.await f (.resolve q))) : Sustained H none L (w.poll t) := by
  have link : LinkOk H L f q := h.orderly.tasks t _ ht
  have looked := h.orderly.lookAt link.plain
  have task : TaskOk H L (.await f (.resolve q)) := link
  rw [poll_await ht rfl, look_of_plain link.plain]
  cases hr : (w.lookAt f).2 with
  | none => exact h.sustained (looked.setTask task) .nil
  | some =>
    refine h.sustained (Orderly.resolve (looked.finishTask t) ?_) .nil
    exact link.kept h.orderly hr

variable {c : Nat}

variable {service : String} {id : Nat}

theorem AnswerOk.cases (h : AnswerOk H L f c service id) :
    Plain L f ∨ ∃ b h' call, f = .dispatch b h' call ∧ c = far ∧
      service = Service.response (Service.callFunction h') := by
  obtain ⟨hc, h', hs, ⟨b, call, rfl, -⟩ | hb⟩ | ⟨_, _, -, -, -, ⟨p, _, call, rfl, -⟩ | ⟨-, _, rfl, -⟩⟩ := h
  · exact .inr ⟨b, h', call, rfl, hc, hs⟩
  · exact .inl (.inl hb)
  · exact .inl (.inr (.inr (.inl ⟨p, rfl⟩)))
  · exact .inl (.inl (.inl ⟨_, rfl⟩))

theorem Regular.poll_respond (h : Regular H L w)
    (ht : w.tasks.get? t = some (.await f (.respond c service id))) :
    Sustained H none L (w.poll t) := by
  have answer : AnswerOk H L f c service id := h.orderly.tasks t _ ht
  -- Whatever the task waits for now, it can go on waiting for it or send what came of it.
  have after : ∀ (L' : Ledger) (looked : World × Future × Option Settled),
      L.Grows H none [] L' → Regular H L' looked.1 → AnswerOk H L' looked.2.1 c service id →
      Sustained H none L (carryOn t (.respond c service id) looked) := by
    rintro L' ⟨w', f', result⟩ grows regular ok
    cases result with
    | none =>
      have task : TaskOk H L' (.await f' (.respond c service id)) := ok
      exact ⟨L', grows, (regular.orderly.setTask task).regular regular.coherent regular.bounded, .nil⟩
    | some =>
      have finished := regular.orderly.finishTask t
      refine ⟨L', grows, Orderly.regular (N := w'.stock) ?_ regular.coherent regular.bounded, .nil⟩
      show Orderly H L' w'.stock (if _ then _ else _)
      split
      · exact finished.send _ _ _
      · exact finished
  rw [poll_await ht rfl]
  obtain plain | ⟨b, h', call, rfl, hc, hs⟩ := answer.cases
  · rw [look_of_plain plain]
    exact after L _ (.refl ..) ((h.orderly.lookAt plain).regular h.coherent h.bounded) answer
  · obtain ⟨L', grows, regular, same | begun⟩ := h.look_dispatch b h' call
    · refine after L' _ grows regular ?_
      rw [same]
      exact answer.mono (.refl H) grows.toExtends
    · exact after L' _ grows regular (.inl ⟨hc, h', hs, .inr begun⟩)

theorem GateFuture.plain {γ : GateRole} (h : GateFuture L γ f) : Plain L f := by
  cases γ with
  | readiness =>
    obtain ⟨_, -, rfl⟩ := h
    exact .inr (.inl ⟨_, rfl⟩)
  | permission => exact h.imp id fun hc => .inr (.inr hc)

def Ledger.readied (L : Ledger) (s : ReadinessSource) : Ledger :=
  { L with ready := fun s' => L.ready s' ∨ s' = s }

theorem Ledger.Grows.readied (L : Ledger) (s : ReadinessSource) (cause : Option Role)
    (more : List Action) : L.Grows H cause more (L.readied s) :=
  { Ledger.Grows.refl H cause more L with ready := .inl }

variable {s : ReadinessSource}

theorem Regular.readied (h : Regular H L w) (hs : w.isReady s = true) :
    Regular H (L.readied s) w := by
  have ext : L.Extends (L.readied s) := (Ledger.Grows.readied (H := H) L s none []).toExtends
  refine ⟨?_, { h.coherent with }, { h.bounded with ready := ?_ }⟩
  · refine h.orderly.mono (.refl H) ext h.orderly.closed ?_ h.orderly.left h.orderly.held h.orderly.shut
    rintro t cell hcell (hr | rfl)
    · exact h.orderly.ready t cell hcell hr
    · simpa [isReady, hcell] using hs
  · rintro t (hr | rfl)
    · exact h.bounded.ready hr
    · cases hcell : w.trackers.get? t with
      | none => simp [isReady, hcell] at hs
      | some => exact Table.lt_size_of_get? hcell

theorem World.lookAt_readiness {w : World}
    (ht : w.trackers.All fun _ => TrackerOk) (hr : (w.lookAt (.readiness s)).2 = some r) :
    (w.lookAt (.readiness s)).1 = w ∧ ((∃ v, outcomeOf r = .ok v ∧ w.isReady s = true) ∨
        ∃ reason, outcomeOf r = .error (.notReady reason)) := by
  cases s with
  | always =>
    obtain rfl := Option.some.inj hr
    exact ⟨rfl, .inl ⟨_, rfl, rfl⟩⟩
  | tracker t =>
    unfold lookAt at hr ⊢
    cases hcell : w.trackers.get? t with
    | none => simp [hcell] at hr
    | some cell =>
      simp only [hcell] at hr ⊢
      cases hstate : cell.state with
      | pending =>
        simp only [hstate, Readiness.outcome?] at hr ⊢
        split at hr
        · cases hr
        · obtain rfl := Option.some.inj hr
          exact ⟨trivial, .inr ⟨_, rfl⟩⟩
      | ready =>
        simp only [hstate, Readiness.outcome?] at hr ⊢
        obtain rfl := Option.some.inj hr
        exact ⟨trivial, .inl ⟨_, rfl, by simp [isReady, hcell, hstate]⟩⟩
      | failed e =>
        simp only [hstate, Readiness.outcome?] at hr ⊢
        obtain rfl := Option.some.inj hr
        obtain ⟨reason, rfl⟩ := ht t cell hcell e hstate
        exact ⟨trivial, .inr ⟨reason, rfl⟩⟩

theorem Sustained.of_regular {L₁ : Ledger} {cause : Option Role} {result : World × List Action}
    (grows : L.Grows H cause [] L₁) (h : Sustained H cause L₁ result) : Sustained H cause L result := by
  obtain ⟨L', grows', regular, ok⟩ := h
  exact ⟨L', (grows.of_nil _).trans grows', regular, ok⟩

variable {g : Nat}

theorem Regular.poll_gate (h : Regular H L w) (ht : w.tasks.get? t = some (.await f (.gate g)))
    (hverdict : ∀ k r cell, L.gate g = some (.permission k) → w.isMoot (.gate g) = false →
      (w.look f).2.2 = some r → (w.look f).1.gates.get? g = some cell → cell.core.phase = .waiting →
      H.verdict k (World.outcomeOf r)) :
    Sustained H none L (w.poll t) := by
  obtain ⟨γ, hγ, future⟩ : ∃ γ, L.gate g = some γ ∧ GateFuture L γ f := h.orderly.tasks t _ ht
  cases hm : w.isMoot (.gate g) with
  | true =>
    have moot : w.poll t = (w.finishTask t, []) := by simp only [World.poll, ht, hm, if_true]
    exact moot ▸ h.sustained (h.orderly.finishTask t) .nil
  | false =>
    have looked := h.orderly.lookAt future.plain
    have task : TaskOk H L (.await f (.gate g)) := ⟨γ, hγ, future⟩
    rw [look_of_plain future.plain] at hverdict
    rw [poll_await ht hm, look_of_plain future.plain]
    unfold carryOn
    cases hr : (w.lookAt f).2 with
    | none => exact h.sustained (looked.setTask task) .nil
    | some r =>
      have finished := (looked.finishTask t).regular h.coherent h.bounded
      dsimp only
      rw [World.continueWith_gate]
      cases γ with
      | permission k =>
        split
        · next v ho =>
          refine finished.openGate fun γ' cell hγ' hcell waiting => ?_
          cases hγ.symm.trans hγ'
          exact ⟨v, ho ▸ hverdict k r cell hγ hm hr hcell waiting⟩
        · next _ ho =>
          refine finished.failGate fun γ' cell hγ' hcell waiting => ?_
          cases hγ.symm.trans hγ'
          have verdict := hverdict k r cell hγ hm hr hcell waiting
          rwa [ho] at verdict
      | readiness =>
        obtain ⟨η, hη, rfl⟩ := future
        obtain ⟨hsame, ⟨v, ho, ready⟩ | ⟨reason, ho⟩⟩ := lookAt_readiness h.orderly.trackers hr
        · rw [ho]
          have noted := Regular.readied finished (s := η.source) (by rw [hsame]; exact ready)
          refine Sustained.of_regular (.readied L η.source none []) (noted.openGate fun γ' _ hγ' _ _ => ?_)
          cases hγ.symm.trans hγ'
          exact ⟨η, hη, .inr rfl⟩
        · rw [ho]
          refine finished.failGate fun γ' _ hγ' _ _ => ?_
          cases hγ.symm.trans hγ'
          exact ⟨reason, rfl⟩

/-- Letting a task of a regular world go on leads to a regular world. -/
theorem Regular.poll (h : Regular H L w) (t : Nat)
    (hverdict : ∀ f g k r cell, w.tasks.get? t = some (.await f (.gate g)) →
      L.gate g = some (.permission k) → w.isMoot (.gate g) = false → (w.look f).2.2 = some r →
      (w.look f).1.gates.get? g = some cell → cell.core.phase = .waiting →
      H.verdict k (World.outcomeOf r)) :
    Sustained H none L (w.poll t) := by
  cases ht : w.tasks.get? t with
  | none =>
    have same : w.poll t = (w, []) := by simp only [World.poll, ht]
    exact same ▸ h.unchanged
  | some task =>
    have ok := h.orderly.tasks t task ht
    cases task with
    | await f κ =>
      cases κ with
      | resolve => exact h.poll_resolve ht
      | respond => exact h.poll_respond ht
      | gate g => exact h.poll_gate ht fun k r cell => hverdict f g k r cell ht
      | report => exact absurd ok id
    | finished =>
      have same : w.poll t = (w, []) := by simp only [World.poll, ht]
      exact same ▸ h.unchanged
    | pump p second =>
      have next : w.poll t = (w, [.pumpNext p second]) := by simp only [World.poll, ht]
      exact next ▸ h.sustained h.orderly (.single trivial)
    | storeGrant =>
      unfold World.poll
      simp only [ht]
      exact h.sustained ((h.orderly.finishTask t).setDesk _ _) .nil
    | backendCreated | backendDeleted =>
      unfold World.poll
      simp only [ht]
      exact h.sustained { h.orderly.finishTask t with } .nil
    | readLoop | writeLoop | pingLoop | rawRead | rawWrite => exact absurd ok id

/-! ## What owners do -/

theorem Regular.newPair (h : Regular H L w) (first second : String) :
    Regular H L (w.newPair first second).1 := by
  have size := h.orderly.size
  have fresh : ∀ c, w.channels.size ≤ c → ¬ L.closed c := fun c hc hn =>
    absurd (h.bounded.closed hn) (Nat.not_lt.mpr hc)
  have empty : ∀ c, ChannelOk L c {} := fun _ => ⟨nofun, nofun, nofun⟩
  have linked : Orderly H L w.stock { w with
      channels := (w.channels.push { label := first, transport := .paired w.pairs.size false }).push
        { label := second, transport := .paired w.pairs.size true }
      pairs := w.pairs.push { first := w.channels.size, second := w.channels.size + 1 } } :=
    { h.orderly with
      transport := (h.orderly.transport.push (by simp; omega)).push (by simp; omega)
      ends := h.orderly.ends.push ⟨size, by rw [size]⟩
      size := by simp; omega
      channels := (h.orderly.channels.push (empty _)).push (empty _)
      closed := (h.orderly.closed.push fun hn => absurd hn (fresh _ (Nat.le_refl _))).push
        fun hn => absurd hn (fresh _ (by simp))
      channelCount := Nat.le_trans h.orderly.channelCount (by simp; omega) }
  have pump : ∀ second, TaskOk H L (.pump w.pairs.size second) := fun _ => trivial
  exact ((linked.spawn (pump true)).spawn (pump false)).regular h.coherent h.bounded

def Ledger.attached (L : Ledger) (h : Nat) (η : HandlerRole) : Ledger :=
  { L with gate := Ledger.put L.gate η.gate (.readiness h), handler := Ledger.put L.handler h η }

def Ledger.admitted (L : Ledger) (h : Nat) (η : HandlerRole) (v k : Nat) (ρ : ClientRole) : Ledger :=
  { L.attached h η with
    receiver := Ledger.put L.receiver v (.client k), client := Ledger.put L.client k ρ }

variable {h : Nat} {η : HandlerRole}

theorem Ledger.Extends.attached (hg : L.gate η.gate = none)
    (hh : L.handler h = none) : L.Extends (L.attached h η) :=
  { Ledger.Extends.refl L with gate := Ledger.put_of_some hg, handler := Ledger.put_of_some hh }

theorem Orderly.attached (ho : Orderly H L N w)
    (hg : L.gate η.gate = none) (hh : L.handler h = none) : Orderly H (L.attached h η) N w := by
  have old : ∀ {g k}, (L.attached h η).gate g = some (.permission k) → L.gate g = some (.permission k) :=
    fun hp => (Ledger.put_eq_some.mp hp).elim (fun e => nomatch e.2) And.right
  exact ho.mono (.refl H) (.attached hg hh) ho.closed ho.ready ho.left
    (fun k cell hcell g hp => ho.held k cell hcell g (old hp))
    (fun g cell hcell k hp hl => ho.shut g cell hcell k (old hp) hl)

variable {k : Nat}

theorem Ledger.permission_of_put {f : Nat → Option GateRole} {g' : Nat}
    (hg : Ledger.put f g (.readiness h) g' = some (.permission k)) : f g' = some (.permission k) :=
  (Ledger.put_eq_some.mp hg).elim (fun e => nomatch e.2) And.right

theorem Regular.newServerHandler (h : Regular H L w) (s : ReadinessSource) (name : String) :
    ∃ L', L.Grows H none [] L' ∧ Regular H L' (w.newServerHandler near s name).1 := by
  let η : HandlerRole := { gate := w.gates.size, source := s, owner := none }
  let L' := L.attached w.serverHandlers.size η
  have hg : L.gate η.gate = none := Ledger.fresh h.bounded.gate
  have hh : L.handler w.serverHandlers.size = none := Ledger.fresh h.bounded.handler
  have ext : L.Extends L' := .attached hg hh
  have hη : L'.handler w.serverHandlers.size = some η := Ledger.put_self ..
  have coherent : L'.Coherent := { h.coherent with
    client := fun hk => by
      obtain ⟨hend, η', hη', ho⟩ := h.coherent.client hk
      exact ⟨hend, η', ext.handler hη', ho⟩
    handler := fun hh => by
      rcases Ledger.put_eq_some.mp hh with ⟨rfl, rfl⟩ | ⟨-, hh⟩
      · exact ⟨Ledger.put_self .., nofun⟩
      · exact ⟨ext.gate (h.coherent.handler hh).1, (h.coherent.handler hh).2⟩
    permission := fun hp => h.coherent.permission (Ledger.permission_of_put hp)
    single := fun h₁ h₂ => h.coherent.single (Ledger.permission_of_put h₁) (Ledger.permission_of_put h₂)
    readiness := fun hr => by
      rcases Ledger.put_eq_some.mp hr with ⟨rfl, heq⟩ | ⟨-, hr⟩
      · cases heq
        exact ⟨η, hη, rfl⟩
      · exact (h.coherent.readiness hr).imp fun _ hh => ⟨ext.handler hh.1, hh.2⟩ }
  have final := (h.orderly.attached hg hh).newServerHandler coherent hη rfl name
  refine ⟨L', { Ledger.Grows.refl H none [] L with gate := ext.gate, handler := ext.handler },
    final.regular coherent { h.bounded with
      gate := Ledger.lt_of_put h.bounded.gate (Nat.le_succ _) (Nat.lt_succ_self _)
      handler := Ledger.lt_of_put h.bounded.handler (Nat.le_succ _) (Nat.lt_succ_self _) }⟩

variable {v : Nat} {ρ : ClientRole}

theorem Ledger.Extends.admitted (hg : L.gate η.gate = none) (hh : L.handler h = none) (hv : L.receiver v = none)
    (hk : L.client k = none) : L.Extends (L.admitted h η v k ρ) :=
  { Ledger.Extends.attached hg hh with
    receiver := Ledger.put_of_some hv, client := Ledger.put_of_some hk }

theorem Ledger.Coherent.admitted (hL : L.Coherent)
    (hg : L.gate η.gate = none) (hh : L.handler h = none) (hv : L.receiver v = none)
    (hk : L.client k = none) (hη : η.owner = some k) (hρ : ρ.handler = h)
    (hend : isHandlerEnd ρ.channel = true) (hc : ∀ k' ρ', L.client k' = some ρ' → ρ'.channel ≠ ρ.channel)
    (hl : ¬ L.leaving k) : (L.admitted h η v k ρ).Coherent := by
  have ext : L.Extends (L.admitted h η v k ρ) := .admitted hg hh hv hk
  have known : ∀ {k'}, (∃ ρ', L.client k' = some ρ') → ∃ ρ', (L.admitted h η v k ρ).client k' = some ρ' :=
    fun hk' => hk'.imp fun _ hρ' => ext.client hρ'
  refine { hL with
    client := fun hk' => ?_, channel := fun hk₁ hk₂ heq => ?_, handler := fun hh' => ?_,
    permission := fun hp => ?_, single := fun h₁ h₂ => ?_, readiness := fun hr => ?_,
    job := fun hp => known (hL.job hp), entry := fun hp => known (hL.entry hp), leaving := fun hl' hk' => ?_ }
  · rcases Ledger.put_eq_some.mp hk' with ⟨rfl, rfl⟩ | ⟨-, hk'⟩
    · exact ⟨hend, η, hρ ▸ Ledger.put_self .., hη⟩
    · grind [hL.client, ext.handler]
  · rcases Ledger.put_eq_some.mp hk₁ with ⟨rfl, rfl⟩ | ⟨-, old₁⟩
    · rcases Ledger.put_eq_some.mp hk₂ with ⟨rfl, rfl⟩ | ⟨-, old₂⟩
      · rfl
      · exact absurd heq.symm (hc _ _ old₂)
    · rcases Ledger.put_eq_some.mp hk₂ with ⟨rfl, rfl⟩ | ⟨-, old₂⟩
      · exact absurd heq (hc _ _ old₁)
      · exact hL.channel old₁ old₂ heq
  · rcases Ledger.put_eq_some.mp hh' with ⟨rfl, rfl⟩ | ⟨-, hh'⟩
    · refine ⟨Ledger.put_self .., fun k' hk' => ?_⟩
      cases hη.symm.trans hk'
      exact ⟨ρ, Ledger.put_self .., hρ⟩
    · grind [ext.gate, hL.handler, ext.client]
  · exact known (hL.permission (Ledger.permission_of_put hp))
  · exact hL.single (Ledger.permission_of_put h₁) (Ledger.permission_of_put h₂)
  · rcases Ledger.put_eq_some.mp hr with ⟨rfl, heq⟩ | ⟨-, hr⟩
    · cases heq
      exact ⟨η, Ledger.put_self .., rfl⟩
    · exact (hL.readiness hr).imp fun _ hh' => ⟨ext.handler hh'.1, hh'.2⟩
  · rcases Ledger.put_eq_some.mp hk' with ⟨rfl, -⟩ | ⟨-, hk'⟩
    · exact absurd hl' hl
    · exact hL.leaving hl' hk'

theorem Regular.newClientHandler (h : Regular H L w) (hc : w.canAdmit c = true)
    (s : ReadinessSource) (origin : Option String) (checker : CheckerRef) :
    Sustained H none L ((w.newClientHandler c near s origin checker).1,
      (w.newClientHandler c near s origin checker).2.1) := by
  simp only [canAdmit, Bool.and_eq_true, decide_eq_true_eq] at hc
  obtain ⟨⟨hend, hsize⟩, hnone⟩ := hc
  let k := w.clientHandlers.size
  let h' := w.serverHandlers.size
  let η : HandlerRole := { gate := w.gates.size, source := s, owner := some k }
  let ρ : ClientRole := { channel := c, handler := h' }
  let L' := L.admitted h' η w.receivers.size k ρ
  have hg : L.gate η.gate = none := Ledger.fresh h.bounded.gate
  have hh : L.handler h' = none := Ledger.fresh h.bounded.handler
  have hv : L.receiver w.receivers.size = none := Ledger.fresh h.bounded.receiver
  have hk : L.client k = none := Ledger.fresh h.bounded.client
  have ext : L.Extends L' := .admitted hg hh hv hk
  have own : ∀ k' ρ', L.client k' = some ρ' → ρ'.channel ≠ c := by
    intro k' ρ' hk' heq
    obtain ⟨cell, hcell, ok⟩ := h.orderly.clients.of_lt (h.bounded.client hk') hk'
    have taken : w.clientHandlers.cells.any (·.channel == c) = true :=
      Table.any_cells.mpr ⟨k', cell, hcell, by simp [ok.channel, heq]⟩
    rw [taken] at hnone
    exact absurd hnone nofun
  have staying : ¬ L.leaving k := fun hl => absurd (h.bounded.leaving hl) (Nat.lt_irrefl _)
  have coherent : L'.Coherent := h.coherent.admitted hg hh hv hk rfl rfl hend own staying
  have old : ∀ {g k}, L'.gate g = some (.permission k) → L.gate g = some (.permission k) :=
    fun hp => (Ledger.put_eq_some.mp hp).elim (fun e => nomatch e.2) And.right
  have entered : Orderly H L' w.stock w := h.orderly.mono (.refl H) ext h.orderly.closed h.orderly.ready
    h.orderly.left (fun k cell hcell g hp => h.orderly.held k cell hcell g (old hp))
    (fun g cell hcell k hp hl => h.orderly.shut g cell hcell k (old hp) hl)
  have hη : L'.handler h' = some η := Ledger.put_self ..
  have hρ : L'.client k = some ρ := Ledger.put_self ..
  have hω : L'.receiver w.receivers.size = some (.client k) := Ledger.put_self ..
  obtain ⟨cell, gate, _, _, -, -, heq⟩ := newServerHandler_cases h.orderly.wired near s
    (Origin.clientName origin)
  have attached := entered.newServerHandler coherent hη rfl (Origin.clientName origin)
  have same : (w.newServerHandler near s (Origin.clientName origin)).1.receivers = w.receivers ∧
      (w.newServerHandler near s (Origin.clientName origin)).1.clientHandlers = w.clientHandlers ∧
      (w.newServerHandler near s (Origin.clientName origin)).2 = h' := by
    rw [heq]
    exact ⟨rfl, rfl, rfl⟩
  unfold World.newClientHandler
  generalize w.newServerHandler near s (Origin.clientName origin) = made at attached same
  obtain ⟨w₁, _⟩ := made
  obtain ⟨hreceivers, hclients, rfl⟩ := same
  dsimp only at attached hreceivers hclients
  have hω : L'.receiver w₁.receivers.size = some (.client k) := hreceivers.symm ▸ hω
  have window : L'.WindowAt (.client k) c := ⟨ρ, hρ, rfl⟩
  have served : ∀ name, Served (.client k)
      { name := name, channel := c, policy := .disposeChannel, provider := .client k } :=
    fun _ => ⟨rfl, rfl⟩
  let w₂ := (w₁.newReceiver Service.clientRequester c .disposeChannel (.client k)).1
  have received : Orderly H L' _ w₂ := attached.newReceiver hω window served
  have size : w₂.clientHandlers.size = k := congrArg Table.size hclients
  let cell : ClientHandlerCell :=
    { origin := origin, channel := c, serverHandler := h', readiness := s, checker := checker,
      receiver := some w₁.receivers.size }
  have unknown : ∀ g, L'.gate g ≠ some (.permission k) := fun g hp => by
    obtain ⟨ρ', hρ'⟩ := h.coherent.permission (old hp)
    cases hk.symm.trans hρ'
  have admitted : Orderly H L'
      { w.stock with
        gates := w.gates.size + 1, handlers := w.serverHandlers.size + 1,
        receivers := w₁.receivers.size + 1, clients := w.clientHandlers.size + 1 }
      { w₂ with clientHandlers := w₂.clientHandlers.push cell } :=
    { received with
      clients := received.clients.push
        ⟨ρ, size.symm ▸ hρ, rfl, rfl, ⟨η, hη, rfl⟩, rfl, nofun,
          by rintro _ ⟨⟩; exact size.symm ▸ hω, nofun⟩
      left := received.left.push (size.symm ▸ fun hl => absurd hl staying)
      held := received.held.push (size.symm ▸ fun g hp => absurd hp (unknown g))
      clientCount := by simp [size, k] }
  have bounded : L'.Bounded
      { w.stock with
        gates := w.gates.size + 1, handlers := w.serverHandlers.size + 1,
        receivers := w₁.receivers.size + 1, clients := w.clientHandlers.size + 1 } :=
    { h.bounded with
      gate := Ledger.lt_of_put h.bounded.gate (Nat.le_succ _) (Nat.lt_succ_self _)
      handler := Ledger.lt_of_put h.bounded.handler (Nat.le_succ _) (Nat.lt_succ_self _)
      receiver := by
        rw [hreceivers]
        exact Ledger.lt_of_put h.bounded.receiver (Nat.le_succ _) (Nat.lt_succ_self _)
      client := Ledger.lt_of_put h.bounded.client (Nat.le_succ _) (Nat.lt_succ_self _)
      channel := fun hk' => (Ledger.put_eq_some.mp hk').elim (fun e => e.2 ▸ hsize)
        fun e => h.bounded.channel e.2
      leaving := fun hl => Nat.lt_succ_of_lt (h.bounded.leaving hl) }
  have hook : HookOk L' c (.clientHandler k) := ⟨ρ, hρ, rfl⟩
  have away : 2 ≤ c := two_le_of_isHandlerEnd hend
  refine ⟨L', { Ledger.Grows.refl H none _ L with
    gate := ext.gate, handler := ext.handler, receiver := ext.receiver, client := ext.client }, ?_, ?_⟩
  · refine Orderly.regular ?_ coherent bounded
    dsimp only
    split
    · exact admitted
    · refine admitted.modifyHandler fun _ _ _ hη' ok => { ok with hooks := fun hook hh => ?_ }
      cases hη.symm.trans hη'
      rcases List.mem_append.mp hh with hh | hh
      · exact ok.hooks hook hh
      · rw [List.mem_singleton.mp hh]
        exact ⟨k, rfl, rfl⟩
  · refine .append ?_ (.single ⟨hook, away⟩)
    split
    · exact .single ⟨c, hook, fun hn => absurd hn (Nat.not_lt.mpr away)⟩
    · exact .nil

def Ledger.enlisted (L : Ledger) (r c : Nat) : Ledger :=
  { L with requester := Ledger.put L.requester r (.client c) }

theorem Regular.newRequester (h : Regular H L w) (hc : isClientEnd c = true) (policy : Policy) :
    ∃ L', L.Grows H none [] L' ∧ Regular H L' (w.newRequester Service.clientRequester c policy).1 := by
  let L' := L.enlisted w.requesters.size c
  have fresh : L.requester w.requesters.size = none := Ledger.fresh h.bounded.requester
  have grows : L.Grows H none [] L' :=
    { Ledger.Grows.refl H none [] L with requester := Ledger.put_of_some fresh }
  have entered : L'.requester w.requesters.size = some (.client c) := Ledger.put_self ..
  have coherent : L'.Coherent := { h.coherent with
    line := fun hr => (Ledger.put_eq_some.mp hr).elim (fun e => by cases e.2; exact hc)
      fun e => h.coherent.line e.2
    reply := fun hp => (h.coherent.reply hp).imp fun _ hr => grows.requester hr }
  have ready : Orderly H L' w.stock w := h.orderly.mono (.refl H) grows.toExtends h.orderly.closed
    h.orderly.ready h.orderly.left h.orderly.held h.orderly.shut
  have made := ready.newRequester (p := policy) coherent entered nofun
  exact ⟨L', grows, made.regular coherent { h.bounded with
    requester := Ledger.lt_of_put h.bounded.requester (Nat.le_succ _) (Nat.lt_succ_self _) }⟩

theorem Regular.line_of_isClients (h : Regular H L w) {r : Nat} {cell : RequesterCell}
    (hr : w.isClients r = true) (hcell : w.requesters.get? r = some cell) :
    ∃ c, L.requester r = some (.client c) ∧ RequesterAt L r (.client c) cell := by
  obtain ⟨ℓ, hℓ, ok⟩ := h.orderly.requesters r cell hcell
  have away : ℓ.channel ≠ near := by simpa [isClients, hcell, ok.channel] using hr
  cases ℓ with
  | client c => exact ⟨c, hℓ, ok⟩
  | server => exact absurd rfl away

/-- A client posts a request. -/
theorem Regular.post (h : Regular H L w) {r : Nat} (hr : w.isClients r = true) (payload : Json) :
    ∃ L', L.Grows H none [] L' ∧ Regular H L' (w.post r payload).1 := by
  cases hcell : w.requesters.get? r with
  | none => simp [isClients, hcell] at hr
  | some cell =>
    obtain ⟨c, hℓ, -⟩ := h.line_of_isClients hr hcell
    let ρ : Role := .reply r cell.core.nextId
    have role : RoleOk L ρ := ⟨c, hℓ⟩
    have entered : Orderly H (L.promised w.promises.size ρ) w.stock w :=
      h.orderly.promised h.fresh_promise ρ
    have coherent := h.coherent.promised w.promises.size role
    have posted : Orderly H (L.promised w.promises.size ρ) w.stock (w.post r payload).1 := by
      refine entered.post coherent ?_ ?_
      · intro cell' ℓ' hcell' hℓ' _
        cases hcell.symm.trans hcell'
        cases hℓ.symm.trans hℓ'
        exact L.promise_promised _ ρ
      · intro cell' ℓ' _ hℓ' _
        cases hℓ.symm.trans hℓ'
        exact ⟨ρ, L.promise_promised _ ρ, rfl, c, hℓ, .inr (.inl rfl)⟩
    have grows : L.Grows H none [] (L.promised w.promises.size ρ) :=
      .promised h.fresh_promise none [] nofun nofun
    have bounded : ∀ w' : World, w'.promises.size = w.promises.size + 1 →
        Orderly H (L.promised w.promises.size ρ) w.stock w' →
        Regular H (L.promised w.promises.size ρ) w' := by
      intro w' _ ok'
      refine ⟨ok'.restock (.refl _), coherent, (h.bounded.mono ok'.stock_le).promised ?_ ρ⟩
      show w.promises.size < w'.promises.size
      omega
    obtain ⟨hn, -⟩ | ⟨cell', hcell', ⟨-, heq⟩ | ⟨-, -, q, heq⟩ | ⟨-, -, _, q, -, heq⟩⟩ :=
      post_cases h.orderly.wired r payload
    · cases hcell.symm.trans hn
    · rw [heq]
      exact ⟨L, .refl .., h⟩
    · refine ⟨_, grows, bounded _ ?_ posted⟩
      rw [heq]
      exact Table.size_push ..
    · refine ⟨_, grows, bounded _ ?_ posted⟩
      rw [heq]
      exact (Table.size_modify ..).trans (Table.size_push ..)

/-- A server handler that belongs to no client handler is given a call. -/
theorem Regular.handle (h : Regular H L w) {h' : Nat} {cell : ServerHandlerCell}
    (hcell : w.serverHandlers.get? h' = some cell) (howned : w.isOwned h' = false) (call : Call) :
    Sustained H none L
      ((w.promise (.error .jobSkipped)).addJob cell.gate (.post h' call) w.promises.size) := by
  obtain ⟨η, hη, ok⟩ := h.orderly.handlers h' cell hcell
  have free : η.owner = none := by
    cases ho : η.owner with
    | none => rfl
    | some k =>
      obtain ⟨ρ, hρ, rfl⟩ := (h.coherent.handler hη).2 k ho
      obtain ⟨client, hclient, ok'⟩ := h.orderly.clients.of_lt (h.bounded.client hρ) hρ
      have owned : w.isOwned ρ.handler = true :=
        Table.any_cells.mpr ⟨k, client, hclient, by simp [ok'.handler]⟩
      cases howned.symm.trans owned
  have made := h.promise (ρ := .free) (o := .error .jobSkipped) trivial trivial
  have hgate : (L.promised w.promises.size .free).gate cell.gate = some (.readiness h') :=
    ok.gate ▸ (h.coherent.handler hη).1
  have job : JobAt H (L.promised w.promises.size .free) (.readiness h') (.post h' call)
      w.promises.size := by
    refine ⟨η, call, hη, rfl, ?_⟩
    rw [free]
    exact L.promise_promised _ .free
  obtain ⟨added, agenda⟩ := made.orderly.addJob made.coherent hgate (made.bounded.gate hgate) job
  exact ⟨_, .promised (ρ := .free) h.fresh_promise none _ nofun nofun,
    added.regular made.coherent made.bounded, agenda⟩

theorem Orderly.outside (h : Orderly H L N w) {p : Nat} (hp : w.isOutside p = true) :
    L.promise p = some .free := by
  simp only [isOutside, Bool.or_eq_true] at hp
  rcases hp with hp | hp
  · obtain ⟨i, cell, hcell, hc⟩ := Table.any_cells.mp hp
    exact h.checks i cell hcell p (by simpa using hc)
  · obtain ⟨e, he, hep⟩ := List.any_eq_true.mp hp
    obtain rfl : e.2 = p := by simpa using hep
    exact h.waiting e he

/-- Calling any of the functions that owners may call leads to a regular world. -/
theorem Regular.apply (h : Regular H L w) (m : Move) : Sustained H none L (m.apply w) := by
  have ledger : ∀ {w' : World}, (∃ L', L.Grows H none [] L' ∧ Regular H L' w') →
      Sustained H none L (w', []) := fun ⟨L', grows, regular⟩ => ⟨L', grows, regular, .nil⟩
  unfold Move.apply
  cases m with
  | proceed | poll | tick => exact h.unchanged
  | connect => exact ⟨L, .refl .., h.newPair _ _, .nil⟩
  | accept c readiness origin checker =>
    dsimp only
    split
    · next hc => exact h.newClientHandler hc readiness origin checker
    · exact h.unchanged
  | enlist c policy =>
    dsimp only
    split
    · next hc =>
      simp only [canEnlist, Bool.and_eq_true] at hc
      exact ledger (h.newRequester hc.1.1 policy)
    · exact h.unchanged
  | post =>
    dsimp only
    split
    · next hr => exact ledger (h.post hr _)
    · exact h.unchanged
  | send =>
    dsimp only
    split
    · exact h.sustained (h.orderly.send _ _ _) .nil
    · exact h.unchanged
  | attach readiness name => exact ledger (h.newServerHandler readiness name)
  | handle =>
    dsimp only
    split
    · grind [h.unchanged, h.handle]
    · exact h.unchanged
  | close | closeClient | closeHandler => exact h.sustained h.orderly (.single trivial)
  | closeRequester r =>
    dsimp only
    split
    · exact h.sustained (h.orderly.disposeRequester h.coherent r) .nil
    · exact h.unchanged
  | settle =>
    dsimp only
    split
    · next hp =>
      refine h.sustained (h.orderly.resolve fun _ hρ => ?_) .nil
      cases hρ.symm.trans (h.orderly.outside hp)
      trivial
    · exact h.unchanged
  | hire =>
    exact h.sustained { h.orderly with checks := h.orderly.checks.push nofun } .nil
  | install => exact h.sustained { h.orderly with } .nil
  | revise d desk => exact h.sustained ((h.orderly.setDesk d desk).wake _) .nil
  | forgo =>
    refine h.sustained (Orderly.wake ?_ _) .nil
    exact { h.orderly with
      trackers := h.orderly.trackers.modify fun _ _ ok => ok
      ready := h.orderly.ready.modify fun _ _ ok => ok
      trackerCount := (Table.size_modify ..).symm ▸ h.orderly.trackerCount }
  | observe service label =>
    exact h.sustained (h.orderly.register ⟨rfl, rfl, service.unasked⟩) .nil
  | watch label => exact h.guardChannel (show HookOk L near _ from ⟨rfl, rfl⟩)

/-! ## The opening -/

def Ledger.blank : Ledger where
  promise _ := none
  gate _ := none
  requester _ := none
  receiver _ := none
  handler _ := none
  client _ := none
  closed _ := False
  ready s := s = .always
  leaving _ := False
  doomed _ := False

theorem Regular.opening (H : History) (serve : Serving) : Regular H .blank (opening serve).world := by
  rw [opening_eq]
  refine ⟨?_, ?_, ?_⟩
  · exact
      { transport := .push (.push .empty (by rfl)) (by rfl), ends := .push .empty ⟨rfl, rfl⟩, size := rfl
        channels := .push
          (.push .empty ⟨List.forall_mem_singleton.mpr ⟨rfl, rfl⟩, List.forall_mem_singleton.mpr rfl, nofun⟩)
          ⟨List.forall_mem_cons.mpr ⟨⟨rfl, rfl, rfl⟩, List.forall_mem_singleton.mpr ⟨rfl, rfl, rfl⟩⟩,
            List.forall_mem_singleton.mpr ⟨rfl, rfl⟩, nofun⟩
        requesters := .empty, receivers := .empty, gates := .empty, handlers := .empty, clients := .empty
        registries := .push .empty ⟨rfl, rfl, nofun⟩, trackers := .push .empty nofun, promises := .empty
        tasks := .push (.push .empty trivial) trivial, checks := .empty, waiting := nofun
        closed := .push (.push .empty nofun) nofun, ready := .push .empty nofun, left := .empty
        held := .empty, shut := .empty
        promiseCount := Nat.le_refl _, gateCount := Nat.le_refl _, requesterCount := Nat.le_refl _
        receiverCount := Nat.le_refl _, handlerCount := Nat.le_refl _, clientCount := Nat.le_refl _
        trackerCount := Nat.le_refl _, channelCount := Nat.le_refl _ }
  · exact
      { client := nofun, channel := nofun, handler := nofun, permission := nofun, single := nofun
        readiness := nofun, line := nofun, reply := nofun, job := nofun, entry := nofun, leaving := nofun }
  · exact
      { promise := nofun, gate := nofun, requester := nofun, receiver := nofun, handler := nofun
        client := nofun, ready := nofun, channel := nofun, doomed := nofun, closed := nofun
        leaving := nofun }

end Switchboard
