import Switchboard.Proofs.Mail
import Switchboard.Proofs.ServiceNames
import Switchboard.Proofs.WireFormat

/-!
# How server handlers conduct themselves

A server handler is not announced, or it is and counts its requests, or it is gone. `Conduct` lists
what a move can do to one handler, with the messages that it sends on the server channel: it introduces
itself with its first request, sends one request more, or takes its leave. Nobody else sends anything
from the near end.
-/

namespace Switchboard

open World Exchange History

open Service (callFunction createHandler deleteHandler request_ne)

/-! ## Messages that carry a handler's number -/

namespace Exchange

def handlerNumber? (v : Json) : Option Nat :=
  match v.field? Key.handlerId with
  | some (.int i) => some i.toNat
  | _ => none

/-- Whether a message carries a handler's number. -/
def concerns (h : Nat) (m : String × Json) : Bool :=
  m.1 == Service.request (callFunction h) ||
    ((m.1 == createHandler || m.1 == deleteHandler) && handlerNumber? m.2 == some h)

/-- The message by which a handler introduces itself. -/
def greeting (h : Nat) (name : String) : String × Json :=
  (createHandler, (Arrival.mk h name).toJson)

/-- A call as it is sent to the server. -/
def question (h n : Nat) (call : Call) : String × Json :=
  (Service.request (callFunction h), (Request.mk n call.toJson).toJson)

/-- The message by which a handler takes its leave. -/
def farewell (h : Nat) : String × Json := (deleteHandler, (Departure.mk h).toJson)

@[simp] theorem concerns_greeting (h h' : Nat) (name : String) :
    concerns h (greeting h' name) = (h' == h) := by
  have other : createHandler ≠ Service.request (callFunction h) :=
    (request_ne _ (by decide)).symm
  have number : handlerNumber? (Arrival.mk h' name).toJson = some h' := by
    rw [Arrival.toJson_eq]
    rfl
  simp [concerns, greeting, other, number]

@[simp] theorem concerns_question (h h' n : Nat) (call : Call) :
    concerns h (question h' n call) = (h' == h) := by
  have create : Service.request (callFunction h') ≠ createHandler :=
    request_ne _ (by decide)
  have delete : Service.request (callFunction h') ≠ deleteHandler :=
    request_ne _ (by decide)
  by_cases hh : h' = h
  · subst hh
    simp [concerns, question]
  · have other : Service.request (callFunction h') ≠ Service.request (callFunction h) :=
      fun heq => hh (Service.callFunction_injective (Service.request_injective heq))
    rw [concerns, question, beq_false_of_ne other, beq_false_of_ne create, beq_false_of_ne delete,
      beq_false_of_ne hh]
    rfl

@[simp] theorem concerns_farewell (h h' : Nat) : concerns h (farewell h') = (h' == h) := by
  have other : deleteHandler ≠ Service.request (callFunction h) :=
    (request_ne _ (by decide)).symm
  have number : handlerNumber? (Departure.mk h').toJson = some h' := rfl
  simp [concerns, farewell, other, number]

end Exchange

/-! ## Where a handler stands -/

/-- Where a server handler stands with the server. -/
inductive Standing where
  | unannounced
  | announced (next : Nat)
  /-- It was announced, but its requester is closed. -/
  | cutOff
  | gone
deriving DecidableEq

namespace World

/-- What is of interest about a requester: the next number and whether it is closed. -/
def tally (w : World) (r : Nat) : Option (Nat × Bool) :=
  (w.requesters.get? r).map fun cell => (cell.core.nextId, cell.core.disposed)

def standingOf (tally : Nat → Option (Nat × Bool)) : Bool × Option Nat → Standing
  | (true, _) => .gone
  | (false, none) => .unannounced
  | (false, some r) =>
    match tally r with
    | some (n, false) => .announced n
    | _ => .cutOff

def standing (w : World) (h : Nat) : Option Standing :=
  (w.serverHandlers.get? h).map fun cell => standingOf w.tally cell.stage

variable {h : Nat}

theorem standing_eq {w w' : World} (stage : (w'.serverHandlers.get? h).map ServerHandlerCell.stage =
      (w.serverHandlers.get? h).map ServerHandlerCell.stage)
    (tally : ∀ cell r, w.serverHandlers.get? h = some cell → cell.requester = some r →
      w'.tally r = w.tally r) :
    w'.standing h = w.standing h := by
  unfold standing
  cases hc : w.serverHandlers.get? h with
  | none =>
    rw [hc] at stage
    rw [Option.map_eq_none_iff.mp stage]
    rfl
  | some cell =>
    rw [hc] at stage
    obtain ⟨_, hc', hs⟩ := Option.map_eq_some_iff.mp stage
    rw [hc']
    simp only [Option.map_some, hs]
    unfold standingOf
    cases hstage : cell.stage with
    | mk disposed requester =>
      cases disposed with
      | true => rfl
      | false =>
        cases requester with
        | none => rfl
        | some r =>
          have hr : cell.requester = some r := congrArg Prod.snd hstage
          dsimp only
          rw [tally cell r hc hr]

theorem nextNumber_of_standing {w : World} {n : Nat} (hs : w.standing h = some (.announced n)) :
    w.nextNumber h = n := by
  obtain ⟨cell, hcell, hs⟩ := Option.map_eq_some_iff.mp hs
  unfold nextNumber
  rw [hcell]
  unfold standingOf ServerHandlerCell.stage at hs
  split at hs
  · cases hs
  · cases hs
  · next r heq =>
    have hr : cell.requester = some r := congrArg Prod.snd heq
    simp only [Option.bind_some, hr]
    split at hs
    · next ht =>
      cases hs
      obtain ⟨_, hq, heq⟩ := Option.map_eq_some_iff.mp ht
      rw [hq]
      exact congrArg Prod.fst heq
    · cases hs

theorem nextNumber_of_unannounced {w : World} (hs : w.standing h = some .unannounced) :
    w.nextNumber h = 0 := by
  obtain ⟨_, _, hs⟩ := Option.map_eq_some_iff.mp hs
  unfold nextNumber
  unfold standingOf ServerHandlerCell.stage at hs
  split at hs
  · cases hs
  · grind
  · split at hs <;> cases hs

end World

/-- What can happen to a server handler, and the messages about it that are sent from the near end. -/
inductive Conduct (w w' : World) (κ : Cause) (h : Nat) : List (String × Json) → Prop
  | same (eq : w'.standing h = w.standing h)
      (unable : ∀ call t, κ = .action (.invoke (.post h call) t) →
        w.standing h = none ∨ w.standing h = some .cutOff ∨ w.standing h = some .gone) :
      Conduct w w' κ h []
  | stranded (closed : w.isOpen near = false)
      (stage : (w'.serverHandlers.get? h).map ServerHandlerCell.stage =
        (w.serverHandlers.get? h).map ServerHandlerCell.stage) : Conduct w w' κ h []
  | made (fresh : w.standing h = none)
      (after : w'.standing h = some .unannounced ∨ w'.standing h = some .gone) : Conduct w w' κ h []
  | announced {call : Call} {t : Nat} {name : String} (cause : κ = .action (.invoke (.post h call) t))
      (isOpen : w.isOpen near = true) (before : w.standing h = some .unannounced)
      (after : w'.standing h = some (.announced 1)) :
      Conduct w w' κ h [greeting h name, question h 0 call]
  | posted {call : Call} {t n : Nat} (cause : κ = .action (.invoke (.post h call) t))
      (isOpen : w.isOpen near = true) (before : w.standing h = some (.announced n))
      (after : w'.standing h = some (.announced (n + 1))) : Conduct w w' κ h [question h n call]
  | left {s : Standing} {leave : List (String × Json)} (cause : κ = .action (.closeServerHandler h))
      (before : w.standing h = some s) (here : s ≠ .gone) (after : w'.standing h = some .gone)
      (leave_eq : leave = if s ≠ .unannounced ∧ w.isOpen near = true then [farewell h] else []) :
      Conduct w w' κ h leave

/-- How the near end fares: what is sent, and what becomes of each handler. -/
structure NearSide (w w' : World) (κ : Cause) (out : List (String × Json)) : Prop where
  outgoing : w'.outgoing near = w.outgoing near ++ out ∨
    out = [] ∧ ∃ m, w.outgoing near = m :: w'.outgoing near
  conduct : ∀ h, Conduct w w' κ h (out.filter (concerns h))
  bears : ∀ m ∈ out, ∃ h, concerns h m = true

variable {H : History} {L : Ledger} {w w' : World} {κ : Cause} {more : List Action}

namespace World

theorem standing_mail (c : Nat) (ms : List (String × Json)) (w : World) (h : Nat) :
    (w.mail c ms).standing h = w.standing h := rfl

theorem outgoing_mail_self {c : Nat} {ms : List (String × Json)} (hw : w.Wired)
    (ho : ms ≠ [] → w.isOpen c = true) : (w.mail c ms).outgoing c = w.outgoing c ++ ms := by
  rw [outgoing_mail hw ho, if_pos rfl]

theorem standing_eq_none {h : Nat} (hh : w.serverHandlers.get? h = none) : w.standing h = none := by
  unfold standing
  rw [hh]
  rfl

theorem standing_eq_some {h : Nat} {cell : ServerHandlerCell}
    (hh : w.serverHandlers.get? h = some cell) :
    w.standing h = some (standingOf w.tally cell.stage) := by
  unfold standing
  rw [hh]
  rfl

variable {stage : Bool × Option Nat}

theorem standingOf_eq_gone {tally : Nat → Option (Nat × Bool)} :
    standingOf tally stage = .gone ↔ stage.1 = true := by
  unfold standingOf
  split
  · simp
  · simp
  · split <;> simp

theorem standingOf_eq_unannounced {tally : Nat → Option (Nat × Bool)} :
    standingOf tally stage = .unannounced ↔ stage = (false, none) := by
  unfold standingOf
  split
  · simp
  · simp
  · split <;> simp

end World

variable {h r : Nat} {cell : ServerHandlerCell}

theorem Regular.requester_line (reg : Regular H L w)
    (hcell : w.serverHandlers.get? h = some cell) (hr : cell.requester = some r) :
    L.requester r = some (.server h) := by
  obtain ⟨_, -, ok⟩ := reg.orderly.handlers h cell hcell
  exact ok.requester r hr

/-- Nothing is sent, and no handler fares differently. -/
theorem NearSide.quiet (outgoing : w'.outgoing near = w.outgoing near)
    (stage : ∀ h, (w'.serverHandlers.get? h).map ServerHandlerCell.stage =
      (w.serverHandlers.get? h).map ServerHandlerCell.stage)
    (tally : w.isOpen near = true → ∀ h r cell, w.serverHandlers.get? h = some cell →
      cell.requester = some r → w'.tally r = w.tally r)
    (cause : ∀ h call t, κ ≠ .action (.invoke (.post h call) t)) : NearSide w w' κ [] where
  outgoing := .inl (by rw [outgoing, List.append_nil])
  conduct h := by
    cases ho : w.isOpen near with
    | false => exact .stranded ho (stage h)
    | true =>
      refine .same (standing_eq (stage h) fun cell r hc hr => tally ho h r cell hc hr) ?_
      exact fun call t heq => absurd heq (cause h call t)
  bears := nofun

theorem NearSide.untouched (outgoing : w'.outgoing near = w.outgoing near)
    (handlers : w'.serverHandlers = w.serverHandlers) (requesters : w'.requesters = w.requesters)
    (cause : ∀ h call t, κ ≠ .action (.invoke (.post h call) t)) : NearSide w w' κ [] :=
  .quiet outgoing (fun _ => by rw [handlers]) (fun _ _ _ _ _ _ => by rw [tally, requesters]; rfl)
    cause

theorem NearSide.of_calm (reg : Regular H L w) (calm : Calm w w')
    (cause : ∀ h call t, κ ≠ .action (.invoke (.post h call) t)) : NearSide w w' κ [] := by
  refine .quiet (calm.outgoing near) calm.handlers (fun ho h r _ hcell hr => ?_) cause
  have line := reg.requester_line hcell hr
  obtain ⟨q, hq⟩ := Table.get?_isSome_of_lt (reg.bounded.requester line)
  obtain ⟨_, hq', -, -, rfl | ⟨-, closed⟩⟩ := calm.requesters.2 r q hq
  · unfold tally
    rw [hq, hq']
  · obtain ⟨_, hℓ, at_⟩ := reg.orderly.requesters r q hq
    cases hℓ.symm.trans line
    exact absurd ((closed at_.channel).symm.trans ho) nofun

theorem NearSide.of_one {j : Nat} {out : List (String × Json)}
    (outgoing : w'.outgoing near = w.outgoing near ++ out) (acts : Conduct w w' κ j out)
    (mine : ∀ m ∈ out, ∀ h, concerns h m = (j == h))
    (others : ∀ h, h ≠ j → (w'.serverHandlers.get? h).map ServerHandlerCell.stage =
      (w.serverHandlers.get? h).map ServerHandlerCell.stage)
    (tally : ∀ h r cell, h ≠ j → w.serverHandlers.get? h = some cell → cell.requester = some r →
      w'.tally r = w.tally r)
    (cause : ∀ h call t, κ = .action (.invoke (.post h call) t) → h = j) : NearSide w w' κ out where
  outgoing := .inl outgoing
  conduct h := by
    by_cases hh : h = j
    · subst hh
      rw [List.filter_eq_self.mpr fun m hm => by simp [mine m hm]]
      exact acts
    · rw [List.filter_eq_nil_iff.mpr fun m hm => by simp [mine m hm, Ne.symm hh]]
      refine .same (standing_eq (others h hh) fun cell r => tally h r cell hh) ?_
      exact fun call t heq => absurd (cause h call t heq) hh
  bears m hm := ⟨j, by simp [mine m hm]⟩

variable {r' : Nat}

variable {h' : Nat}

theorem Regular.requester_ne (reg : Regular H L w) (hh : h ≠ h')
    (hcell : w.serverHandlers.get? h = some cell) (hr : cell.requester = some r)
    (line : L.requester r' = some (.server h')) : r' ≠ r := by
  rintro rfl
  have := (reg.requester_line hcell hr).symm.trans line
  simp only [Option.some.injEq, Line.server.injEq] at this
  exact hh this

variable {f : RequesterCell → RequesterCell}

theorem World.tally_modify_of_ne {rs : Table RequesterCell}
    (hr : r ≠ r') (heq : w'.requesters = rs.modify r f) (hrs : rs = w.requesters) :
    w'.tally r' = w.tally r' := by
  unfold tally
  rw [heq, Table.get?_modify_of_ne hr, hrs]

theorem World.stage_modify_of_ne {f : ServerHandlerCell → ServerHandlerCell} (hh : h' ≠ h)
    (heq : w'.serverHandlers = w.serverHandlers.modify h f) :
    (w'.serverHandlers.get? h').map ServerHandlerCell.stage =
      (w.serverHandlers.get? h').map ServerHandlerCell.stage := by
  rw [heq, Table.get?_modify_of_ne (Ne.symm hh)]

theorem World.tally_push {cell : RequesterCell} (heq : w'.requesters = w.requesters.push cell)
    (hr : r < w.requesters.size) : w'.tally r = w.tally r := by
  unfold tally
  rw [heq, Table.get?_push_of_lt hr]

theorem NearSide.of_made {handler : ServerHandlerCell}
    (outgoing : w'.outgoing near = w.outgoing near)
    (handlers : w'.serverHandlers = w.serverHandlers.push handler) (fresh : handler.requester = none)
    (requesters : w'.requesters = w.requesters)
    (cause : ∀ h call t, κ ≠ .action (.invoke (.post h call) t)) : NearSide w w' κ [] where
  outgoing := .inl (by rw [outgoing, List.append_nil])
  conduct h := by
    by_cases hh : h = w.serverHandlers.size
    · subst hh
      have made : w'.serverHandlers.get? w.serverHandlers.size = some handler := by
        rw [handlers, Table.get?_push_size]
      refine .made (standing_eq_none (Table.get?_of_size_le (Nat.le_refl _))) ?_
      rw [standing_eq_some made, ServerHandlerCell.stage, fresh]
      cases handler.disposed <;> simp [standingOf]
    · refine .same (standing_eq ?_ fun _ _ _ _ => by rw [tally, requesters]; rfl)
        fun call t heq => absurd heq (cause h call t)
      rw [handlers, Table.get?_push, if_neg hh]
  bears := nofun

variable {c : Nat}

theorem Regular.tally_client (reg : Regular H L w) (line : L.requester r = some (.client c))
    (heq : w'.requesters = w.requesters.modify r f) (hcell : w.serverHandlers.get? h = some cell)
    (hr : cell.requester = some r') : w'.tally r' = w.tally r' := by
  refine tally_modify_of_ne (fun heq => ?_) heq rfl
  subst heq
  exact absurd ((reg.requester_line hcell hr).symm.trans line) nofun

theorem Regular.not_near_of_isClientEnd (h : isClientEnd c = true) : c ≠ near := by
  rintro rfl
  cases h

/-- Looking for a message takes at most one off its way. -/
theorem Carriage.outgoing_of_pumpNext {p : Nat} {second : Bool} (h : Carriage w κ w' more)
    (hκ : κ = .action (.pumpNext p second)) (c : Nat) :
    w'.outgoing c = w.outgoing c ∨ ∃ m, w.outgoing c = m :: w'.outgoing c := by
  cases h with
  | sent _ _ _ cause => exact absurd hκ (cause p second)
  | @taken _ _ _ _ _ c' head others =>
    by_cases hc : c = c'
    · subst hc
      exact .inr ⟨_, head⟩
    · exact .inl (others c hc)
  | stopped => exact .inl rfl
  | begun => cases hκ

/-- What happens at the near end, whatever happens. -/
theorem Regular.nearSide (reg : Regular H L w) (hκ : ∀ a, κ = .action a → ActionOk H L a)
    (hap : Happening L w κ w' more) : ∃ out, NearSide w w' κ out := by
  have hw := reg.orderly.wired
  have mailed : ∀ {w₀ : World} {c : Nat} {ms : List (String × Json)}, c ≠ near → w₀.Wired →
      (ms ≠ [] → w₀.isOpen c = true) → w₀.outgoing near = w.outgoing near →
      (w₀.mail c ms).outgoing near = w.outgoing near := by
    intro w₀ c ms hc hw₀ ho heq
    rw [outgoing_mail hw₀ ho, heq, if_neg (Ne.symm hc), List.append_nil]
  cases hap with
  | calm trifling calm =>
    refine ⟨[], .of_calm reg calm ?_⟩
    rintro h call t rfl
    cases trifling
  | ignored _ calm => exact ⟨[], .of_calm reg calm nofun⟩
  | vacant reason =>
    refine ⟨[], .untouched rfl rfl rfl ?_⟩
    rintro h call t ⟨⟩
    obtain ⟨_, h⟩ | ⟨_, h, -⟩ := reason <;> cases h
  | breach cause =>
    refine ⟨[], .untouched rfl rfl rfl ?_⟩
    rintro h call t ⟨⟩
    obtain ⟨_, _, _, h⟩ | ⟨_, _, _, h, -⟩ := cause <;> cases h
  | settled requester =>
    refine ⟨[], .quiet rfl (fun _ => rfl) (fun _ h r' cell' hcell' hr' => ?_) nofun⟩
    unfold tally
    dsimp only
    rw [Table.get?_modify_of_some requester]
    split
    · next heq =>
      rw [← heq, requester]
      rfl
    · rfl
  | @shutHandler h cell _ _ leave handler undisposed _ leave_eq =>
    have shape := SameShape.parted w cell
    obtain ⟨_, _, ok⟩ := reg.orderly.handlers h cell handler
    have reachable : leave ≠ [] → w.isOpen near = true := by
      intro hne
      by_cases hc : cell.requester.isSome = true ∧ cell.channelGone = false ∧ w.isOpen near = true
      · exact hc.2.2
      · exact absurd (leave_eq.trans (if_neg hc)) hne
    have farewells : leave = if standingOf w.tally cell.stage ≠ .unannounced ∧
        w.isOpen near = true then [farewell h] else [] := by
      rw [leave_eq]
      have announced : standingOf w.tally cell.stage ≠ .unannounced ↔
          cell.requester.isSome = true := by
        rw [Ne, standingOf_eq_unannounced, ServerHandlerCell.stage, undisposed]
        cases cell.requester <;> simp
      by_cases ho : w.isOpen near = true
      · have here : cell.channelGone = false := by
          cases hgone : cell.channelGone with
          | false => rfl
          | true => exact absurd ((reg.orderly.isOpen_of_closed (ok.gone hgone)).symm.trans ho) nofun
        simp only [announced, ho, here, and_true]
        rfl
      · simp [ho]
    refine ⟨leave, .of_one (j := h) (outgoing_mail_self (SameShape.wired (w := w) shape rfl hw)
      fun hne => (SameShape.isOpen (w := w) shape near).trans (reachable hne)) ?_ ?_ ?_ ?_ nofun⟩
    · refine .left rfl (standing_eq_some handler) ?_ ?_ farewells
      · rw [Ne, standingOf_eq_gone]
        simp [ServerHandlerCell.stage, undisposed]
      · have after : ((w.serverHandlers.modify h shutHandler).get? h) =
            some (shutHandler cell) := by rw [Table.get?_modify_self, handler]; rfl
        rw [standing_mail, standing_eq_some after]
        rfl
    · intro m hm h'
      rw [farewells] at hm
      split at hm
      · obtain rfl := List.mem_singleton.mp hm
        simp
      · exact absurd hm List.not_mem_nil
    · exact fun h' hh' => stage_modify_of_ne hh' rfl
    · intro h' r cell' hh' hcell' hr'
      cases hr : cell.requester with
      | none => rfl
      | some =>
        exact tally_modify_of_ne (w := w)
          (reg.requester_ne hh' hcell' hr' (reg.requester_line handler hr)) (by rfl) rfl
  | connected => exact ⟨[], .untouched (w.outgoing_newPair _ _ _) rfl rfl nofun⟩
  | admitted _ requester | attached _ requester => exact ⟨[], .of_made rfl rfl requester rfl nofun⟩
  | enlisted =>
    refine ⟨[], .quiet rfl (fun _ => rfl) (fun _ h r cell hcell hr => ?_) nofun⟩
    exact tally_push rfl (reg.bounded.requester (reg.requester_line hcell hr))
  | unrequested line =>
    refine ⟨[], .quiet rfl (fun _ => rfl) (fun _ h r cell hcell hr => ?_) nofun⟩
    exact reg.tally_client line rfl hcell hr
  | requested line _ isOpen =>
    refine ⟨[], .quiet ?_ (fun _ => rfl) (fun _ h r' cell hcell hr => ?_) nofun⟩
    · exact mailed (Regular.not_near_of_isClientEnd (reg.coherent.line line))
        { hw with size := hw.size } (fun _ => isOpen) rfl
    · exact reg.tally_client line rfl hcell hr
  | @injected c service v q outside isOpen =>
    have hc : c ≠ near := by
      rintro rfl
      cases outside
    exact ⟨[], .untouched (mailed hc { hw with size := hw.size } (fun _ => isOpen) rfl) rfl rfl nofun⟩
  | @answered t c id service f _ _ r q task _ _ isOpen =>
    have hc : c ≠ near := by
      obtain ⟨rfl, -⟩ | ⟨_, _, hρ, rfl, -⟩ : AnswerOk H L f c service id := reg.orderly.tasks t _ task
      · nofun
      · intro hn
        exact absurd (hn ▸ two_le_of_isHandlerEnd (reg.coherent.client hρ).1) (by decide)
    exact ⟨[], .untouched (mailed hc { hw with size := hw.size } (fun _ => isOpen) rfl) rfl rfl nofun⟩
  | pumped pair_eq next =>
    have carried := carriage_pumped hw pair_eq next
    refine ⟨[], (carried.outgoing_of_pumpNext rfl near).imp (fun same => ?_) fun less => ⟨rfl, less⟩, ?_,
      nofun⟩
    · rw [same, List.append_nil]
    · exact fun h => .same rfl nofun
  | @announced h _ call cell requester _ _ handler undisposed fresh isOpen channel core =>
    have shape := SameShape.listening w.channels near (callFunction h) w.requesters.size
    refine ⟨[greeting h cell.clientName, question h 0 call], .of_one (j := h) ?_ ?_ ?_ ?_ ?_ ?_⟩
    · exact outgoing_mail_self (SameShape.wired (w := w) shape rfl hw)
        fun _ => (SameShape.isOpen (w := w) shape near).trans isOpen
    · refine .announced rfl isOpen ?_ ?_
      · rw [standing_eq_some handler, ServerHandlerCell.stage, undisposed, fresh]
        rfl
      · have after : ((w.serverHandlers.modify h fun c =>
            { c with requester := some w.requesters.size }).get? h) =
            some { cell with requester := some w.requesters.size } := by
          rw [Table.get?_modify_self, handler]
          rfl
        rw [standing_mail, standing_eq_some after]
        have pushed : ((w.requesters.push requester).get? w.requesters.size) = some requester :=
          Table.get?_push_size ..
        simp [ServerHandlerCell.stage, undisposed, standingOf, tally, pushed, core]
    · intro m hm h'
      simp only [List.mem_cons, List.not_mem_nil, or_false] at hm
      rcases hm with rfl | rfl <;> simp
    · exact fun h' hh' => stage_modify_of_ne hh' rfl
    · exact fun h' r cell' _ hcell' hr' =>
        tally_push rfl (reg.bounded.requester (reg.requester_line hcell' hr'))
    · rintro _ _ _ ⟨⟩
      rfl
  | @posted h t r call cell requester o q handler undisposed known requester_eq isOpen line undisposed' =>
    refine ⟨[question h requester.core.nextId call], .of_one (j := h) ?_ ?_ ?_ ?_ ?_ ?_⟩
    · exact outgoing_mail_self { hw with size := hw.size } fun _ => isOpen
    · refine .posted (n := requester.core.nextId) rfl isOpen ?_ ?_
      · rw [standing_eq_some handler, ServerHandlerCell.stage, undisposed, known]
        simp [standingOf, tally, requester_eq, undisposed']
      · rw [standing_mail, World.standing]
        simp [handler, ServerHandlerCell.stage, undisposed, known, standingOf, tally,
          requester_eq, undisposed']
    · intro m hm h'
      obtain rfl := List.mem_singleton.mp hm
      simp
    · exact fun _ _ => rfl
    · exact fun h' r' cell' hh' hcell' hr' =>
        tally_modify_of_ne (reg.requester_ne hh' hcell' hr' line) rfl rfl
    · rintro _ _ _ ⟨⟩
      rfl
  | @unposted h t call _ ps q f reason requesters promises =>
    refine ⟨[], .inl (List.append_nil _).symm, fun h' => ?_, nofun⟩
    cases ho : w.isOpen near with
    | false => exact .stranded ho rfl
    | true =>
      obtain rfl | ⟨closed, -⟩ := requesters
      · refine .same rfl fun _ _ heq => ?_
        cases heq
        obtain closed | gone | ⟨cell, r, requester, hcell, hr, hq, disposed⟩ := reason
        · cases closed.symm.trans ho
        · cases hcell : w.serverHandlers.get? h with
          | none => exact .inl (standing_eq_none hcell)
          | some cell =>
            refine .inr (.inr ?_)
            rw [standing_eq_some hcell, standingOf_eq_gone.mpr (gone cell hcell)]
        · rw [standing_eq_some hcell, ServerHandlerCell.stage, hr]
          cases cell.disposed
          · simp [standingOf, tally, hq, disposed]
          · simp [standingOf]
      · cases closed.symm.trans ho
  | _ => exact ⟨[], .untouched rfl rfl rfl nofun⟩

end Switchboard
