import Switchboard.Proofs.Occurrence

/-!
# Messages arrive once and in order

Everything sent from a channel is handed over at its peer, is about to be, or is still on its way, in
the order in which it was sent. Nothing is lost, repeated or made up.
-/

namespace Switchboard

open Exchange History

/-! ## Sending -/

namespace World

variable {c : Nat}

theorem Wired.pair {w : World} (hw : w.Wired) (ho : w.isOpen c = true) :
    ∃ q, w.pairs.get? (c / 2) = some q := by
  refine Table.get?_isSome_of_lt ?_
  grind [hw.size, isOpen]

theorem outgoing_emit {w : World} (hw : w.Wired) (ho : w.isOpen c = true) (m : String × Json) (c' : Nat) :
    (w.emit c m).outgoing c' = w.outgoing c' ++ if c' = c then [m] else [] := by
  obtain ⟨_, _⟩ := hw.pair ho
  grind [outgoing, emit, Pair.enqueue]

theorem outgoing_mail {w : World} (hw : w.Wired) {l : List (String × Json)}
    (ho : l ≠ [] → w.isOpen c = true) (c' : Nat) :
    (w.mail c l).outgoing c' = w.outgoing c' ++ if c' = c then l else [] := by
  induction l generalizing w with
  | nil => simp [mail]
  | cons m l ih =>
    have hopen := ho (List.cons_ne_nil _ _)
    show ((w.emit c m).mail c l).outgoing c' = _
    rw [ih (hw.emit c m) fun _ => hopen, outgoing_emit hw hopen]
    by_cases hc : c' = c <;> simp [hc]

theorem outgoing_newPair (w : World) (first second : String) (c : Nat) :
    (w.newPair first second).1.outgoing c = w.outgoing c := by
  grind [outgoing, newPair, spawn]

end World

namespace Action

def isMail : Action → Bool
  | .deliver _ _ _ => true
  | .pumpNext _ _ => true
  | _ => false

theorem isMail_of_isErrand {a : Action} (h : a.isErrand = true) : a.isMail = false := by
  cases a <;> first | rfl | cases h

end Action

/-- What becomes of the messages on their way. -/
inductive Carriage (w : World) : Cause → World → List Action → Prop
  | sent {κ : Cause} {w' : World} {more : List Action} (out : Nat → List (String × Json))
      (outgoing : ∀ c, w'.outgoing c = w.outgoing c ++ out c)
      (more_mail : more.filter Action.isMail = [])
      (cause : ∀ p second, κ ≠ .action (.pumpNext p second)) : Carriage w κ w' more
  /-- The first message on its way is about to be handed over. -/
  | taken {p : Nat} {second : Bool} {w' : World} {service : String} {v : Json} {c : Nat}
      (head : w.outgoing c = (service, v) :: w'.outgoing c)
      (others : ∀ c', c' ≠ c → w'.outgoing c' = w.outgoing c') :
      Carriage w (.action (.pumpNext p second)) w' [.deliver (peer c) service v, .pumpNext p second]
  | stopped {p : Nat} {second : Bool} : Carriage w (.action (.pumpNext p second)) w []
  | begun {t p : Nat} {second : Bool} : Carriage w (.task t) w [.pumpNext p second]

variable {L : Ledger} {w w' : World} {κ : Cause} {more : List Action}

theorem filter_isMail_of_errands (h : more.all Action.isErrand = true) :
    more.filter Action.isMail = [] := by
  rw [List.filter_eq_nil_iff]
  intro a ha
  simp [Action.isMail_of_isErrand (List.all_eq_true.mp h a ha)]

theorem filter_isMail_runHook (hooks : List Hook) :
    (hooks.map Action.runHook).filter Action.isMail = [] := by
  rw [List.filter_eq_nil_iff]
  rintro _ ha
  obtain ⟨_, -, rfl⟩ := List.mem_map.mp ha
  nofun

theorem World.filter_isMail_flushes (g : Nat) (cell : GateCell) :
    (flushes g cell).filter Action.isMail = [] := by
  unfold flushes
  split <;> rfl

/-- Nothing is on its way that was not before. -/
theorem Carriage.none (outgoing : ∀ c, w'.outgoing c = w.outgoing c)
    (more_mail : more.filter Action.isMail = []) (cause : ∀ p second, κ ≠ .action (.pumpNext p second)) :
    Carriage w κ w' more :=
  .sent (fun _ => []) (fun c => (outgoing c).trans (List.append_nil _).symm) more_mail cause

variable {c : Nat}

theorem Carriage.of_mail {w₀ : World} {ms : List (String × Json)} (hw : w₀.Wired)
    (outgoing : ∀ c, w₀.outgoing c = w.outgoing c) (ho : ms ≠ [] → w₀.isOpen c = true)
    (more_mail : more.filter Action.isMail = []) (cause : ∀ p second, κ ≠ .action (.pumpNext p second)) :
    Carriage w κ (w₀.mail c ms) more := by
  refine .sent (fun c' => if c' = c then ms else []) (fun c' => ?_) more_mail cause
  rw [World.outgoing_mail hw ho, outgoing]

variable {rest : Pair} {second : Bool}

theorem Pair.next?_cases {q : Pair} {m : String × Json} (h : q.next? second = some (m, rest)) :
    second = true ∧ q.toSecond = m :: rest.toSecond ∧ rest.toFirst = q.toFirst ∨
      second = false ∧ q.toFirst = m :: rest.toFirst ∧ rest.toSecond = q.toSecond := by
  unfold Pair.next? at h
  split at h
  · cases h
  · grind

variable {service : String} {v : Json}

theorem World.carriage_pumped {p : Nat} {pair : Pair} (hw : w.Wired) (hpair : w.pairs.get? p = some pair)
    (next : pair.next? second = some ((service, v), rest)) :
    Carriage w (.action (.pumpNext p second)) { w with pairs := w.pairs.modify p fun _ => rest }
      [.deliver (pair.channel second) service v, .pumpNext p second] := by
  obtain ⟨first_eq, second_eq⟩ := hw.ends p pair hpair
  have other : ∀ c, c / 2 ≠ p →
      ({ w with pairs := w.pairs.modify p fun _ => rest } : World).outgoing c = w.outgoing c := by
    intro c hc
    unfold outgoing
    rw [Table.get?_modify_of_ne (Ne.symm hc)]
  have same : ∀ c, c / 2 = p →
      ({ w with pairs := w.pairs.modify p fun _ => rest } : World).outgoing c =
        if c % 2 = 0 then rest.toSecond else rest.toFirst := by
    rintro c rfl
    unfold outgoing
    dsimp only
    rw [Table.get?_modify_self, hpair]
    rfl
  have before : ∀ c, c / 2 = p → w.outgoing c = if c % 2 = 0 then pair.toSecond else pair.toFirst := by
    rintro c rfl
    unfold outgoing
    rw [hpair]
  obtain ⟨rfl, hq, hsame⟩ | ⟨rfl, hq, hsame⟩ := Pair.next?_cases next
  · have channel : pair.channel true = peer (2 * p) := by
      rw [peer, if_pos (by omega)]
      exact second_eq
    rw [channel]
    refine .taken ?_ fun c' hc' => ?_
    · rw [before _ (by omega), same _ (by omega), if_pos (by omega), if_pos (by omega), hq]
    · grind
  · have channel : pair.channel false = peer (2 * p + 1) := by
      rw [peer, if_neg (by omega)]
      exact first_eq
    rw [channel]
    refine .taken ?_ fun c' hc' => ?_
    · rw [before _ (by omega), same _ (by omega), if_neg (by omega), if_neg (by omega), hq]
    · grind

theorem Happening.carriage (h : Happening L w κ w' more) (hw : w.Wired) : Carriage w κ w' more := by
  cases h with
  | calm trifling calm chores =>
    refine .none calm.outgoing (filter_isMail_of_errands chores.errands) ?_
    rintro p second rfl
    cases trifling
  | ignored _ calm protest =>
    refine .none calm.outgoing ?_ nofun
    obtain rfl | ⟨_, _, _, rfl⟩ := protest <;> rfl
  | vacant reason =>
    refine .none (fun _ => rfl) rfl ?_
    rintro p second ⟨⟩
    obtain ⟨_, h⟩ | ⟨_, h, -⟩ := reason <;> cases h
  | breach cause more_eq =>
    refine .none (fun _ => rfl) ?_ ?_
    · obtain rfl | ⟨_, _, rfl⟩ := more_eq <;> rfl
    · rintro p second ⟨⟩
      obtain ⟨_, _, _, h⟩ | ⟨_, _, _, h, -⟩ := cause <;> cases h
  | joined | forwarded =>
    refine .none (fun _ => rfl) ?_ nofun
    rw [List.filter_append, World.filter_isMail_flushes]
    rfl
  | handled => exact .none (fun _ => rfl) (World.filter_isMail_flushes _ _) nofun
  | shutCore => exact .none (fun _ => rfl) (filter_isMail_runHook _) nofun
  | @shutHandler h cell _ _ _ _ _ _ leave_eq =>
    have shape := World.SameShape.parted w cell
    refine .of_mail (World.SameShape.wired (w := w) shape rfl hw) (fun _ => rfl) (fun hne => ?_)
      (filter_isMail_runHook _) nofun
    by_cases hc : cell.requester.isSome = true ∧ cell.channelGone = false ∧ w.isOpen near = true
    · exact (World.SameShape.isOpen (w := w) shape near).trans hc.2.2
    · exact absurd (leave_eq.trans (if_neg hc)) hne
  | shutClient _ _ _ chores | admitted _ _ _ _ chores | failed _ _ _ _ _ chores =>
    exact .none (fun _ => rfl) (filter_isMail_of_errands chores.errands) nofun
  | @announced h _ _ _ _ _ _ _ _ _ isOpen =>
    have shape := World.SameShape.listening w.channels near (Service.callFunction h) w.requesters.size
    exact .of_mail (World.SameShape.wired (w := w) shape rfl hw) (fun _ => rfl)
      (fun _ => (World.SameShape.isOpen (w := w) shape near).trans isOpen) rfl nofun
  | posted _ _ _ _ isOpen | requested _ _ isOpen | injected _ isOpen | answered _ _ _ isOpen =>
    exact .of_mail { hw with size := hw.size } (fun _ => rfl) (fun _ => isOpen) rfl nofun
  | pumped pair_eq next => exact World.carriage_pumped hw pair_eq next
  | drained => exact .stopped
  | pumping => exact .begun
  | connected => exact .none (w.outgoing_newPair _ _) rfl nofun
  | _ => exact .none (fun _ => rfl) rfl nofun

/-! ## What is sent is handed over -/

namespace Exchange

theorem peer_peer (c : Nat) : peer (peer c) = c := by
  unfold peer
  split <;> split <;> omega

variable {c : Nat}

theorem peer_injective {c' : Nat} (h : peer c = peer c') : c = c' := by
  rw [← peer_peer c, h, peer_peer]

/-- All that was sent on a channel. -/
def sentOn (ts : List Transition) (c : Nat) : List (String × Json) := ts.flatMap fun t => t.sent c

def messageTo (c : Nat) : Option (Nat × String × Json) → Option (String × Json)
  | some (c', m) => if c' = c then some m else none
  | none => none

def handedTo (ts : List Transition) (c : Nat) : List (String × Json) :=
  ts.filterMap fun t => messageTo c t.delivered?

/-- The messages from a channel that are about to be handed over or still on their way. -/
def transit (x : Exchange) (c : Nat) : List (String × Json) :=
  x.agenda.filterMap (fun a => messageTo (peer c) (Cause.action a).delivered?) ++ x.world.outgoing c

theorem sentOn_append (ts : List Transition) (t : Transition) (c : Nat) :
    sentOn (ts ++ [t]) c = sentOn ts c ++ t.sent c := by
  simp [sentOn]

theorem handedTo_append (ts : List Transition) (t : Transition) (c : Nat) :
    handedTo (ts ++ [t]) c = handedTo ts c ++ (messageTo c t.delivered?).toList := by
  grind [handedTo]

theorem Transition.sent_of_append {t : Transition} {ms : List (String × Json)}
    (h : t.after.world.outgoing c = t.before.world.outgoing c ++ ms) : t.sent c = ms := by
  rw [Transition.sent, h, List.drop_left]

/-- At most one message is about to be handed over, and then the next one is looked for. -/
inductive Courier : List Action → Prop
  | resting : Courier []
  | looking (p : Nat) (second : Bool) : Courier [.pumpNext p second]
  | handing (c : Nat) (service : String) (v : Json) (p : Nat) (second : Bool) :
      Courier [.deliver c service v, .pumpNext p second]

variable {after : List Action}

theorem Courier.of_append {before : List Action} (h : Courier (before ++ after)) :
    Courier after := by
  induction before with
  | nil => exact h
  | cons _ before ih =>
    refine ih ?_
    rw [List.cons_append] at h
    generalize before ++ after = tail at h ⊢
    cases h with
    | looking => exact .resting
    | handing _ _ _ p second => exact .looking p second

theorem Courier.nil_of_pumpNext {p : Nat} {second : Bool}
    (h : Courier (.pumpNext p second :: after)) : after = [] := by
  cases h
  rfl

/-- What was sent has been handed over, or will be, in the same order. -/
structure Delivery (ts : List Transition) (x : Exchange) : Prop where
  balance : ∀ c, sentOn ts c = handedTo ts (peer c) ++ x.transit c
  courier : Courier (x.agenda.filter Action.isMail)

end Exchange

theorem Action.delivered?_of_not_isMail {a : Action} (h : a.isMail = false) :
    (Cause.action a).delivered? = none := by
  cases a <;> first | rfl | cases h

theorem filterMap_messageTo (agenda : List Action) (c : Nat) :
    agenda.filterMap (fun a => messageTo c (Cause.action a).delivered?) =
      (agenda.filter Action.isMail).filterMap fun a => messageTo c (Cause.action a).delivered? := by
  rw [List.filterMap_filter]
  congr 1
  funext a
  cases h : a.isMail with
  | true => rfl
  | false => rw [Action.delivered?_of_not_isMail h]; rfl

theorem Cause.delivered?_consumed (κ : Cause) (c : Nat) :
    κ.consumed.filterMap (fun a => messageTo c (Cause.action a).delivered?) =
      (messageTo c κ.delivered?).toList := by
  cases κ with
  | action a =>
    cases h : messageTo c (Cause.action a).delivered? <;> simp [consumed, h]
  | task | owner => rfl

/-- What was sent has been handed over, is about to be, or is on its way, and this stays so. -/
theorem Carriage.balance {agenda rest : List Action} {sent handed : Nat → List (String × Json)}
    (h : Carriage w κ w' more) (split : agenda = κ.consumed ++ rest)
    (idle : ∀ t, κ = .task t → rest = []) (courier : Courier (agenda.filter Action.isMail))
    (balance : ∀ c, sent c = handed (peer c) ++ transit ⟨w, agenda⟩ c) :
    Courier ((more ++ rest).filter Action.isMail) ∧
      ∀ c, sent c ++ (w'.outgoing c).drop (w.outgoing c).length =
        handed (peer c) ++ (messageTo (peer c) κ.delivered?).toList ++ transit ⟨w', more ++ rest⟩ c := by
  subst split
  rw [List.filter_append] at courier
  simp only [transit, List.filterMap_append, κ.delivered?_consumed] at balance
  cases h with
  | sent _ outgoing more_mail =>
    rw [List.filter_append, more_mail]
    refine ⟨courier.of_append, fun c => ?_⟩
    rw [transit, List.filterMap_append, filterMap_messageTo more, more_mail, balance c, outgoing c, List.drop_left]
    simp
  | @taken _ _ w' _ _ c head others =>
    have rest_mail : rest.filter Action.isMail = [] := courier.nil_of_pumpNext
    rw [List.filter_append, rest_mail]
    refine ⟨.handing .., fun c' => ?_⟩
    have balance := balance c'
    rw [filterMap_messageTo rest, rest_mail] at balance
    rw [transit, List.filterMap_append, filterMap_messageTo rest, rest_mail, balance]
    by_cases hc : c' = c
    · subst hc
      simp [head, messageTo, Cause.delivered?]
    · have away : peer c ≠ peer c' := fun h => hc (peer_injective h).symm
      simp [others c' hc, messageTo, Cause.delivered?, away]
  | stopped =>
    rw [List.nil_append, show rest.filter Action.isMail = [] from courier.nil_of_pumpNext]
    exact ⟨.resting, fun c => by simp [balance c, transit, messageTo, Cause.delivered?]⟩
  | @begun t =>
    obtain rfl := idle t rfl
    exact ⟨.looking .., fun c => by simp [balance c, transit, messageTo, Cause.delivered?]⟩

variable {x : Exchange} {ts : List Transition}

/-- Every move keeps the balance of messages. -/
theorem Occurs.delivery {m : Move} {rest : List Action}
    (o : Occurs L x m κ w' more rest) (hw : x.world.Wired) (h : Delivery ts x) :
    Delivery (ts ++ [x.transition m]) (x.step m) := by
  have idle t (ht : κ = .task t) : rest = [] := by
    subst ht
    exact o.agenda.symm.trans (o.idle t rfl)
  obtain ⟨courier, balance⟩ := (o.happening.carriage hw).balance o.agenda idle h.courier h.balance
  refine ⟨fun c => ?_, by rw [o.after]; exact courier⟩
  rw [sentOn_append, handedTo_append, o.delivered, Transition.sent, transition, o.after]
  exact balance c

/-- What is about to be handed over was sent. -/
theorem Exchange.Delivery.sent (h : Delivery ts x) (ha : .deliver c service v ∈ x.agenda) :
    (ofTrace ts).sent (peer c) (service, v) := by
  have mem : (service, v) ∈ sentOn ts (peer c) := by
    rw [h.balance (peer c), peer_peer]
    refine List.mem_append_right _ (List.mem_append_left _ ?_)
    rw [peer_peer, List.mem_filterMap]
    exact ⟨_, ha, if_pos rfl⟩
  exact List.mem_flatMap.mp mem

end Switchboard
