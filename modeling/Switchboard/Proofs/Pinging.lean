import Switchboard.Proofs.Effects

/-!
# What pingers and responders change

A pinger that stops leaves its channel: the service and the hook that it had there are gone. A pong
that reaches a pinger stops it, establishes the peer, or is a sign of life. These facts are stated as
equations between worlds.
-/

namespace Switchboard

def Pinger.pongId? (payload : Json) : Option Nat := (payload.field? Key.channelId).bind Json.asId?

/-- A timing in whole milliseconds is usable if it asks at all, and asks before it gives up. -/
theorem LivenessConfig.validate_ofMillis {interval timeout : Nat}
    (h : (LivenessConfig.mk (.ofMillis interval) (.ofMillis timeout)).validate = .ok ()) :
    0 < interval ∧ interval < timeout := by
  unfold validate at h
  split at h
  · cases h
  · next nonzero =>
    split at h
    · cases h
    · next less =>
      simp only [Span.isZero, Span.ofMillis, beq_iff_eq] at nonzero less
      omega

/-- What a duty says about the clock. -/
theorem Watch.duty_cases (watch : Watch) (now : Nat) :
    watch.duty now = .giveUp ∧ watch.deadline ≤ now ∨
      now < watch.deadline ∧ (watch.duty now = .postpone ∧ 0 < watch.signs ∨
        watch.signs = 0 ∧ (watch.duty now = .ping ∧ watch.nextTick ≤ now ∨
          watch.duty now = .rest ∧ now < watch.nextTick)) := by
  unfold duty
  split
  · next late => exact .inl ⟨rfl, late⟩
  · grind

theorem Watch.duty_eq_giveUp_iff {watch : Watch} {now : Nat} :
    watch.duty now = .giveUp ↔ watch.deadline ≤ now := by
  rcases watch.duty_cases now with ⟨duty, late⟩ | ⟨timely, ⟨duty, -⟩ | ⟨-, ⟨duty, -⟩ | ⟨duty, -⟩⟩⟩
  · exact ⟨fun _ => late, fun _ => duty⟩
  all_goals
    rw [duty]
    exact ⟨nofun, fun late => absurd timely (Nat.not_lt.mpr late)⟩

namespace World

variable {w : World} {p c : Nat} {cell : PingerCell}

/-! ## Stopping -/

def stopped (reason : PingerStop) (cell : PingerCell) : PingerCell :=
  { cell with
    core := { cell.core with state := .disposed reason }, hook := none, onEstablished := none,
    loop := .stopped }

def unwatched (key : Option Nat) (ch : Channel) : Channel :=
  { ch with core := unhook key (ch.core.unregister Service.pong) }

theorem disposePinger_of_live (hp : w.pingers.get? p = some cell)
    (live : cell.core.isDisposed = false) (reason : PingerStop) :
    w.disposePinger p reason =
      { w with
        pingers := w.pingers.modify p (stopped reason)
        channels := w.channels.modify cell.channel (unwatched cell.hook) } := by
  have same : (w.pingers.modify p fun c =>
      { c with
        core := { cell.core with state := .disposed reason }, hook := none, onEstablished := none,
        loop := .stopped }) = w.pingers.modify p (stopped reason) :=
    Table.modify_of_some hp rfl
  simp only [disposePinger, hp, Pinger.dispose?, live, Bool.false_eq_true, if_false, removeHook_eq,
    unregister, modifyChannel, Table.modify_modify, same]
  rfl

theorem disposePinger_of_stopped
    (hp : ∀ cell, w.pingers.get? p = some cell → cell.core.isDisposed = true) (reason : PingerStop) :
    w.disposePinger p reason = w := by
  unfold disposePinger
  cases h : w.pingers.get? p with
  | none => rfl
  | some cell => simp only [Pinger.dispose?, hp cell h, if_true]

/-! ## Pongs -/

def acquainted (id : Nat) (cell : PingerCell) : PingerCell :=
  { cell with core := ⟨.established, some id⟩, onEstablished := none }

def reassured (cell : PingerCell) : PingerCell :=
  { cell with watch := { cell.watch with signs := cell.watch.signs + 1 } }

theorem modify_core_self (hp : w.pingers.get? p = some cell) :
    ({ w with pingers := w.pingers.modify p fun c => { c with core := cell.core } } : World) = w := by
  have same : (w.pingers.modify p fun c => { c with core := cell.core }) = w.pingers :=
    Table.modify_eq_self fun _ ha => by
      cases hp.symm.trans ha
      rfl
  rw [same]

section Pong

variable (hp : w.pingers.get? p = some cell) (live : cell.core.isDisposed = false) {v : Json}
include hp live

theorem onPong_malformed (hv : Pinger.pongId? v = none) :
    w.onPong p v = (w.disposePinger p .malformedPong, [.closeChannel cell.channel]) := by
  unfold Pinger.pongId? at hv
  simp only [onPong, hp, Pinger.receive, live, Bool.false_eq_true, if_false, hv]
  rw [modify_core_self hp]

theorem onPong_mismatch {id expected : Nat} (hv : Pinger.pongId? v = some id)
    (known : cell.core.remote = some expected) (other : expected ≠ id) :
    w.onPong p v = (w.disposePinger p .channelIdMismatch, [.closeChannel cell.channel]) := by
  unfold Pinger.pongId? at hv
  simp only [onPong, hp, Pinger.receive, live, Bool.false_eq_true, if_false, hv, known, other]
  rw [modify_core_self hp]

theorem onPong_alive {id : Nat} (hv : Pinger.pongId? v = some id)
    (known : cell.core.remote = some id) :
    w.onPong p v = (wake (.pinger p) { w with pingers := w.pingers.modify p reassured }, []) := by
  unfold Pinger.pongId? at hv
  simp only [onPong, hp, Pinger.receive, live, Bool.false_eq_true, if_false, hv, known, if_true,
    Table.modify_modify]
  have same : w.pingers.modify p ((fun c => { c with watch := { c.watch with signs := c.watch.signs + 1 } }) ∘
      fun c => { c with core := cell.core }) = w.pingers.modify p reassured :=
    Table.modify_of_some hp rfl
  rw [same]

theorem onPong_first {id : Nat} (hv : Pinger.pongId? v = some id) (unknown : cell.core.remote = none) :
    w.onPong p v =
      match cell.onEstablished with
      | none => ({ w with pingers := w.pingers.modify p (acquainted id) }, [])
      | some script =>
        (({ w with pingers := w.pingers.modify p (acquainted id) } : World).log (.established cell.label),
          nestedAll script) := by
  unfold Pinger.pongId? at hv
  simp only [onPong, hp, Pinger.receive, live, Bool.false_eq_true, if_false, hv, unknown,
    Table.modify_modify]
  rfl

end Pong

/-! ## The loop -/

theorem poll_pingLoop {t : Nat} (ht : w.tasks.get? t = some (.pingLoop p))
    (hp : w.pingers.get? p = some cell) :
    w.poll t =
      if cell.loop = .fresh then ((w.setLoop p .starting).schedule t, []) else (w, [.pingNext p]) := by
  simp only [poll, ht, hp, Option.map_some]
  cases cell.loop <;> rfl

/-! ## Starting -/

def freshPinger (label : String) (c interval timeout clock : Nat) (onEstablished : Option (List Command))
    (hook : Option Nat) : PingerCell :=
  { label := label, channel := c, onEstablished := onEstablished, hook := hook,
    watch :=
      { interval := interval, timeout := timeout, deadline := clock + timeout,
        nextTick := clock + interval } }

def watched (p : Nat) (ch : Channel) : Channel :=
  { ch with core := (ch.core.register Service.pong (.pongs p)).addHook (.pinger p) }

variable {ch : Channel} (hc : w.channels.get? c = some ch)
include hc

theorem newPinger_of_open (ho : ch.core.disposed = false) (label : String) (interval timeout : Nat)
    (onEstablished : Option (List Command)) : w.newPinger label c interval timeout onEstablished = (({ w with
          pingers := w.pingers.push
            (freshPinger label c interval timeout w.clock onEstablished (some ch.core.nextKey))
          channels := w.channels.modify c (watched w.pingers.size) } : World).spawn
            (.pingLoop w.pingers.size), w.pingers.size) := by
  unfold newPinger
  dsimp only
  rw [addHook_register (w := { w with pingers := w.pingers.push _ }) hc]
  simp only [ho, Bool.false_eq_true, if_false, register, modifyChannel, Table.modify_modify,
    Table.modify_push_size]
  rfl

theorem newPinger_of_closed (hd : ch.core.disposed = true) (label : String) (interval timeout : Nat)
    (onEstablished : Option (List Command)) : w.newPinger label c interval timeout onEstablished = (({ w with
          pingers := w.pingers.push (stopped .channelClosed
            (freshPinger label c interval timeout w.clock onEstablished none))
          channels := w.channels.modify c (unwatched none ∘ watched w.pingers.size) } : World).spawn
            (.pingLoop w.pingers.size), w.pingers.size) := by
  unfold newPinger
  dsimp only
  rw [addHook_register (w := { w with pingers := w.pingers.push _ }) hc, if_pos hd,
    disposePinger_of_live (Table.get?_push_size _ _) rfl]
  simp only [register, modifyChannel, Table.modify_modify, Table.modify_push_size]
  rfl

end World

end Switchboard
