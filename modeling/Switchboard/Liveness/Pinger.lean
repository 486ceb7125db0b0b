import Switchboard.Json.Basic
import Switchboard.Service

/-!
# Pingers

A pinger watches whether the peer of its channel is alive. The first pong establishes the peer and
fixes its identifier; a later one with the same identifier is a sign of life, and one with another
identifier means that the peer was replaced. The first cause of disposal is the one recorded.

`Watch` is the pinger's clock: the time at which silence becomes death and the time of the next ping.
A sign of life postpones death; the first pong does not.
-/

namespace Switchboard

inductive PingerStop where
  | timedOut
  | channelIdMismatch
  | malformedPong
  | channelClosed
  | explicit
deriving DecidableEq, Repr, Inhabited

inductive PingerState where
  | awaitingFirstPong
  | established
  | disposed (reason : PingerStop)
deriving DecidableEq, Repr, Inhabited

/-- What a pinger knows of its peer. -/
structure Pinger where
  state : PingerState := .awaitingFirstPong
  remote : Option Nat := none
deriving DecidableEq, Repr, Inhabited

namespace PingerStop

def name : PingerStop → String
  | .timedOut => "TimedOut"
  | .channelIdMismatch => "ChannelIdMismatch"
  | .malformedPong => "MalformedPong"
  | .channelClosed => "ChannelClosed"
  | .explicit => "Explicit"

end PingerStop

namespace PingerState

def name : PingerState → String
  | .awaitingFirstPong => "AwaitingFirstPong"
  | .established => "Established"
  | .disposed reason => s!"Disposed({reason.name})"

end PingerState

namespace Pinger

def isDisposed (p : Pinger) : Bool :=
  match p.state with
  | .disposed _ => true
  | _ => false

def dispose? (p : Pinger) (reason : PingerStop) : Option Pinger :=
  if p.isDisposed then none else some { p with state := .disposed reason }

inductive Pong where
  | ignored
  | malformed
  | first
  | alive
  | mismatch
deriving DecidableEq, Repr

def receive (p : Pinger) (payload : Json) : Pinger × Pong :=
  if p.isDisposed then (p, .ignored)
  else
    match (payload.field? Key.channelId).bind Json.asId? with
    | none => (p, .malformed)
    | some id =>
      match p.remote with
      | none => ({ state := .established, remote := some id }, .first)
      | some expected => if expected = id then (p, .alive) else (p, .mismatch)

end Pinger

/-- The clock of a pinger, in milliseconds. -/
structure Watch where
  interval : Nat
  timeout : Nat
  /-- When silence becomes death. -/
  deadline : Nat
  nextTick : Nat
  /-- Signs of life not yet taken into account. -/
  signs : Nat := 0
deriving DecidableEq, Repr, Inhabited

namespace Watch

/-- What a look at the clock calls for. -/
inductive Duty where
  | giveUp
  | postpone
  | ping
  | rest
deriving DecidableEq, Repr

/-- What is to be done at a time: death comes before signs of life, and these before pings. -/
def duty (w : Watch) (now : Nat) : Duty :=
  if w.deadline ≤ now then .giveUp
  else if w.signs > 0 then .postpone
  else if w.nextTick ≤ now then .ping
  else .rest

def tolerance : Nat := 5

def postpone (w : Watch) (now : Nat) : Watch :=
  { w with signs := w.signs - 1, deadline := now + w.timeout }

def tick (w : Watch) (now : Nat) : Watch :=
  { w with nextTick := if now > w.nextTick + tolerance then now + w.interval
                       else w.nextTick + w.interval }

def nextTime (w : Watch) : Nat := min w.deadline w.nextTick

end Watch

end Switchboard
