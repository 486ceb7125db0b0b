import Switchboard.Channel.Frame
import Switchboard.World.Schedule

/-!
# Channels of a world

Sending puts a message on its way and never delivers it: a recorder reports it, a pair queues it for
the other end, and a stream queues its frame for the writer.
-/

namespace Switchboard

namespace World

def newPair (first second : String) (w : World) : World × Nat × Nat :=
  let a := w.channels.size
  let p := w.pairs.size
  let firstEnd : Channel := { label := first, transport := .paired p false }
  let secondEnd : Channel := { label := second, transport := .paired p true }
  let w := { w with
    channels := (w.channels.push firstEnd).push secondEnd
    pairs := w.pairs.push { first := a, second := a + 1 } }
  ((w.spawn (.pump p true)).spawn (.pump p false), a, a + 1)

def modifyChannel (c : Nat) (f : ChannelCore Handler Hook → ChannelCore Handler Hook) (w : World) :
    World :=
  { w with channels := w.channels.modify c fun ch => { ch with core := f ch.core } }

def isOpen (w : World) (c : Nat) : Bool :=
  match w.channels.get? c with
  | some ch => !ch.core.disposed
  | none => false

def send (c : Nat) (service : String) (payload : Json) (w : World) : World × Except Fault Unit :=
  match w.channels.get? c with
  | none => (w, .error .channelDisposed)
  | some ch =>
    if ch.core.disposed then (w, .error .channelDisposed)
    else
      match ch.transport with
      | .recorder (some e) => (w, .error e)
      | .recorder none => (w.log (.sent ch.label service payload), .ok ())
      | .paired p second =>
        (wake (.pair p)
          { w with pairs := w.pairs.modify p fun q => q.enqueue second (service, payload) },
          .ok ())
      | .stream s =>
        match Frame.encode service payload with
        | .error e => (w, .error e)
        | .ok frame =>
          (wake (.stream s)
            { w with streams := w.streams.modify s fun t => { t with outbox := t.outbox ++ [frame] } },
            .ok ())

def sendQuietly (c : Nat) (service : String) (payload : Json) (w : World) : World :=
  (w.send c service payload).1

def register (c : Nat) (service : String) (handler : Handler) (w : World) : World :=
  w.modifyChannel c fun core => core.register service handler

def unregister (c : Nat) (service : String) (w : World) : World :=
  w.modifyChannel c fun core => core.unregister service

def removeHook (c : Nat) (key : Option Nat) (w : World) : World :=
  match key with
  | some k => w.modifyChannel c fun core => core.removeHook k
  | none => w

/-- Keep a hook on a channel. The hook's key, and whether the channel is closed and the hook has to run
now. -/
def addHook (c : Nat) (hook : Hook) (w : World) : World × Nat × Bool :=
  match w.channels.get? c with
  | none => (w, 0, false)
  | some ch =>
    (w.modifyChannel c fun core => core.addHook hook, ch.core.nextKey, ch.core.disposed)

end World

end Switchboard
