import Switchboard.World.Channel

/-!
# Streams of a world

A stream channel reads and writes bytes in two loops. The reader takes whole frames off what has come
in, the writer puts queued frames into the outgoing pipe as far as there is room. Closing the channel
stops the reader at once; the writer still finishes a frame that it has begun, and then closes the
outgoing pipe. When both have stopped, the stream lets go of both pipes.
-/

namespace Switchboard

namespace World

def modifyPipe (p : Nat) (f : Pipe → Pipe) (w : World) : World := { w with pipes := w.pipes.modify p f }

def modifyStream (s : Nat) (f : Stream → Stream) (w : World) : World :=
  { w with streams := w.streams.modify s f }

def wakePipe (p : Nat) (w : World) : World :=
  let w := w.streams.entries.foldl
    (fun acc e => if e.2.incoming = p ∨ e.2.outgoing = p then wake (.stream e.1) acc else acc) w
  w.raws.entries.foldl
    (fun acc e => if e.2.incoming = p ∨ e.2.outgoing = p then wake (.raw e.1) acc else acc) w

def closePipe (p : Nat) (w : World) : World := (w.modifyPipe p Pipe.close).wakePipe p

def releasePipes (s : Nat) (w : World) : World :=
  match w.streams.get? s with
  | none => w
  | some t =>
    if t.readerDone && t.writerDone then (w.closePipe t.incoming).closePipe t.outgoing else w

def finishReader (s : Nat) (w : World) : World :=
  (w.modifyStream s fun t => { t with readerDone := true }).releasePipes s

def finishWriter (s : Nat) (inOrder : Bool) (w : World) : World :=
  let w := w.modifyStream s fun t => { t with writerDone := true }
  let w :=
    match w.streams.get? s with
    | some t => if inOrder then w.closePipe t.outgoing else w
    | none => w
  w.releasePipes s

/-- Read on. A whole frame is handed on before the next is looked at; the end of the stream and a
length over the limit close the channel. -/
def readNext (s : Nat) (w : World) : World × List Action :=
  match w.streams.get? s with
  | none => (w, [])
  | some t =>
    if t.readerDone then (w, [])
    else if t.cancelled then (w.finishReader s, [])
    else
      match w.pipes.get? t.incoming with
      | none => (w, [])
      | some pipe =>
        let (drained, bytes) := pipe.drain
        let taken :=
          if bytes.isEmpty then w
          else (w.modifyPipe t.incoming fun _ => drained).wakePipe t.incoming
        let all := t.fragment ++ bytes
        let closing : List Action :=
          if t.orphaned then [.finishReader s] else [.closeChannel t.channel, .finishReader s]
        match Frame.cut all with
        | .frame body rest =>
          let w := taken.modifyStream s fun t => { t with fragment := rest }
          if t.orphaned then (w, [.finishReader s]) else (w, [.frame s body, .readOn s])
        | .tooLong rest => (taken.modifyStream s fun t => { t with fragment := rest }, closing)
        | .short =>
          let w := taken.modifyStream s fun t => { t with fragment := all }
          if pipe.closed then (w, closing) else (w, [])

def readOn (s : Nat) (w : World) : World × List Action :=
  match w.streams.get? s with
  | none => (w, [])
  | some t => (w, if w.isOpen t.channel then [.readNext s] else [.finishReader s])

def takeFrame (s : Nat) (body : ByteArray) (w : World) : World × List Action :=
  match w.streams.get? s with
  | none => (w, [])
  | some t =>
    match Frame.decode? body with
    | some m => (w, [.deliver t.channel m.service m.data])
    | none =>
      let scope := ((w.channels.get? t.channel).map Channel.label).getD ""
      (w, [.violation t.policy scope s!"failed to decode a frame of {body.size} bytes" t.channel])

def writeNext (s : Nat) (w : World) : World × List Action :=
  match w.streams.get? s with
  | none => (w, [])
  | some t =>
    if t.writerDone then (w, [])
    else
      match t.outbox with
      | [] => if t.cancelled || t.orphaned then (w.finishWriter s true, []) else (w, [])
      | frame :: rest =>
        if t.cancelled && !t.begun then (w.finishWriter s true, [])
        else
          match w.pipes.get? t.outgoing with
          | none => (w, [])
          | some pipe =>
            if pipe.closed then
              (w.finishWriter s false, if t.orphaned then [] else [.closeChannel t.channel])
            else
              let (filled, n) := pipe.write frame t.written
              let w := if n = 0 then w else (w.modifyPipe t.outgoing fun _ => filled).wakePipe t.outgoing
              if t.written + n < frame.size then
                (w.modifyStream s fun t => { t with begun := true, written := t.written + n }, [])
              else
                (w.modifyStream s fun t => { t with begun := false, written := 0, outbox := rest },
                  [.writeNext s])

/-! ## Raw ends -/

def modifyRaw (r : Nat) (f : RawEnd → RawEnd) (w : World) : World := { w with raws := w.raws.modify r f }

def rawRead (r : Nat) (w : World) : World :=
  match w.raws.get? r with
  | none => w
  | some raw =>
    if raw.dropped || !raw.reads then w
    else
      match w.pipes.get? raw.incoming with
      | none => w
      | some pipe =>
        let (drained, bytes) := pipe.drain
        let w := w.modifyRaw r fun c =>
          { c with received := c.received ++ bytes, ended := c.ended || pipe.closed }
        if bytes.isEmpty then w else (w.modifyPipe raw.incoming fun _ => drained).wakePipe raw.incoming

def rawWrite (r : Nat) (w : World) : World :=
  match w.raws.get? r with
  | none => w
  | some raw =>
    if raw.dropped then w
    else
      match w.pipes.get? raw.outgoing with
      | none => w
      | some pipe =>
        if pipe.closed then w.modifyRaw r fun c => { c with toWrite := .empty }
        else
          let (filled, n) := pipe.write raw.toWrite 0
          let left := raw.toWrite.extract n raw.toWrite.size
          let w := w.modifyRaw r fun c => { c with toWrite := left }
          let w := if n = 0 then w else (w.modifyPipe raw.outgoing fun _ => filled).wakePipe raw.outgoing
          if left.isEmpty && raw.shutdown then w.closePipe raw.outgoing else w

def rawDrop (r : Nat) (w : World) : World :=
  match w.raws.get? r with
  | none => w
  | some raw =>
    let w := w.modifyRaw r fun c => { c with dropped := true, toWrite := .empty }
    (w.closePipe raw.incoming).closePipe raw.outgoing

/-- Two pipes of one capacity; their numbers are the size before and the next one. -/
def newPipes (capacity : Nat) (w : World) : World × Nat × Nat :=
  let a := w.pipes.size
  ({ w with pipes := (w.pipes.push { capacity := capacity }).push { capacity := capacity } }, a, a + 1)

def newStream (label : String) (policy : Policy) (incoming outgoing : Nat) (w : World) : World × Nat :=
  let c := w.channels.size
  let s := w.streams.size
  let channel : Channel := { label := label, transport := .stream s }
  let stream : Stream :=
    { channel := c, policy := policy, incoming := incoming, outgoing := outgoing }
  let w := { w with channels := w.channels.push channel, streams := w.streams.push stream }
  ((w.spawn (.readLoop s)).spawn (.writeLoop s), c)

end World

end Switchboard
