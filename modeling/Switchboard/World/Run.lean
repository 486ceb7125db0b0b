import Switchboard.World.Task

/-!
# Running a world

A command is carried out to the end, with everything its callbacks do at once (`drain`). Then the
tasks that can go on do so in turn, until none can without time passing (`settle`). Time passes from
one timer to the next.

Running is bounded by fuel, which is far beyond what any orderly world needs; a world whose callbacks
answer each other for ever stops there.
-/

namespace Switchboard

namespace World

/-! ## Ownership -/

def holdsChannel (w : World) (c : Nat) : Bool :=
  w.names.any (fun n => n.2 = .channel c) ||
  w.requesters.cells.any (fun x => x.live && x.channel == c) ||
  w.receivers.cells.any (fun x => x.live && x.channel == c) ||
  w.pingers.cells.any (fun x => x.live && x.channel == c) ||
  w.responders.cells.any (fun x => x.live && x.channel == c) ||
  w.serverHandlers.cells.any (fun x => x.live && x.channel == c) ||
  w.clientHandlers.cells.any (fun x => x.live && x.channel == c) ||
  w.registries.cells.any (fun x => x.live && x.channel == c) ||
  w.tasks.cells.any fun t =>
    match t with
    | .await _ (.respond d _ _) => d == c
    | _ => false

def reapStreams (w : World) : World :=
  w.streams.entries.foldl
    (fun acc e =>
      if e.2.orphaned || w.holdsChannel e.2.channel then acc
      else wake (.stream e.1) (acc.modifyStream e.1 fun t => { t with orphaned := true })) w

def reapCheckers (w : World) : World :=
  w.checkers.entries.foldl
    (fun acc e =>
      let held := w.names.any (fun n => n.2 = .checker e.1) ||
        w.clientHandlers.cells.any fun x => x.live && x.checker = .manual e.1
      if held || !e.2.live then acc
      else
        ({ acc with checkers := acc.checkers.modify e.1 fun c => { c with live := false } }).breakPromises
          e.2.checks) w

def reapLists (w : World) : World :=
  w.lists.entries.foldl
    (fun acc e =>
      if w.names.any (fun n => n.2 = .list e.1) || !e.2.live then acc
      else
        wake (.list e.1) { acc with lists := acc.lists.modify e.1 fun c => { c with live := false } }) w

def reap (w : World) : World := w.reapStreams.reapCheckers.reapLists

/-! ## Running -/

/-- How many actions a command or task may lead to, and how many tasks may run in a row. -/
def fuel : Nat := 1000000

def drain : Nat → List Action → World → World
  | 0, _, w => w
  | _, [], w => w
  | n + 1, action :: rest, w =>
    if w.aborted.isSome then w
    else
      let (w, more) := w.perform action
      drain n (more ++ rest) w

def settle : Nat → World → World
  | 0, w => w
  | n + 1, w =>
    match w.queue with
    | [] => w
    | t :: rest =>
      if w.aborted.isSome then w
      else
        let (w, actions) := { w with queue := rest }.poll t
        settle n (drain fuel actions w).reap

def obey (command : Command) (w : World) : World × Reply :=
  let (w, actions, reply) := w.execute command
  ((drain fuel actions w).reap, reply)

/-! ## Time -/

def timers (w : World) : List (Nat × Nat) :=
  w.tasks.entries.filterMap fun t => (w.dueTime t.2).map fun time => (time, t.1)

def wakeDue (time : Nat) (w : World) : World :=
  let due := (w.timers.filter fun t => t.1 ≤ time).mergeSort fun a b => a.1 ≤ b.1
  due.foldl (fun acc t => acc.schedule t.2) { w with clock := time }

def nextTimer? (w : World) (limit : Nat) : Option Nat :=
  ((w.timers.map Prod.fst).filter (· ≤ limit)).min?

def passTime : Nat → Nat → World → World
  | 0, target, w => { w with clock := target }
  | n + 1, target, w =>
    if w.aborted.isSome then w
    else
      match w.nextTimer? target with
      | none => { w with clock := target }
      | some time => passTime n target (settle fuel (w.wakeDue (max time w.clock)))

def elapse (command : Command) (w : World) : World :=
  match command with
  | .advance ms => settle fuel (passTime fuel (w.clock + ms) (settle fuel w))
  | .jump ms => settle fuel (w.wakeDue (w.clock + ms))
  | _ => settle fuel w

end World

end Switchboard
