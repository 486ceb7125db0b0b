import Switchboard.World.Basic

/-!
# Promises, tasks and waking

A task that cannot go on rests in its table. When something it may be waiting for changes, it is put
into the queue, behind those that are there, and looks again when its turn comes. Waking a task that
then finds nothing new is harmless.
-/

namespace Switchboard

namespace World

def log (event : Event) (w : World) : World := { w with events := w.events ++ [⟨w.clock, event⟩] }

def schedule (t : Nat) (w : World) : World :=
  if w.queue.contains t then w else { w with queue := w.queue ++ [t] }

def spawn (task : Task) (w : World) : World :=
  { w with tasks := w.tasks.push task, queue := w.queue ++ [w.tasks.size] }

def futureSource : Future → Option Source
  | .promise p => some (.promise p)
  | .readiness (.tracker t) => some (.tracker t)
  | .check d _ => some (.desk d)
  | .inquiry d _ => some (.desk d)
  | .cancelled t => some (.token t)
  | .listLoaded l => some (.list l)
  | .listAllows l _ => some (.list l)
  | _ => none

def underlying (w : World) : Future → Future
  | .shared i =>
    match w.shares.get? i with
    | some cell => cell.future
    | none => .shared i
  | f => f

def taskSource (w : World) : Task → Option Source
  | .await f _ => futureSource (w.underlying f)
  | .pump p _ => some (.pair p)
  | .readLoop s => some (.stream s)
  | .writeLoop s => some (.stream s)
  | .pingLoop p => some (.pinger p)
  | .rawRead r => some (.raw r)
  | .rawWrite r => some (.raw r)
  | _ => none

def wake (s : Source) (w : World) : World :=
  w.tasks.entries.foldl
    (fun acc t => if w.taskSource t.2 = some s then acc.schedule t.1 else acc) w

def promise (fallback : Outcome) (w : World) : World :=
  { w with promises := w.promises.push { fallback := fallback } }

def resolve (p : Nat) (outcome : Outcome) (w : World) : World :=
  match w.promises.get? p with
  | some { outcome := none, .. } =>
    wake (.promise p)
      { w with promises := w.promises.modify p fun c => { c with outcome := some outcome } }
  | _ => w

def breakPromise (p : Nat) (w : World) : World :=
  match w.promises.get? p with
  | some c => w.resolve p c.fallback
  | none => w

def breakPromises (ps : List Nat) (w : World) : World := ps.foldl (fun acc p => acc.breakPromise p) w

def resolveAll (ps : List Nat) (outcome : Outcome) (w : World) : World :=
  ps.foldl (fun acc p => acc.resolve p outcome) w

def begin (job : Script) (w : World) : World × Future :=
  match job with
  | .fail e => (w, .done (.outcome (.error e)))
  | .reply v => (w, .done (.outcome (.ok v)))
  | .echo v => (w, .done (.outcome (.ok (.object [("echo", v)]))))
  | .sleep ms => (w, .sleep (w.clock + ms) ms)
  | .wait token =>
    let p := w.promises.size
    let w := w.promise (.error (.other "abandoned"))
    ({ w with waiting := w.waiting ++ [(token, p)] }, .promise p)

def abort (scope detail : String) (w : World) : World :=
  if w.aborted.isSome then w else { w with aborted := some s!"{scope}: protocol desync: {detail}" }

end World

end Switchboard
