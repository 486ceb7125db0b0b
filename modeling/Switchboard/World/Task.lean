import Switchboard.World.Execute

/-!
# Tasks

`poll` lets a task go on as far as it can. A task that waits for a future looks at it once; when the
result is there, the task ends and its continuation is carried out.
-/

namespace Switchboard

namespace World

def runErrand (d : Nat) (label : String) (errand : Errand) (w : World) : World :=
  match errand with
  | .display request => w.log (.prompted label request)
  | .close origin => w.log (.promptClosed label origin)
  | .store origin => w.spawn (.storeGrant d origin)

def afterLook (d : Nat) (label : String)
    (result : Desk × List Errand × Option (Except Fault Unit)) (w : World) : World × Option Settled :=
  let (desk, errands, outcome) := result
  let w := errands.foldl (fun acc e => acc.runErrand d label e) (w.setDesk d desk)
  let w := if errands.isEmpty && outcome.isNone then w else wake (.desk d) w
  (w, outcome.map fun o => .outcome (o.map fun _ => .null))

def lookAt (future : Future) (w : World) : World × Option Settled :=
  match future with
  | .done result => (w, some result)
  | .promise p => (w, ((w.promises.get? p).bind Promise.outcome).map Settled.outcome)
  | .sleep wake ms =>
    (w, if wake ≤ w.clock then some (.outcome (.ok (.obj [("slept", .ofNat ms)]))) else none)
  | .readiness .always => (w, some (.outcome (.ok .null)))
  | .readiness (.tracker t) =>
    match w.trackers.get? t with
    | none => (w, none)
    | some cell =>
      match cell.state.outcome? with
      | some o => (w, some (.outcome (o.map fun _ => .null)))
      | none => (w, if cell.live then none else some (.outcome (.error Readiness.trackerLost)))
  | .check d c =>
    match w.desks.get? d with
    | none => (w, none)
    | some cell => w.afterLook d cell.label (cell.desk.look c)
  | .inquiry d i =>
    match w.desks.get? d with
    | none => (w, none)
    | some cell => w.afterLook d cell.label (cell.desk.lookInquiry i)
  | .closePrompt d origin =>
    match w.desks.get? d with
    | none => (w, some .plain)
    | some cell =>
      let w := (w.setDesk d (cell.desk.closePrompts origin)).log (.promptClosed cell.label origin)
      (wake (.desk d) w, some .plain)
  | .cancelled t => (w, if w.tokens.get? t == some true then some .plain else none)
  | .listLoaded l =>
    match w.lists.get? l with
    | none => (w, none)
    | some cell =>
      (w, if cell.list != .loading then some (.list cell.list)
          else if cell.live then none else some (.list .unavailable))
  | .listAllows l origin =>
    (w, if (w.listAt (.own l)).contains origin then some .plain else none)
  | .shared _ => (w, none)
  | .job _ => (w, none)
  | .dispatch .. => (w, none)

def outcomeOf : Settled → Outcome
  | .outcome o => o
  | _ => .ok .null

def beginJob (future : Future) (w : World) : World × Future :=
  match future with
  | .job script => w.begin script
  | .dispatch b handler call =>
    match w.backends.get? b with
    | some backend => w.begin (w.serve backend handler call)
    | none => (w, future)
  | f => (w, f)

/-- Look at a future: what it is now, and its result. Of a shared one it is kept for the others whether
it succeeded, but no value. -/
def look (future : Future) (w : World) : World × Future × Option Settled :=
  match future with
  | .shared i =>
    match w.shares.get? i with
    | none => (w, future, none)
    | some { result := some r, .. } => (w, future, some r)
    | some cell =>
      let (w, inner) := w.beginJob cell.future
      let (w, result) := w.lookAt inner
      let result := result.map fun r => Settled.outcome ((outcomeOf r).map fun _ => .null)
      ({ w with shares := w.shares.modify i fun _ => { future := inner, result := result } }, future,
        result)
  | f =>
    let (w, f) := w.beginJob f
    let (w, result) := w.lookAt f
    (w, f, result)

def responseTo (request : Nat) (outcome : Outcome) : Response :=
  ⟨request, outcome.mapError Fault.message⟩

def continueWith (continuation : Continuation) (task : Nat) (result : Settled) (w : World) :
    World × List Action :=
  match continuation with
  | .report key =>
    ({ w with settled := Assoc.set key result w.settled
              futures := w.futures.filter fun f => f.2 != task }, [])
  | .resolve p => (w.resolve p (outcomeOf result), [])
  | .respond c service request =>
    (if w.isOpen c then w.sendQuietly c service (responseTo request (outcomeOf result)).toJson else w,
      [])
  | .gate g =>
    match outcomeOf result with
    | .ok _ => w.openGate g
    | .error e => w.failGate g e

def isMoot (w : World) : Continuation → Bool
  | .gate g => (w.gates.get? g).any fun c => c.core.phase = .disposed
  | _ => false

def finishTask (t : Nat) (w : World) : World :=
  { w with tasks := w.tasks.modify t fun _ => .finished }

def poll (t : Nat) (w : World) : World × List Action :=
  match w.tasks.get? t with
  | none => (w, [])
  | some task =>
    match task with
    | .finished => (w, [])
    | .await future continuation =>
      if w.isMoot continuation then (w.finishTask t, [])
      else
        match w.look future with
        | (w, future, none) =>
          ({ w with tasks := w.tasks.modify t fun _ => .await future continuation }, [])
        | (w, _, some result) => (w.finishTask t).continueWith continuation t result
    | .pump p second => (w, [.pumpNext p second])
    | .readLoop s => (w, [.readNext s])
    | .writeLoop s => (w, [.writeNext s])
    | .pingLoop p =>
      match (w.pingers.get? p).map PingerCell.loop with
      | some .fresh => ((w.setLoop p .starting).schedule t, [])
      | _ => (w, [.pingNext p])
    | .storeGrant d origin =>
      ((w.finishTask t).setDesk d
        (((w.desks.get? d).map fun c => c.desk.storeGrant origin).getD {}), [])
    | .backendCreated b handler name =>
      let w := w.finishTask t
      ({ w with backends := w.backends.modify b fun c => c.created handler name }, [])
    | .backendDeleted b handler =>
      let w := w.finishTask t
      ({ w with backends := w.backends.modify b fun c => c.deleted handler }, [])
    | .rawRead r => (w.rawRead r, [])
    | .rawWrite r => (w.rawWrite r, [])

def dueTime (w : World) : Task → Option Nat
  | .await f _ =>
    match w.underlying f with
    | .sleep wake _ => some wake
    | _ => none
  | .pingLoop p =>
    match w.pingers.get? p with
    | some cell => if cell.loop = .running then some cell.watch.nextTime else none
    | none => none
  | _ => none

end World

end Switchboard
