import Switchboard.Relay.Basic

/-!
# Sessions with clients

What passes between the relay and the outside world: bytes to and from the clients, questions to the
operator and the answers, and time. A client is known here by the number of the far end of its
stream.
-/

namespace Switchboard

namespace Relay

def passTo (now : Nat) (r : Relay) : Relay :=
  { r with world := World.passTime World.fuel now (World.settle World.fuel r.world) }

/-- What comes from outside: bytes of a client, the end of what it writes, the end of its connection, the
stored decisions, an answer of the operator, and a new list of those who are allowed. -/
inductive Input where
  | bytes (client : Nat) (bytes : ByteArray)
  | finish (client : Nat)
  | hangUp (client : Nat)
  | loaded
  | answer (origin : String) (answer : Answer)
  | list (list : AllowList)

def take (input : Input) (r : Relay) : World :=
  match input with
  | .bytes client bytes =>
    (r.world.modifyRaw client fun c => { c with toWrite := c.toWrite ++ bytes }).wake (.raw client)
  | .finish client => (r.world.modifyRaw client fun c => { c with shutdown := true }).wake (.raw client)
  | .hangUp client => r.world.rawDrop client
  | .loaded =>
    match r.world.desks.get? r.desk with
    | some c => (r.world.setDesk r.desk c.desk.finishLoading).wake (.desk r.desk)
    | none => r.world
  | .answer origin answer =>
    match (r.world.desks.get? r.desk).bind fun c => c.desk.answer? origin answer with
    | some desk => (r.world.setDesk r.desk desk).wake (.desk r.desk)
    | none => r.world
  | .list list => r.world.setList (.desk r.desk) list

def receive (input : Input) (r : Relay) : Relay := settle { r with world := r.take input }

/-- Take out what is to be sent to a client, and whether nothing more will follow. -/
def collect (client : Nat) (r : Relay) : Relay × ByteArray × Bool :=
  match r.world.raws.get? client with
  | none => (r, .empty, true)
  | some c =>
    ({ r with world := r.world.modifyRaw client fun c => { c with received := .empty } },
      c.received, c.ended)

/-- What the operator is to be told. -/
inductive Notice where
  | question (request : PromptRequest)
  /-- A question needs no answer any more. -/
  | retracted (origin : String)
deriving DecidableEq, Repr, Inhabited

def noticeOf : Event → Option Notice
  | .prompted _ request => some (.question request)
  | .promptClosed _ origin => some (.retracted origin)
  | _ => none

def notices (r : Relay) : Relay × List Notice :=
  ({ r with world := { r.world with events := [] } },
    r.world.events.filterMap fun e => noticeOf e.event)

def decisions (r : Relay) : Decisions :=
  ((r.world.desks.get? r.desk).map fun c => c.desk.decisions).getD []

end Relay

end Switchboard
