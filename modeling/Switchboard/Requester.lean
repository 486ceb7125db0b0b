import Switchboard.Fault
import Switchboard.Message.Request
import Switchboard.Assoc

/-!
# Requesters

A requester numbers its requests from zero and remembers, for each one that has not been answered,
the ticket by which its poster waits. A response settles the request whose number it bears. Disposal
gives up every outstanding request, and afterwards nothing is outstanding any more.
-/

namespace Switchboard

structure Requester (Ticket : Type) where
  name : String
  nextId : Nat := 0
  pending : List (Nat × Ticket) := []
  disposed : Bool := false
deriving Inhabited

namespace Requester

variable {Ticket : Type}

def post (r : Requester Ticket) (ticket : Ticket) : Option (Requester Ticket × Nat) :=
  if r.disposed then none
  else some ({ r with nextId := r.nextId + 1, pending := r.pending ++ [(r.nextId, ticket)] }, r.nextId)

/-- Drop a request that could not be sent; the ticket is returned if it was outstanding. -/
def withdraw (r : Requester Ticket) (id : Nat) : Requester Ticket × Option Ticket :=
  ({ r with pending := Assoc.erase id r.pending }, r.pending.lookup id)

/-- What a received value means. -/
inductive Received (Ticket : Type) where
  | malformed
  /-- The requester is disposed, so the response is of no interest. -/
  | ignored
  /-- Nothing is outstanding under that number. -/
  | unknown (id : Nat)
  | settled (ticket : Ticket) (outcome : Except Fault Json)

def outcomeOf (m : Response) : Except Fault Json :=
  match m.outcome with
  | .ok value => .ok value
  | .error text => .error (.remote text)

def receive (r : Requester Ticket) (v : Json) : Requester Ticket × Received Ticket :=
  match Response.ofJson? v with
  | none => (r, .malformed)
  | some m =>
    if r.disposed then (r, .ignored)
    else
      match r.pending.lookup m.id with
      | none => (r, .unknown m.id)
      | some ticket =>
        ({ r with pending := Assoc.erase m.id r.pending }, .settled ticket (outcomeOf m))

/-- Give up: the tickets of the outstanding requests in the order of their numbers, or `none` if the
requester was disposed before. -/
def dispose (r : Requester Ticket) : Option (Requester Ticket × List Ticket) :=
  if r.disposed then none
  else some ({ r with disposed := true, pending := [] }, r.pending.map Prod.snd)

def gaveUp (r : Requester Ticket) : Fault := .requesterDisposed r.name

def logName (r : Requester Ticket) : String := s!"Requester<\"{r.name}\">"

end Requester

end Switchboard
