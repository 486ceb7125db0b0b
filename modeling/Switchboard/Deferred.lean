import Switchboard.Fault

/-!
# Deferred jobs

A gate holds jobs back until it opens, and then lets them through in the order in which they came.
It may fail instead, which turns away the jobs that wait and all later ones, or be disposed, which
drops them. Every job comes with a ticket by which its poster waits for the outcome.

Letting jobs through is one loop: `startFlush` admits a single flusher, and `next` hands it one job
at a time. A job that adds further jobs, or disposes the gate, is thus served by the loop that runs
already.
-/

namespace Switchboard

inductive GatePhase where
  | waiting
  | ready
  | failed (fault : Fault)
  | disposed
deriving DecidableEq, Repr, Inhabited

/-- A gate with the jobs that wait before it. -/
structure Deferred (Job Ticket : Type) where
  phase : GatePhase := .waiting
  queue : List (Job × Ticket) := []
  flushing : Bool := false
deriving Inhabited

namespace Deferred

variable {Job Ticket : Type}

/-- What becomes of a job that is added. -/
inductive Admission where
  | refused (fault : Fault)
  | skipped
  | queued
  | flush

def add (d : Deferred Job Ticket) (job : Job) (ticket : Ticket) : Deferred Job Ticket × Admission :=
  match d.phase with
  | .failed e => (d, .refused e)
  | .disposed => (d, .skipped)
  | .waiting => ({ d with queue := d.queue ++ [(job, ticket)] }, .queued)
  | .ready => ({ d with queue := d.queue ++ [(job, ticket)] }, .flush)

def open? (d : Deferred Job Ticket) : Option (Deferred Job Ticket) :=
  if d.phase = .waiting then some { d with phase := .ready } else none

def fail? (d : Deferred Job Ticket) (fault : Fault) : Option (Deferred Job Ticket × List Ticket) :=
  if d.phase = .waiting then
    some ({ d with phase := .failed fault, queue := [] }, d.queue.map Prod.snd)
  else none

def dispose? (d : Deferred Job Ticket) : Option (Deferred Job Ticket × List Ticket) :=
  if d.phase = .disposed then none
  else some ({ d with phase := .disposed, queue := [] }, d.queue.map Prod.snd)

def startFlush? (d : Deferred Job Ticket) : Option (Deferred Job Ticket) :=
  if d.flushing then none else some { d with flushing := true }

def next (d : Deferred Job Ticket) : Deferred Job Ticket × Option (Job × Ticket) :=
  match d.phase, d.queue with
  | .ready, job :: rest => ({ d with queue := rest }, some job)
  | _, _ => ({ d with flushing := false }, none)

end Deferred

end Switchboard
