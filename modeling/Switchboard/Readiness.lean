import Switchboard.Fault

/-!
# Readiness

The server becomes ready once, or fails to; whichever comes first stays.
-/

namespace Switchboard

/-- What is known about the server's start. -/
inductive Readiness where
  | pending
  | ready
  | failed (fault : Fault)
deriving DecidableEq, Repr, Inhabited

namespace Readiness

def settle (r next : Readiness) : Readiness :=
  match r with
  | .pending => next
  | r => r

def outcome? : Readiness → Option (Except Fault Unit)
  | .pending => none
  | .ready => some (.ok ())
  | .failed e => some (.error e)

def channelLost : Readiness := .failed (.notReady "the server message channel was disposed")

def trackerLost : Fault := .notReady "the readiness tracker was dropped"

end Readiness

end Switchboard
