import Switchboard.Fault
import Switchboard.Span

/-!
# Liveness timing

How often a peer is asked for a sign of life, and how long its silence is borne. A usable timing asks
at all, and asks at least once before giving up.
-/

namespace Switchboard

/-- The two times of the liveness protocol. -/
structure LivenessConfig where
  interval : Span
  timeout : Span
deriving DecidableEq, Repr, Inhabited

namespace LivenessConfig

def standard : LivenessConfig := ⟨.ofSeconds 10, .ofSeconds 600⟩

def debug : LivenessConfig := ⟨.ofSeconds 1, .ofSeconds 20⟩

def validate (c : LivenessConfig) : Except Fault Unit :=
  if c.interval.isZero then .error (.config "ping interval must be non-zero")
  else if c.interval.nanos ≥ c.timeout.nanos then
    .error (.config
      s!"ping interval {c.interval.render} must be smaller than the timeout {c.timeout.render}")
  else .ok ()

def make (interval timeout : Span) : Except Fault LivenessConfig :=
  let c : LivenessConfig := ⟨interval, timeout⟩
  match c.validate with
  | .error e => .error e
  | .ok () => .ok c

end LivenessConfig

end Switchboard
