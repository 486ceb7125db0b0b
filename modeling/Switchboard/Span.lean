/-!
# Spans of time

A span is a number of nanoseconds. Its text uses the largest of the units `s`, `ms`, `µs` and `ns`
of which the span holds at least one, with as many decimals as it needs and none that is zero at the
end.
-/

namespace Switchboard

attribute [local instance (high)] instPowNat

/-- A span of time in nanoseconds. -/
structure Span where
  nanos : Nat
deriving DecidableEq, Repr, Inhabited

namespace Span

def nanosPerSecond : Nat := 1000000000

def ofSeconds (n : Nat) : Span := ⟨n * nanosPerSecond⟩

def ofMillis (n : Nat) : Span := ⟨n * 1000000⟩

def isZero (s : Span) : Bool := s.nanos == 0

def dropTrailingZeros (digits : List Char) : List Char :=
  (digits.reverse.dropWhile (· == '0')).reverse

def decimals (places rest : Nat) : List Char :=
  let digits := Nat.toDigits 10 rest
  dropTrailingZeros (List.replicate (places - digits.length) '0' ++ digits)

def inUnit (s : Span) (places : Nat) (unit : String) : String :=
  let fraction := decimals places (s.nanos % 10 ^ places)
  let point := if fraction.isEmpty then "" else "." ++ String.ofList fraction
  toString (s.nanos / 10 ^ places) ++ point ++ unit

def render (s : Span) : String :=
  if s.nanos ≥ 10 ^ (9 : Nat) then s.inUnit 9 "s"
  else if s.nanos ≥ 10 ^ (6 : Nat) then s.inUnit 6 "ms"
  else if s.nanos ≥ 10 ^ (3 : Nat) then s.inUnit 3 "µs"
  else s.inUnit 0 "ns"

end Span

end Switchboard
