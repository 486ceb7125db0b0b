/-!
# Pipes

One direction of a byte stream: it holds up to `capacity` bytes on their way, and either side may
close it. A closed pipe takes no more bytes but still gives out those it holds; after the last one
its reader sees the end.
-/

namespace Switchboard

/-- Bytes on their way from a writer to a reader. -/
structure Pipe where
  capacity : Nat
  held : ByteArray := .empty
  closed : Bool := false

namespace Pipe

def space (p : Pipe) : Nat := p.capacity - p.held.size

/-- Put in what fits of the bytes from `start` on; the second part is the number taken. -/
def write (p : Pipe) (bytes : ByteArray) (start : Nat) : Pipe × Nat :=
  let n := min p.space (bytes.size - start)
  ({ p with held := p.held ++ bytes.extract start (start + n) }, n)

def drain (p : Pipe) : Pipe × ByteArray := ({ p with held := .empty }, p.held)

def close (p : Pipe) : Pipe := { p with closed := true }

end Pipe

end Switchboard
