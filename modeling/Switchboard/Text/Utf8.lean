/-!
# Broken UTF-8

Where a run of bytes stops being UTF-8, and how many bytes are to blame. A sequence that merely ends
too early is incomplete; otherwise the bytes up to the first one that does not fit are counted.
-/

namespace Switchboard

namespace Text

/-- Where a text is broken. Without a length the last sequence is incomplete. -/
structure Utf8Flaw where
  index : Nat
  length : Option Nat
deriving DecidableEq, Repr, Inhabited

def Utf8Flaw.message (f : Utf8Flaw) : String :=
  match f.length with
  | some n => s!"invalid utf-8 sequence of {n} bytes from index {f.index}"
  | none => s!"incomplete utf-8 byte sequence from index {f.index}"

/-- The ranges of the bytes that follow a first byte. A first byte of `none` begins nothing. -/
def followers? (first : UInt8) : Option (List (UInt8 × UInt8)) :=
  let tail : UInt8 × UInt8 := (0x80, 0xBF)
  if first < 0x80 then some []
  else if first < 0xC2 then none
  else if first < 0xE0 then some [tail]
  else if first = 0xE0 then some [(0xA0, 0xBF), tail]
  else if first = 0xED then some [(0x80, 0x9F), tail]
  else if first < 0xF0 then some [tail, tail]
  else if first = 0xF0 then some [(0x90, 0xBF), tail, tail]
  else if first < 0xF4 then some [tail, tail, tail]
  else if first = 0xF4 then some [(0x80, 0x8F), tail, tail]
  else none

/-- The rest after a sequence of which `seen` bytes are there; or the length of the flaw. -/
def takeFollowers : Nat → List (UInt8 × UInt8) → List UInt8 → Except (Option Nat) (List UInt8)
  | _, [], bytes => .ok bytes
  | _, _ :: _, [] => .error none
  | seen, (low, high) :: ranges, b :: rest =>
    if low ≤ b && b ≤ high then takeFollowers (seen + 1) ranges rest else .error (some seen)

def utf8FlawFrom : Nat → Nat → List UInt8 → Option Utf8Flaw
  | 0, _, _ => none
  | _, _, [] => none
  | n + 1, index, b :: rest =>
    match followers? b with
    | none => some ⟨index, some 1⟩
    | some ranges =>
      match takeFollowers 1 ranges rest with
      | .error length => some ⟨index, length⟩
      | .ok others => utf8FlawFrom n (index + 1 + ranges.length) others

def utf8Flaw? (bytes : List UInt8) : Option Utf8Flaw := utf8FlawFrom bytes.length 0 bytes

end Text

end Switchboard
