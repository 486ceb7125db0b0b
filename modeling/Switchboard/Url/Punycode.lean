/-!
# Punycode

A label with characters beyond ASCII is written in ASCII: first its ASCII characters, then, after a
hyphen, where and in which order the others are put in. These places are differences, written as
numbers to base 36 with the lowest digit first, whose length adapts to the differences before.
-/

namespace Switchboard

namespace Punycode

/-! ## Digits -/

def digitChar (d : Nat) : Char :=
  if d < 26 then Char.ofNat ('a'.toNat + d) else Char.ofNat ('0'.toNat + d - 26)

def digitValue? (c : Char) : Option Nat :=
  if 'a' ≤ c ∧ c ≤ 'z' then some (c.toNat - 'a'.toNat)
  else if 'A' ≤ c ∧ c ≤ 'Z' then some (c.toNat - 'A'.toNat)
  else if '0' ≤ c ∧ c ≤ '9' then some (c.toNat - '0'.toNat + 26)
  else none

/-- The least value of a digit at place `k` that is not the last of its number. -/
def threshold (k bias : Nat) : Nat :=
  if k ≤ bias then 1 else if bias + 26 ≤ k then 26 else k - bias

theorem threshold_pos (k bias : Nat) : 1 ≤ threshold k bias := by
  unfold threshold
  split
  · omega
  · split <;> omega

/-- Divides a difference down to the range in which the bias is read off; `k` counts the places. -/
def scaleDown (delta k : Nat) : Nat × Nat :=
  if 455 < delta then scaleDown (delta / 35) (k + 36) else (delta, k)
termination_by delta
decreasing_by exact Nat.div_lt_self (by omega) (by omega)

def adapt (delta count : Nat) (first : Bool) : Nat :=
  let start := if first then delta / 700 else delta / 2
  let (rest, k) := scaleDown (start + start / count) 0
  k + 36 * rest / (rest + 38)

/-! ## Writing -/

def digits (bias k q : Nat) : List Char :=
  let t := threshold k bias
  if q < t then [digitChar q]
  else digitChar (t + (q - t) % (36 - t)) :: digits bias (k + 36) ((q - t) / (36 - t))
termination_by q
decreasing_by
  have h₁ := threshold_pos k bias
  calc (q - threshold k bias) / (36 - threshold k bias)
      ≤ q - threshold k bias := Nat.div_le_self _ _
    _ < q := by omega

/-- A label on its way into ASCII. -/
structure Writing where
  out : List Char := []
  /-- The places passed since the last character that was put in. -/
  delta : Nat := 0
  bias : Nat := 72
  /-- How many characters are in place. -/
  placed : Nat
deriving Repr

namespace Writing

/-- Passes one character of the label while those of code point `code` are put in; `basic` counts
the ASCII characters. -/
def pass (basic code : Nat) (w : Writing) (c : Char) : Writing :=
  if c.toNat < code then { w with delta := w.delta + 1 }
  else if c.toNat = code then
    { out := w.out ++ digits w.bias 36 w.delta
      delta := 0
      bias := adapt w.delta (w.placed + 1) (w.placed == basic)
      placed := w.placed + 1 }
  else w

/-- Puts in the characters of each code point in turn; `next` is the least code point not yet
passed. -/
def run (label : List Char) (basic : Nat) : List Nat → Nat → Writing → Writing
  | [], _, w => w
  | code :: codes, next, w =>
    let reached := { w with delta := w.delta + (code - next) * (w.placed + 1) }
    let passed := label.foldl (pass basic code) reached
    run label basic codes (code + 1) { passed with delta := passed.delta + 1 }

end Writing

def encode (label : List Char) : List Char :=
  let basic := label.filter fun c => c.toNat < 0x80
  let codes := ((label.map Char.toNat).filter (0x80 ≤ ·)).mergeSort.eraseReps
  let written := Writing.run label basic.length codes 0x80 { placed := basic.length }
  basic ++ (if basic.isEmpty then [] else ['-']) ++ written.out

/-! ## Reading -/

def greatest : Nat := 4294967295

/-- Reads a difference from place `k` on and adds it, times `weight`, to `i`. -/
def readDelta (bias : Nat) : List Char → Nat → Nat → Nat → Option (Nat × List Char)
  | [], _, _, _ => none
  | c :: rest, k, weight, i =>
    match digitValue? c with
    | none => none
    | some d =>
      let sum := i + d * weight
      if greatest < sum then none
      else if d < threshold k bias then some (sum, rest)
      else readDelta bias rest (k + 36) (weight * (36 - threshold k bias)) sum

theorem readDelta_length_lt {bias : Nat} {text rest : List Char} {k weight i j : Nat}
    (h : readDelta bias text k weight i = some (j, rest)) : rest.length < text.length := by
  induction text generalizing k weight i with
  | nil => simp [readDelta] at h
  | cons c tail ih =>
    simp only [readDelta] at h
    split at h
    · simp at h
    · split at h
      · simp at h
      · split at h
        · simp only [Option.some.injEq, Prod.mk.injEq] at h
          simp [h.2]
        · have := ih h
          simp
          omega

/-- Puts in one character after the other: `code` is the least code point that may come, `i` the
place it may come at. -/
def insertAll (bias code i : Nat) (out text : List Char) : Option (List Char) :=
  match text with
  | [] => some out
  | c :: rest =>
    match _h : readDelta bias (c :: rest) 36 1 i with
    | none => none
    | some (j, tail) =>
      let count := out.length + 1
      let next := code + j / count
      if next.isValidChar then
        insertAll (adapt (j - i) count (i == 0)) next (j % count + 1)
          (out.insertIdx (j % count) (Char.ofNat next)) tail
      else none
termination_by text.length
decreasing_by exact readDelta_length_lt _h

def splitBasic (label : List Char) : List Char × List Char :=
  let tail := (label.reverse.takeWhile (· != '-')).reverse
  match label.take (label.length - tail.length - 1) with
  | [] => ([], label)
  | basic => (basic, tail)

def decode? (label : List Char) : Option (List Char) :=
  let (basic, tail) := splitBasic label
  if basic.all fun c => c.toNat < 0x80 then insertAll 72 0x80 0 basic tail else none

end Punycode

end Switchboard
