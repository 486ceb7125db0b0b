import Switchboard.Unicode.CombiningClass
import Switchboard.Unicode.Decomposition
import Std.Data.HashMap

/-!
# Composed form

Texts that look the same may be written with marks apart or composed. The composed form is unique:
everything is decomposed, the marks after each letter are put into the order of their classes, and
then each letter takes in the marks that it can.
-/

namespace Switchboard

namespace Unicode

/-! ## Korean syllables -/

def syllableBase : Nat := 0xAC00

def leadBase : Nat := 0x1100

def vowelBase : Nat := 0x1161

def trailBase : Nat := 0x11A7

def leadCount : Nat := 19

def vowelCount : Nat := 21

def trailCount : Nat := 28

def syllableParts? (c : Char) : Option (List Char) :=
  let n := c.toNat - syllableBase
  if syllableBase ≤ c.toNat ∧ n < leadCount * vowelCount * trailCount then
    let lead := Char.ofNat (leadBase + n / (vowelCount * trailCount))
    let vowel := Char.ofNat (vowelBase + n % (vowelCount * trailCount) / trailCount)
    let trail := n % trailCount
    some (lead :: vowel :: if trail = 0 then [] else [Char.ofNat (trailBase + trail)])
  else none

/-- The syllable of a leading consonant and a vowel, or of such a syllable and a trailing
consonant. -/
def syllable? (a b : Char) : Option Char :=
  let lead := a.toNat - leadBase
  let vowel := b.toNat - vowelBase
  let whole := a.toNat - syllableBase
  let trail := b.toNat - trailBase
  if leadBase ≤ a.toNat ∧ lead < leadCount ∧ vowelBase ≤ b.toNat ∧ vowel < vowelCount then
    some (Char.ofNat (syllableBase + (lead * vowelCount + vowel) * trailCount))
  else if syllableBase ≤ a.toNat ∧ whole < leadCount * vowelCount * trailCount ∧
      whole % trailCount = 0 ∧ trailBase < b.toNat ∧ trail < trailCount then
    some (Char.ofNat (a.toNat + trail))
  else none

/-! ## Taking apart -/

def decomposeChar : Nat → Char → List Char
  | 0, c => [c]
  | depth + 1, c =>
    match syllableParts? c with
    | some parts => parts
    | none =>
      match decompositions.find? c with
      | some s => s.target.flatMap fun code => decomposeChar depth (Char.ofNat code)
      | none => [c]

/-- Puts a character after those before it, given from the last to the first, past the marks of a
higher class. -/
def settleMark (c : Char) : List Char → List Char
  | [] => [c]
  | d :: before =>
    if combiningClass c ≠ 0 ∧ combiningClass c < combiningClass d then d :: settleMark c before
    else c :: d :: before

def decompose (text : List Char) : List Char :=
  ((text.flatMap (decomposeChar 4)).foldl (fun before c => settleMark c before) []).reverse

/-! ## Putting together -/

def compositions : Std.HashMap (Nat × Nat) Nat :=
  decompositions.foldl (fun m s =>
    match s.reversible, s.target with
    | true, [a, b] => m.insert (a, b) s.first
    | _, _ => m) ∅

def composePair? (a b : Char) : Option Char :=
  match syllable? a b with
  | some c => some c
  | none => (compositions[(a.toNat, b.toNat)]?).map Char.ofNat

/-- A text under composition. -/
structure Composing where
  /-- What is settled, from the last character to the first. -/
  done : List Char := []
  /-- The letter that may still take in marks. -/
  starter : Option Char := none
  marks : List Char := []
deriving Repr, Inhabited

namespace Composing

def all (s : Composing) : List Char := s.marks ++ s.starter.toList ++ s.done

/-- Whether a mark of the same class, or a higher one, stands between the letter and `c`. -/
def blocked (s : Composing) (c : Char) : Bool :=
  match s.marks with
  | [] => false
  | m :: _ => combiningClass c ≤ combiningClass m

def joined? (s : Composing) (c : Char) : Option Char :=
  if s.blocked c then none else s.starter.bind (composePair? · c)

def push (s : Composing) (c : Char) : Composing :=
  match s.joined? c with
  | some joined => { s with starter := some joined }
  | none =>
    if combiningClass c = 0 then { done := s.all, starter := some c }
    else if s.starter.isSome then { s with marks := c :: s.marks }
    else { s with done := c :: s.done }

end Composing

def compose (text : List Char) : List Char :=
  ((decompose text).foldl Composing.push {}).all.reverse

end Unicode

end Switchboard
