/-!
# Double-precision numbers

A double is its 64 bits: a sign, eleven bits of exponent and fifty-two of fraction. All arithmetic
here is exact: an operand is read as a ratio of naturals, the result is formed as a ratio, and
`Double.ofRatio` rounds once, to the nearest double with ties to the even one. Nothing depends on a
machine's floating-point unit.
-/

namespace Switchboard

attribute [local instance (high)] instPowNat

/-- An IEEE binary64 number, held as its bits. -/
structure Double where
  bits : UInt64
deriving DecidableEq, BEq, Inhabited, Repr

namespace Double

def signBit : Nat := 2 ^ (63 : Nat)

/-- The bits of positive infinity, and the first magnitude that is not finite. -/
def infinityBits : Nat := 0x7FF * 2 ^ (52 : Nat)

def isNegative (d : Double) : Bool := signBit ≤ d.bits.toNat

def magnitude (d : Double) : Nat := d.bits.toNat % signBit

def isFinite (d : Double) : Bool := d.magnitude < infinityBits

def isZero (d : Double) : Bool := d.magnitude == 0

def ofMagnitude (negative : Bool) (magnitude : Nat) : Double :=
  ⟨(if negative then signBit + magnitude else magnitude).toUInt64⟩

def significand (d : Double) : Nat :=
  let field := d.magnitude / 2 ^ (52 : Nat)
  let fraction := d.magnitude % 2 ^ (52 : Nat)
  if field = 0 then fraction else 2 ^ (52 : Nat) + fraction

/-- The binary exponent above the smallest one, so that zero and the subnormals have zero. -/
def exponent (d : Double) : Nat := d.magnitude / 2 ^ (52 : Nat) - 1

def numerator (d : Double) : Nat := d.significand * 2 ^ d.exponent

def denominator : Nat := 2 ^ (1074 : Nat)

def roundDiv (num den : Nat) : Nat :=
  let q := num / den
  let r := num % den
  if 2 * r > den || (2 * r == den && q % 2 == 1) then q + 1 else q

/-- The double nearest to `num / den`, ties to even; what is too large is infinite. -/
def ofRatio (negative : Bool) (num den : Nat) : Double :=
  if num = 0 || den = 0 then ofMagnitude negative 0
  else
    -- `shift` is the exponent, counted from `-1074`, whose unit gives 53 significant bits.
    let rough := num.log2 + 1074 - den.log2 - 53
    let unit := den * 2 ^ rough
    let shift := if num * denominator / unit < 2 ^ (53 : Nat) then rough else rough + 1
    let mantissa := roundDiv (num * denominator) (den * 2 ^ shift)
    ofMagnitude negative (min infinityBits (shift * 2 ^ (52 : Nat) + mantissa))

/-- The sign and absolute value that stand for a sum of two signed ratios over one denominator. -/
def addSigned (a b : Bool × Nat) : Bool × Nat :=
  if a.1 == b.1 then (a.1, a.2 + b.2)
  else if a.2 ≥ b.2 then (if a.2 == b.2 then false else a.1, a.2 - b.2)
  else (b.1, b.2 - a.2)

def add (x y : Double) : Double :=
  if !x.isFinite then x
  else if !y.isFinite then y
  else
    let sum := addSigned (x.isNegative, x.numerator) (y.isNegative, y.numerator)
    ofRatio sum.1 sum.2 denominator

/-- The rounded product of two doubles; an infinite operand makes it infinite. -/
def mul (x y : Double) : Double :=
  let negative := x.isNegative != y.isNegative
  if !x.isFinite || !y.isFinite then ofMagnitude negative infinityBits
  else ofRatio negative (x.numerator * y.numerator) (denominator * denominator)

def div (x y : Double) : Double :=
  ofRatio (x.isNegative != y.isNegative) x.numerator y.numerator

def neg (d : Double) : Double := ofMagnitude (!d.isNegative) d.magnitude

def ofNat (n : Nat) : Double := ofRatio false n 1

def ofInt (i : Int) : Double := ofRatio (i < 0) i.natAbs 1

def zero : Double := ⟨0⟩

end Double

end Switchboard
