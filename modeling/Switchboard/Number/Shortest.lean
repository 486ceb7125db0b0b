import Switchboard.Number.Double

/-!
# Shortest decimals

Of all decimals that read back as a given double, `shortest` takes those with the fewest digits and
of these the nearest one; a tie goes to the even digit. A double `m * 2 ^ e` is read back from every
real that lies in its rounding interval, and the ends belong to the interval exactly when `m` is
even. For each number of digits there are two candidates, the neighbours of the value on that decimal
grid, and each is tried in exact arithmetic.
-/

namespace Switchboard

attribute [local instance (high)] instPowNat

/-- The number `digits * 10 ^ exponent`. -/
structure Decimal where
  digits : Nat
  exponent : Int
deriving DecidableEq, Repr, Inhabited

namespace Decimal

def width (n : Nat) : Nat := (Nat.toDigits 10 n).length

def trim : Nat → Decimal → Decimal
  | 0, d => d
  | fuel + 1, d =>
    if d.digits != 0 && d.digits % 10 == 0 then trim fuel ⟨d.digits / 10, d.exponent + 1⟩ else d

end Decimal

/-- The rounding interval of a positive double in units of `2 ^ (exponent - 1076)`. -/
structure RoundingInterval where
  lower : Nat
  value : Nat
  upper : Nat
  /-- Whether the two ends read back as the double itself. -/
  closed : Bool

namespace Double

/-- The interval of reals that round to `d`. Below a power of two the gap is half as wide. -/
def interval (d : Double) : RoundingInterval :=
  let m := d.significand
  let below := if m == 2 ^ (52 : Nat) && d.exponent != 0 then 1 else 2
  { lower := 4 * m - below, value := 4 * m, upper := 4 * m + 2, closed := m % 2 == 0 }

/-- The ratio `x / unit` for a count `x` of interval units and the decimal unit `10 ^ p`. -/
def onGrid (d : Double) (p : Int) (x : Nat) : Nat × Nat :=
  let num := x * 2 ^ d.exponent
  let den := 2 ^ (1076 : Nat)
  if p ≥ 0 then (num, den * 10 ^ p.toNat) else (num * 10 ^ (-p).toNat, den)

def reads (d : Double) (p : Int) (c : Nat) : Bool :=
  let i := d.interval
  let lo := d.onGrid p i.lower
  let hi := d.onGrid p i.upper
  if i.closed then lo.1 ≤ c * lo.2 && c * hi.2 ≤ hi.1
  else lo.1 < c * lo.2 && c * hi.2 < hi.1

/-- The nearer of the value's two neighbours on the grid of `10 ^ p` that reads back, if any. -/
def nearestOnGrid? (d : Double) (p : Int) : Option Nat :=
  let v := d.onGrid p d.interval.value
  let low := v.1 / v.2
  let rest := v.1 % v.2
  let high := low + 1
  match d.reads p low, d.reads p high with
  | true, true =>
    if 2 * rest < v.2 || (2 * rest == v.2 && low % 2 == 0) then some low else some high
  | true, false => some low
  | false, true => some high
  | false, false => none

def decimalExponent (d : Double) : Int :=
  let num := d.significand * 2 ^ d.exponent
  let den := denominator
  let guess : Int := (Decimal.width num : Int) - (Decimal.width den : Int)
  let reaches : Bool :=
    if guess ≥ 0 then den * 10 ^ guess.toNat ≤ num else den ≤ num * 10 ^ (-guess).toNat
  if reaches then guess else guess - 1

def shortestFrom (d : Double) (lead : Int) : Nat → Nat → Decimal
  | 0, digits => ⟨(d.onGrid (lead - digits) d.interval.value).1, lead - digits⟩
  | fuel + 1, digits =>
    let p := lead - digits + 1
    match d.nearestOnGrid? p with
    | some c => Decimal.trim 20 ⟨c, p⟩
    | none => shortestFrom d lead fuel (digits + 1)

/-- The shortest decimal that reads back as the absolute value of a finite double. -/
def shortest (d : Double) : Decimal :=
  if d.isZero then ⟨0, 0⟩ else shortestFrom d d.decimalExponent 17 1

end Double

/-! ## Text -/

/-- How a decimal is written: from `positionalFrom` up to, and without, `exponentFrom` as powers of
ten of the leading digit it is written out, otherwise with an exponent. -/
structure DecimalFormat where
  positionalFrom : Int
  exponentFrom : Int
  /-- Written after a number that has no fraction of its own. -/
  wholeSuffix : String
  exponentMark : String
  positiveExponentSign : String

def zeros (n : Nat) : String := String.ofList (List.replicate n '0')

namespace Decimal

def render (f : DecimalFormat) (d : Decimal) : String :=
  let digits := Nat.toDigits 10 d.digits
  let count := digits.length
  let lead : Int := d.exponent + count - 1
  if f.positionalFrom ≤ lead && lead < f.exponentFrom then
    if d.exponent ≥ 0 then String.ofList digits ++ zeros d.exponent.toNat ++ f.wholeSuffix
    else if lead ≥ 0 then
      let whole := (lead + 1).toNat
      String.ofList (digits.take whole) ++ "." ++ String.ofList (digits.drop whole)
    else "0." ++ zeros (-lead - 1).toNat ++ String.ofList digits
  else
    let head := String.ofList (digits.take 1)
    let rest := digits.drop 1
    let fraction := if rest.isEmpty then "" else "." ++ String.ofList rest
    let sign := if lead < 0 then "-" else f.positiveExponentSign
    head ++ fraction ++ f.exponentMark ++ sign ++ toString lead.natAbs

end Decimal

end Switchboard
